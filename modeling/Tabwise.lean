import Tabwise.Main
import Tabwise.Proofs.Completion.Flags
import Tabwise.Proofs.Completion.Offered
import Tabwise.Proofs.Parse.Groups
import Tabwise.Proofs.Parse.Sound
import Tabwise.Proofs.Grammar.LastPositional
import Tabwise.Proofs.Replay.Selection
import Tabwise.Proofs.Completion.Delegation
import Tabwise.Proofs.Completion.Candidates
import Tabwise.Proofs.Line.Reading
import Tabwise.Proofs.Line.Scan
import Tabwise.Proofs.Prompt.ReadBack
import Tabwise.Proofs.Line.Layout
import Tabwise.Proofs.Line.Lossless
import Tabwise.Proofs.Line.Spelling
import Tabwise.Proofs.Line.Split
import Tabwise.Proofs.Shell.Names
import Tabwise.Proofs.Shell.Errors
import Tabwise.Proofs.Completion.Narrowing
import Tabwise.Proofs.Completion.IgnoreCase
import Tabwise.Proofs.Grammar.Accepted
import Tabwise.Proofs.Listing.Matches
import Tabwise.Proofs.Shell.Cursor
import Tabwise.Proofs.Completion.Aliases
import Tabwise.Proofs.Parse.Commuting
import Tabwise.Proofs.Parse.Greedy
import Tabwise.Proofs.Config.Layers
import Tabwise.Proofs.Line.BeforeCursor
import Tabwise.Proofs.Parse.Choices
import Tabwise.Proofs.Line.Onward
import Tabwise.Proofs.Line.Wrapping
import Tabwise.Proofs.Text.Numerals
import Tabwise.Proofs.Text.Clusters
import Tabwise.Proofs.Text.Columns
import Tabwise.Proofs.Text.Segments
import Tabwise.Proofs.Text.Display
import Tabwise.Proofs.Listing.Alignment
import Tabwise.Proofs.Prompt.Insertion
import Tabwise.Proofs.Config.Paths
import Tabwise.Proofs.Shell.Help
import Tabwise.Proofs.Completion.Numbers
import Tabwise.Proofs.Grammar.Abbreviations
import Tabwise.Proofs.Text.Delimiting
import Tabwise.Proofs.Line.Words
import Tabwise.Proofs.Shell.Shelves
import Tabwise.Proofs.Shell.Words
import Tabwise.Proofs.Shell.Removal
