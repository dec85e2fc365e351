import Tabwise.Completion.FlagNames
import Tabwise.Completion.Values
import Tabwise.Line.Scan
import Tabwise.Replay.Step

/-! # Completing a line

The tokens before the last are replayed to find the argument being filled. The last one is a
flag name if it looks like one, a value of the open flag, or a value of the current positional;
a single prefix character falls back to flag names. What follows the name of a subcommand is
completed by its own grammar. Only a failing source of candidates makes completion fail.
-/

namespace Tabwise.Completion

structure Request where
  text : String
  line : String
  start : Nat
  stop : Nat

def Request.context (q : Request) (given : Given) : Context := ⟨q.text, q.line, q.start, q.stop, given⟩

/-- What an argument offers, or another answer if it offers nothing. -/
def offer (g : Grammar) (o : Options) (r : Replay) (context : Context) (s : Slot)
    (otherwise : Outcome) : Except String Outcome :=
  (values g o r context s).map fun c => if c.candidates.isEmpty then otherwise else .candidates c

/-- Whether the text is a single prefix character that could begin a flag. -/
def beginsFlag (g : Grammar) (r : Replay) (text : String) : Bool :=
  !r.flagsOff && g.isSinglePrefix text

def fallback (g : Grammar) (o : Options) (r : Replay) (text : String) : Outcome :=
  if beginsFlag g r text then flagNames g o r text else .nothing

def completeFlag (g : Grammar) (o : Options) (r : Replay) (text : String) : Outcome :=
  match r.unfinishedFlag? with
  | some s => .malformed (s.unfinished g)
  | none => flagNames g o r text

def completeValue (g : Grammar) (o : Options) (r : Replay) (context : Context) :
    Except String Outcome :=
  let fallback := fallback g o r context.text
  let begins := beginsFlag g r context.text
  match r.openFlag, r.nextPositional? g with
  | some s, _ =>
    offer g o r context s (if s.isUnfinished || !begins then hint g s else fallback)
  | none, some s => offer g o r context s (if begins then fallback else hint g s)
  | none, none => .ok fallback

def completeLast (g : Grammar) (o : Options) (r : Replay) (context : Context) :
    Except String Outcome :=
  if !r.flagsOff && g.looksLikeFlag context.text then .ok (completeFlag g o r context.text)
  else completeValue g o r context

/-- Replays the tokens before the last one and completes it with the grammar reached. -/
def completeFrom (o : Options) (q : Request) (g : Grammar) (parents : Given) (r : Replay) :
    List String → Except String Outcome
  | [] => completeLast g o r (q.context (parents.extend (r.given g)))
  | token :: rest =>
    match r.step g o.abbreviated token with
    | .error reason => .ok (.malformed reason)
    | .ok (.subcommand _ command, r) =>
      completeFrom o q command.grammar (parents.extend (r.given g)) (.start command.grammar) rest
    | .ok (.unknownSubcommand _, _) => .ok .nothing
    | .ok (_, r) => completeFrom o q g parents r rest

/-- Completes the last of the tokens after a command name. Values given to parent commands are
visible to completers. -/
def completeTokens (g : Grammar) (o : Options) (parents : Given) (q : Request)
    (tokens : List String) : Except String Outcome :=
  completeFrom o q g parents (.start g) tokens.dropLast

/-- Completes a line at the cursor with the grammar of its command. The command name itself is
not completed. -/
def complete (g : Grammar) (o : Options) (line : String) (start cursor : Nat) :
    Except String Outcome :=
  match Line.scan line.toList cursor with
  | .error _ => .ok .nothing
  | .ok s =>
    if s.completesCommand then .ok .nothing
    else completeTokens g o .empty ⟨s.text, line, start, s.stop⟩ s.tokens.tail

end Tabwise.Completion
