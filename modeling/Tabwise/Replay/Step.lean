import Tabwise.Replay.Basic

/-! # One step of the replay

A token goes to an open remainder, is a separator, a flag, a value of the open flag or a value of
the current positional, in this order. Using a member of an exclusive group takes the other
members out of the line.
-/

namespace Tabwise.Replay

/-- Takes the other members of a group out: flags are not offered, positionals not filled. -/
def excludeOthers (g : Grammar) (id : Nat) (r : Replay) : List Nat → Replay
  | [] => r
  | member :: rest =>
    let r :=
      if member = id then r
      else if (g.argument member).isFlag then r.matchFlag member
      else { r with remaining := r.remaining.filter (· ≠ member) }
    excludeOthers g id r rest

def useGroup (g : Grammar) (r : Replay) (id : Nat) : Except Malformed Replay :=
  match g.groups.findIdx? (·.contains id) with
  | none => .ok r
  | some index =>
    match r.used.find? index with
    | some other =>
      if other = id then .ok r
      else .error (.notAllowedWith (g.argument id).displayName (g.argument other).displayName)
    | none =>
      let r := { r with used := r.used.insert index id }
      .ok (excludeOthers g id r (g.groups[index]?.getD []))

/-- What an occurrence of a flag keeps before its values. -/
def keepFlag (a : Argument) (id : Nat) (values : InsertionMap Nat (List String)) :
    InsertionMap Nat (List String) :=
  match a.action with
  | .store => values.insert id []
  | .append => values.update id [] fun vs => vs
  | .appendConst => values.update id [] (· ++ [a.constant.getD ""])
  | .storeTrue | .count | .help => values

def enterFlag (g : Grammar) (r : Replay) (id : Nat) : Replay :=
  let a := g.argument id
  { r with
    occurrences := r.occurrences.update id 0 (· + 1)
    consumed := r.consumed.insert id []
    values := keepFlag a id r.values
    matched := if a.action.isRepeatable then r.matched else (r.matchFlag id).matched
    openFlag := if a.maxArgs = some 0 then r.openFlag else some (.new g id)
    flagsOff := r.flagsOff || (a.maxArgs ≠ some 0 && a.isRemainder) }

/-- Fails if the open flag needs more values. -/
def closeFlag (g : Grammar) (r : Replay) : Except Malformed Replay :=
  match r.unfinishedFlag? with
  | some s => .error (s.unfinished g)
  | none => .ok { r with openFlag := none }

/-- A token that is read as a flag. An open positional stays open. -/
def stepFlag (g : Grammar) (abbreviated : Bool) (r : Replay) (token : String) :
    Except Malformed (Step × Replay) := do
  let r ← r.closeFlag g
  match g.lookupFlag abbreviated token with
  | none => return (.unknownFlag, r)
  | some id => return (.flag id, (← r.useGroup g id).enterFlag g id)

def fillFlag (r : Replay) (s : Slot) (token : String) : Replay :=
  let s := s.next
  { r.pushValue s.id token with openFlag := if s.isFull then none else some s }

def remainderNext (g : Grammar) (r : Replay) : Bool :=
  r.remaining.head?.any fun id => (g.argument id).isRemainder

/-- Gives the open positional a value. A remainder that is next in line stops flags. -/
def fillPositional (g : Grammar) (r : Replay) (s : Slot) (token : String) : Replay :=
  let s := s.next
  { r.pushValue s.id token with
    openPositional := if s.isFull then none else some s
    flagsOff := r.flagsOff || (s.isFull && r.remainderNext g) }

def enterPositional (g : Grammar) (r : Replay) (id : Nat) (token : String) : Replay :=
  { r.countOccurrence id with
    flagsOff := r.flagsOff || (g.argument id).isRemainder }.fillPositional g (.new g id) token

def enterSelector (r : Replay) (id : Nat) (token : String) : Replay :=
  { r with values := r.values.insert id [token] }.countOccurrence id

/-- A token for the next positional that has not started. -/
def stepNewPositional (g : Grammar) (r : Replay) (id : Nat) (rest : List Nat) (token : String) :
    Except Malformed (Step × Replay) := do
  let r ← { r with remaining := rest }.useGroup g id
  match (g.argument id).subcommands? with
  | some set =>
    match set.select? token with
    | some command => return (.subcommand id command, r.enterSelector id token)
    | none => return (.unknownSubcommand id, r.enterSelector id token)
  | none => return (.value id, r.enterPositional g id token)

def stepValue (g : Grammar) (r : Replay) (token : String) : Except Malformed (Step × Replay) :=
  match r.openFlag, r.openPositional, r.remaining with
  | some s, _, _ => .ok (.value s.id, r.fillFlag s token)
  | none, some s, _ => .ok (.value s.id, r.fillPositional g s token)
  | none, none, [] => .ok (.extra, r)
  | none, none, id :: rest => r.stepNewPositional g id rest token

/-- A token outside of any open remainder. -/
def stepPlain (g : Grammar) (abbreviated : Bool) (r : Replay) (token : String) :
    Except Malformed (Step × Replay) :=
  if token = "--" && !r.flagsOff then
    (r.closeFlag g).map fun r => (.separator, { r with flagsOff := true, separated := true })
  else if !r.flagsOff && g.looksLikeFlag token then r.stepFlag g abbreviated token
  else r.stepValue g token

def step (g : Grammar) (abbreviated : Bool) (r : Replay) (token : String) :
    Except Malformed (Step × Replay) :=
  match r.openFlag.filter (·.remainder), r.openPositional.filter (·.remainder) with
  | some s, _ => .ok (.value s.id, { r.pushValue s.id token with openFlag := some s.next })
  | none, some s =>
    if token = "--" then
      .ok (.separator, { r with openPositional := none, flagsOff := r.separated })
    else .ok (.value s.id, { r.pushValue s.id token with openPositional := some s.next })
  | none, none => r.stepPlain g abbreviated token

end Tabwise.Replay
