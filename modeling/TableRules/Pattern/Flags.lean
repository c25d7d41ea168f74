import TableRules.Pattern.Source
import TableRules.Pattern.CharClass

/-!
# Flags of a pattern

Letters in the group `(?…)` at the start of a pattern, or before the colon of a group `(?…:…)`,
change how the pattern is read (`x`) or matched (`i`, `m`, `s`, and `a` or `u` for the extent of the
named classes). Flags of a group hold inside it only.
-/

namespace TableRules

/-- The flags in force. -/
structure Flags where
  ignoreCase : Bool
  multiline : Bool
  dotAll : Bool
  verbose : Bool
  ascii : Bool
  unicode : Bool
  template : Bool
  deriving DecidableEq, Repr

namespace Flags

/-- No flag. -/
def none : Flags := ⟨false, false, false, false, false, false, false⟩

/-- The flag of a letter. -/
def ofLetter? (c : Char) : Option Flags :=
  match c with
  | 'i' => some { none with ignoreCase := true }
  | 'm' => some { none with multiline := true }
  | 's' => some { none with dotAll := true }
  | 'x' => some { none with verbose := true }
  | 'a' => some { none with ascii := true }
  | 'u' => some { none with unicode := true }
  | 't' => some { none with template := true }
  | 'L' => some none
  | _ => Option.none

/-- The flags of either of two sets. -/
def union (f g : Flags) : Flags :=
  ⟨f.ignoreCase || g.ignoreCase, f.multiline || g.multiline, f.dotAll || g.dotAll,
    f.verbose || g.verbose, f.ascii || g.ascii, f.unicode || g.unicode, f.template || g.template⟩

/-- The flags of the first set that are not in the second. -/
def minus (f g : Flags) : Flags :=
  ⟨f.ignoreCase && !g.ignoreCase, f.multiline && !g.multiline, f.dotAll && !g.dotAll,
    f.verbose && !g.verbose, f.ascii && !g.ascii, f.unicode && !g.unicode,
    f.template && !g.template⟩

/-- Whether two sets have a flag in common. -/
def meets (f g : Flags) : Bool :=
  f.ignoreCase && g.ignoreCase || f.multiline && g.multiline || f.dotAll && g.dotAll ||
    f.verbose && g.verbose || f.ascii && g.ascii || f.unicode && g.unicode ||
    f.template && g.template

/-- The flags inside a group that turns some on and some off. -/
def inside (f added removed : Flags) : Flags :=
  let base :=
    if added.ascii || added.unicode then { f with ascii := false, unicode := false } else f
  (base.union added).minus removed

/-- How letter case is treated under the flags. -/
def folding (f : Flags) : Folding :=
  if f.ignoreCase then if f.ascii then .ascii else .full else .exact

/-- What a flag group says: flags for the whole pattern, or flags on and off inside a group. -/
inductive Change
  | whole (added : Flags)
  | inside (added removed : Flags)
  deriving DecidableEq, Repr

/-- The fault of a symbol that is no flag where one, or a given mark, should stand. -/
def notFlag {α : Type} (mark : String) (x : Symbol) (s : Source) : Except PatternFault α :=
  match x with
  | .plain c =>
    if Text.isAlphanumeric c && !Text.isDigit c then Source.fault .unknownFlag (s.pos - 1)
    else Source.fault (.missing mark) (s.pos - 1)
  | .escaped _ => Source.fault (.missing mark) (s.pos - 2)

/-- Reads the flags to be turned off, after the first letter `c`. -/
def readRemoved : Nat → Char → Flags → Source → Except PatternFault (Flags × Source)
  | 0, _, removed, s => .ok (removed, s)
  | fuel + 1, c, removed, s =>
    if c == 'a' || c == 'u' || c == 'L' then Source.fault .typeFlagOff s.pos
    else do
      let removed := removed.union ((ofLetter? c).getD none)
      let (symbol, t) ← s.get
      match symbol with
      | .none => Source.fault (.missing ":") t.pos
      | some (.plain ':') => return (removed, t)
      | some (.plain d) =>
        if (ofLetter? d).isSome then readRemoved fuel d removed t else notFlag ":" (.plain d) t
      | some x => notFlag ":" x t

/-- Reads the flags to be turned on, after the first letter `c`; gives the mark after them. -/
def readAdded : Nat → Char → Flags → Source → Except PatternFault (Char × Flags × Source)
  | 0, _, added, s => .ok (')', added, s)
  | fuel + 1, c, added, s =>
    if c == 'L' then Source.fault .byteFlag s.pos
    else
      let added := added.union ((ofLetter? c).getD none)
      if added.ascii && added.unicode && (c == 'a' || c == 'u') then
        Source.fault .incompatibleFlags s.pos
      else do
        let (symbol, t) ← s.get
        match symbol with
        | .none => Source.fault (.missing "-, : or )") t.pos
        | some (.plain d) =>
          if d == ')' || d == '-' || d == ':' then return (d, added, t)
          else if (ofLetter? d).isSome then readAdded fuel d added t
          else notFlag "-, : or )" (.plain d) t
        | some x => notFlag "-, : or )" x t

/-- Reads the rest of a flag group after its first character. -/
def read (c : Char) (s : Source) : Except PatternFault (Change × Source) := do
  let fuel := s.rest.length + 1
  let (mark, added, t) ← if c == '-' then pure ('-', none, s) else readAdded fuel c none s
  if mark == ')' then return (.whole added, t)
  else if added.template then Source.fault .globalFlagOn (t.pos - 1)
  else do
    let (removed, u) ←
      if mark == '-' then do
        let (symbol, u) ← t.get
        match symbol with
        | .none => Source.fault (.missing "flag") u.pos
        | some (.plain d) =>
          if (ofLetter? d).isSome then readRemoved fuel d none u else notFlag "flag" (.plain d) u
        | some x => notFlag "flag" x u
      else pure (none, t)
    if removed.template then Source.fault .globalFlagOff (u.pos - 1)
    else if added.meets removed then Source.fault .flagOnAndOff (u.pos - 1)
    else return (.inside added removed, u)

end Flags

end TableRules
