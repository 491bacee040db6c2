import DumpMode.Folding.Scanner

/-!
# Folding with a stack

The regions of a text can be found in one pass from left to right, and the warnings about them
reported on the way. The regions found so far stand in a list in the order of their opening braces,
and the places in that list of those that have no closing brace yet wait on a stack. A closing brace
goes to the region whose place is on top, which gets its end where it stands. What is left on the
stack when the text ends belongs to regions without an end.

This is a second way to do what `FoldPreferences.fold` does, with the same result and the same
report (`foldByStack_eq_fold`).
-/

namespace DumpMode.Folding

/-- How far a pass has come. -/
structure Pass where
  quoting : Quoting
  offset : Nat
  /-- The regions found so far, in the order of their opening braces. -/
  regions : List Region
  /-- The places of those without a closing brace in `regions`, the innermost first. -/
  waiting : List Nat
  unbalanced : List Nat
deriving DecidableEq, Repr

namespace Pass

def start : Pass := ⟨.outside, 0, [], [], []⟩

/-- Passes an opening brace: a region begins, as deep as the stack is high. -/
def passOpening (s : Pass) : Pass :=
  { s with
    regions := s.regions ++ [⟨s.offset, none, s.waiting.length⟩]
    waiting := s.regions.length :: s.waiting }

/-- Passes a closing brace: the region on top of the stack ends, or nothing does, which is warned
about on request. -/
def passClosing (warns : Bool) (s : Pass) : Logged Pass :=
  match s.waiting with
  | place :: waiting =>
    return { s with
      regions := s.regions.modify place fun r ↦ { r with closing := some s.offset }
      waiting }
  | [] => do
    Logged.reportIf warns (unbalancedEvent s.offset)
    return { s with unbalanced := s.unbalanced ++ [s.offset] }

/-- Passes a character that is not in a quoted string. -/
def look (warns : Bool) (s : Pass) (c : Char) : Logged Pass :=
  if c = '\x7b' then return s.passOpening
  else if c = '\x7d' then s.passClosing warns
  else return s

def advance (skipQuoted : Bool) (s : Pass) (c : Char) : Pass :=
  { s with
    quoting := if skipQuoted then s.quoting.after c else s.quoting
    offset := s.offset + c.utf8Size }

/-- Passes a character; on request, what is in quoted strings is not looked at. -/
def step (p : FoldPreferences) (s : Pass) (c : Char) : Logged Pass := do
  let seen ←
    if p.skipQuotedStrings && s.quoting.covers c then pure s else s.look p.logUnbalanced c
  return seen.advance p.skipQuotedStrings c

/-- The warning about what is left on the stack, if anything is. The region at its bottom is the
first. -/
def unterminated? (s : Pass) : Option Journal.Event :=
  (s.waiting.getLast?.bind (s.regions[·]?)).map fun r ↦
    unterminatedEvent s.waiting.length r.opening

def finish (p : FoldPreferences) (s : Pass) : Logged Folds := do
  if p.logUnbalanced then
    if let some warning := s.unterminated? then Logged.report warning
  Logged.report (countsEvent s.regions.length s.waiting.length s.unbalanced.length)
  return ⟨s.regions, s.unbalanced⟩

end Pass

end DumpMode.Folding

namespace DumpMode.FoldPreferences

open Folding

/-- The regions of a text, found and reported on in one pass. -/
def foldByStack (p : FoldPreferences) (text : Text) : Logged Folds := do
  (← text.foldlM (Pass.step p) .start).finish p

end DumpMode.FoldPreferences
