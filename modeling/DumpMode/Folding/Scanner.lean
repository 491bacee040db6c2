import DumpMode.Folding.Pairing
import DumpMode.Journal.Logged
import DumpMode.Preferences.Basic

/-!
# Folding a text

Folding a text by the choices of a user: these say whether quoted strings are skipped, and whether
braces without a partner are warned about. The report tells exactly the result.
-/

namespace DumpMode.Folding

def unbalancedEvent (offset : Nat) : Journal.Event :=
  ((Journal.Event.warning .unbalancedClose "Closing brace without matching open brace").spanning
    (.atOffsets offset (offset + 1))).having "offset" (toString offset)

/-- The warning about regions without an end, the first of which begins at `first`. -/
def unterminatedEvent (count first : Nat) : Journal.Event :=
  ((Journal.Event.warning .unterminatedRegion
    "Open braces left unterminated at end of buffer").having
      "count" (toString count)).having "first_offset" (toString first)

/-- The news that a text has been folded, with the numbers of its regions, of those without an end
and of the closing braces that close nothing. -/
def countsEvent (regions unterminated unbalanced : Nat) : Journal.Event :=
  (Journal.Event.success .folded "Fold regions computed").havingAll
    [("regions", toString regions), ("unterminated", toString unterminated),
     ("unbalanced", toString unbalanced)]

def foldedEvent (f : Folds) : Journal.Event :=
  countsEvent f.regions.length f.openRegions.length f.unbalanced.length

/-- The warnings about braces without a partner. -/
def warnings (f : Folds) : List Journal.Event :=
  f.unbalanced.map unbalancedEvent ++
    (f.openRegions.head?.map fun r ↦ unterminatedEvent f.openRegions.length r.opening).toList

end DumpMode.Folding

namespace DumpMode.FoldPreferences

open Folding

def fold (p : FoldPreferences) (text : Text) : Logged Folds :=
  let folds := Folds.ofText p.skipQuotedStrings text
  ⟨folds, (if p.logUnbalanced then warnings folds else []) ++ [foldedEvent folds]⟩

end DumpMode.FoldPreferences
