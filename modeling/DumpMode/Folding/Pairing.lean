import DumpMode.Folding.Brace
import DumpMode.Folding.Region

/-!
# Pairing braces

The braces of a text are paired from right to left: an opening brace takes the nearest closing
brace to its right that no other brace has taken, and what is left over at the start of the text
closes nothing. That yields the regions in the order of their opening braces, so no region is ever
looked up or changed once it has been made.
-/

namespace DumpMode.Folding

/-- Adds a brace on the left of a text whose braces are paired already. -/
def Folds.add (f : Folds) (b : Brace) : Folds :=
  if b.opens then
    match f.unbalanced with
    | [] => { f with regions := ⟨b.offset, none, b.depth⟩ :: f.regions }
    | c :: waiting => ⟨⟨b.offset, some c, b.depth⟩ :: f.regions, waiting⟩
  else { f with unbalanced := b.offset :: f.unbalanced }

def Folds.ofBraces (bs : List Brace) : Folds := bs.foldr (fun b f ↦ f.add b) ⟨[], []⟩

/-- The regions of a text; with `skipQuoted`, braces in quoted strings do not count. -/
def Folds.ofText (skipQuoted : Bool) (text : Text) : Folds := .ofBraces (braces skipQuoted text)

@[simp] theorem Folds.ofBraces_nil : Folds.ofBraces [] = ⟨[], []⟩ := rfl

@[simp] theorem Folds.ofBraces_cons (b : Brace) (bs : List Brace) :
    Folds.ofBraces (b :: bs) = (Folds.ofBraces bs).add b := rfl

end DumpMode.Folding
