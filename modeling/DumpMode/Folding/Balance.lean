import DumpMode.Folding.Brace

/-!
# Balanced braces

Braces are balanced if they can be built up from nothing by putting a balanced sequence in a pair
of braces, and another one behind the pair. Only which way each brace opens matters, so a sequence
is written as a list of truth values, true for an opening brace.
-/

namespace DumpMode.Folding

/-- A sequence in which every brace has its partner. -/
inductive Balanced : List Bool → Prop where
  | nil : Balanced []
  /-- A balanced sequence in a pair of braces, with another one behind it. -/
  | pair {inner behind : List Bool} (hi : Balanced inner) (hb : Balanced behind) :
    Balanced (true :: (inner ++ false :: behind))

/-- The ways in which the braces of a text open, in order. -/
def shape (skipQuoted : Bool) (text : Text) : List Bool :=
  (braces skipQuoted text).map (·.opens)

end DumpMode.Folding
