import DumpMode.LineMap

/-!
# Regions

A region is what a pair of braces encloses. A region whose closing brace is missing reaches to the
end of the text. The regions of a text come with the closing braces that close nothing. Regions
may also be made by hand or outlive the text they were found in; what then becomes impossible ends
in a breach.
-/

namespace DumpMode.Folding

/-- A stretch of a text from an opening brace to its partner. -/
structure Region where
  opening : Nat
  /-- The offset of the closing brace; none if the text ends before it. -/
  closing : Option Nat
  /-- The number of regions that it lies in. -/
  depth : Nat
deriving DecidableEq, Repr

structure LineRange where
  startLine : Nat
  /-- The line of the closing brace, if there is one. -/
  endLine : Option Nat
deriving DecidableEq, Repr

namespace Region

def isClosed (r : Region) : Bool := r.closing.isSome

/-- Whether an offset lies in the region, both braces included. -/
def contains (r : Region) (offset : Nat) : Bool :=
  r.opening ≤ offset && r.closing.all (offset ≤ ·)

/-- The region as a span, its closing brace included; without one it reaches to `bufferLength`. -/
def span? (r : Region) (bufferLength : Nat) : Except Breach Span := do
  let stop ← match r.closing with
    | some closing => nextOffset? closing
    | none => .ok bufferLength
  Span.ofOffsets? r.opening (max stop r.opening)

/-- The text between the braces. A start behind the end of the text counts as its end, and an end
before the start as the start. -/
def innerText? (r : Region) (text : Text) : Except Breach Text := do
  let start := min (← nextOffset? r.opening) text.byteLength
  let stop := max (r.closing.getD text.byteLength) start
  match Text.slice? text start stop with
  | some inner => .ok inner
  | none => .error .badSlice

def lineRange (r : Region) (map : LineMap) : LineRange :=
  ⟨map.lineOf r.opening, r.closing.map map.lineOf⟩

/-- Whether the region covers more than one line; without a closing brace it reaches to the last
line. -/
def isFoldable (r : Region) (map : LineMap) : Bool :=
  let range := r.lineRange map
  range.startLine < range.endLine.getD (map.lineCount % lineBound)

def pair (r : Region) : Nat × Option Nat := (r.opening, r.closing)

theorem contains_iff {r : Region} {offset : Nat} :
    r.contains offset = true ↔ r.opening ≤ offset ∧ ∀ c, r.closing = some c → offset ≤ c := by
  cases h : r.closing <;> simp [contains, h]

end Region

/-- The regions of a text in the order of their opening braces, and the closing braces that close
nothing. -/
structure Folds where
  regions : List Region
  unbalanced : List Nat
deriving DecidableEq, Repr

namespace Folds

def isBalanced (f : Folds) : Bool := f.unbalanced.isEmpty && f.regions.all Region.isClosed

def closedRegions (f : Folds) : List Region := f.regions.filter Region.isClosed

def openRegions (f : Folds) : List Region := f.regions.filter (!·.isClosed)

def maxDepth? (f : Folds) : Option Nat := (f.regions.map (·.depth)).max?

/-- The last region that an offset lies in. In document order that is the innermost one. -/
def regionAt? (f : Folds) (offset : Nat) : Option Region :=
  f.regions.reverse.find? (·.contains offset)

def pairs (f : Folds) : List (Nat × Option Nat) := f.regions.map Region.pair

end Folds

end DumpMode.Folding
