import DumpMode.Breach
import DumpMode.Editor.Snapshot
import DumpMode.Json.Tree

/-!
# How snapshots are spelled

Which JSON values stand for a tag, a region and a snapshot. A record is an object with its fields in
any order, each of them once; what other members it has does not matter, as long as the escapes in
their names stand for characters (`Named`). The closing brace of a region that has none is null or
left out. Instead of an object there may be an array of the fields in their order.

Some slips are told apart from the rest: a field that is missing or there twice, and a number that
is no offset where one belongs. A snapshot is flawed if its object has such a slip, or a tag, a
region or an offset in its lists.
-/

namespace DumpMode.Document

open Editor (Snapshot)
open Json (Has Member Named Numeral SpellsList SpellsName SpellsNatural SpellsOptional Tree
  valuesOf)

/-! ## Spellings -/

/-- The tree spells an offset, a size or a depth. -/
def SpellsOffset (t : Tree) (n : Nat) : Prop := SpellsNatural offsetBound t n

def SpellsClass (t : Tree) (c : WordClass) : Prop := SpellsName t c.name.toList

def SpellsTag (t : Tree) (tag : Tag) : Prop :=
  match t with
  | .object _ members =>
    Named members ∧ Has members "start" SpellsOffset tag.start ∧
      Has members "end" SpellsOffset tag.stop ∧ Has members "class" SpellsClass tag.wordClass
  | .array _ [start, stop, wordClass] =>
    SpellsOffset start.value tag.start ∧ SpellsOffset stop.value tag.stop ∧
      SpellsClass wordClass.value tag.wordClass
  | _ => False

def SpellsRegion (t : Tree) (region : Folding.Region) : Prop :=
  match t with
  | .object _ members =>
    Named members ∧ Has members "open" SpellsOffset region.opening ∧
      (valuesOf members "close" = [] ∧ region.closing = none ∨
        Has members "close" (SpellsOptional SpellsOffset) region.closing) ∧
      Has members "depth" SpellsOffset region.depth
  | .array _ [opening, closing, depth] =>
    SpellsOffset opening.value region.opening ∧
      SpellsOptional SpellsOffset closing.value region.closing ∧
      SpellsOffset depth.value region.depth
  | _ => False

def SpellsSnapshot (t : Tree) (s : Snapshot) : Prop :=
  match t with
  | .object _ members =>
    Named members ∧ Has members "tags" (SpellsList SpellsTag) s.tags ∧
      Has members "folds" (SpellsList SpellsRegion) s.folds ∧
      Has members "unbalanced" (SpellsList SpellsOffset) s.unbalanced
  | .array _ [tags, folds, unbalanced] =>
    SpellsList SpellsTag tags.value s.tags ∧ SpellsList SpellsRegion folds.value s.folds ∧
      SpellsList SpellsOffset unbalanced.value s.unbalanced
  | _ => False

/-! ## Flaws -/

/-- A number that is no offset: it is negative, has a point or a power of ten, or is too large. -/
def FlawedOffset (t : Tree) : Prop :=
  ∃ n : Numeral, t = .number n ∧
    (n.negative = true ∨ n.fraction ≠ none ∨ n.power ≠ none ∨ offsetBound ≤ n.whole)

/-- An object that lacks a required field, has a field twice, or has a number in a field for offsets
that is none. -/
def FlawedRecord (required optional offsets : List String) (t : Tree) : Prop :=
  ∃ gap members, t = .object gap members ∧
    ((∃ name ∈ required, valuesOf members name = []) ∨
      (∃ name ∈ required ++ optional, 1 < (valuesOf members name).length) ∨
      ∃ name ∈ offsets, ∃ v ∈ valuesOf members name, FlawedOffset v)

def FlawedTag (t : Tree) : Prop := FlawedRecord ["start", "end", "class"] [] ["start", "end"] t

/-- A flawed region; its closing brace need not be there. -/
def FlawedRegion (t : Tree) : Prop :=
  FlawedRecord ["open", "depth"] ["close"] ["open", "close", "depth"] t

/-- An object with a list in some field one of whose items is flawed. -/
def HasFlawed (name : String) (flawed : Tree → Prop) (t : Tree) : Prop :=
  ∃ gap members gap' items, t = .object gap members ∧ .array gap' items ∈ valuesOf members name ∧
    ∃ item ∈ items, flawed item.value

/-- A snapshot that is flawed itself, or has a flawed tag, region or offset. -/
def FlawedSnapshot (t : Tree) : Prop :=
  FlawedRecord ["tags", "folds", "unbalanced"] [] [] t ∨ HasFlawed "tags" FlawedTag t ∨
    HasFlawed "folds" FlawedRegion t ∨ HasFlawed "unbalanced" FlawedOffset t

end DumpMode.Document
