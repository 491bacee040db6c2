import DumpMode.Words.Scan

/-!
# Where a search gets to

A search moves on in its text: `Place.Reaches` relates two places of one text by the characters
that are passed between them. Every place that a search looks at or leaves off at is reached from
the one where it began, so it lies between two characters of the text, and offsets never decrease.
-/

namespace DumpMode.Words

/-! ## Places further on -/

/-- Whether the second place comes behind the first in a text, or is the same; what lies between
them is the text that is passed on the way. -/
def Place.Reaches (p q : Place) : Prop :=
  ∃ passed : Text, p.rest = passed ++ q.rest ∧ q.offset = p.offset + passed.byteLength ∧
    q.before = passed.getLast?.or p.before

namespace Place

variable {p q r : Place}

theorem reaches_refl (p : Place) : p.Reaches p := ⟨[], rfl, rfl, rfl⟩

theorem Reaches.trans (hpq : p.Reaches q) (hqr : q.Reaches r) : p.Reaches r := by
  obtain ⟨front, hfront, hoffset, hbefore⟩ := hpq
  obtain ⟨back, hback, hoffset', hbefore'⟩ := hqr
  refine ⟨front ++ back, ?_, ?_, ?_⟩
  · rw [hfront, hback, List.append_assoc]
  · rw [hoffset', hoffset, Text.byteLength_append, Nat.add_assoc]
  · rw [hbefore', hbefore, List.getLast?_append, Option.or_assoc]

theorem Reaches.offset_le (h : p.Reaches q) : p.offset ≤ q.offset := by
  obtain ⟨passed, -, hoffset, -⟩ := h
  omega

theorem Reaches.isBoundary {text : Text} (h : (start text).Reaches p) :
    Text.isBoundary p.offset text = true := by
  obtain ⟨passed, hrest, hoffset, -⟩ := h
  exact Text.isBoundary_iff.mpr ⟨passed, p.rest, hrest, hoffset.trans (Nat.zero_add _) |>.symm⟩

theorem Reaches.offset_le_byteLength {text : Text} (h : (start text).Reaches p) :
    p.offset ≤ text.byteLength := by
  obtain ⟨front, back, rfl, hfront⟩ := Text.isBoundary_iff.mp h.isBoundary
  rw [Text.byteLength_append]
  omega

theorem reaches_next (p : Place) : p.Reaches p.next := by
  obtain ⟨before, offset, rest⟩ := p
  cases rest with
  | nil => exact reaches_refl _
  | cons c rest => exact ⟨[c], rfl, rfl, rfl⟩

theorem reaches_behind {word : Text} (h : word <+: p.rest) : p.Reaches (p.behind word) := by
  obtain ⟨back, hback⟩ := h
  refine ⟨word, ?_, rfl, rfl⟩
  rw [behind, ← hback, List.drop_left]

private theorem reaches_of_search?_eq_some {m : Matcher} {before : Option Char} {offset : Nat}
    {rest : Text} {c : Candidate} (h : m.search? before offset rest = some c) :
    Reaches ⟨before, offset, rest⟩ c.place := by
  induction rest generalizing before offset with
  | nil => cases h
  | cons d rest ih =>
    rw [Matcher.search?] at h
    split at h
    · cases h
      exact reaches_refl _
    · exact (reaches_next ⟨before, offset, d :: rest⟩).trans (ih h)

theorem reaches_of_search? {m : Matcher} {c : Candidate} (h : p.search? m = some c) :
    p.Reaches c.place := reaches_of_search?_eq_some h

end Place

/-! ## What a search does -/

namespace Lexicon

variable {l : Lexicon} {p : Place}

private theorem next_of_search?_eq_none (h : p.search? l.matcher = none) :
    l.next p = (none, p) := by
  rw [next]
  split
  · rfl
  · rename_i c hc
    cases h.symm.trans hc

/-- How a search from a place ends: with nothing, at a place from which nothing is found any more,
or with a match, at the place behind it. -/
inductive Ends (l : Lexicon) (p : Place) : Option Match × Place → Prop where
  | exhausted {q : Place} (hreach : p.Reaches q) (hnext : l.next q = (none, q)) :
    Ends l p (none, q)
  | found {m : Match} {q : Place} (hreach : p.Reaches q) (hstart : p.offset ≤ m.start)
    (hstop : m.stop = q.offset) : Ends l p (some m, q)

private theorem Ends.of_reaches {q : Place} {x : Option Match × Place} (hpq : p.Reaches q)
    (h : Ends l q x) : Ends l p x := by
  cases h with
  | exhausted hreach hnext => exact .exhausted (hpq.trans hreach) hnext
  | found hreach hstart hstop =>
    exact .found (hpq.trans hreach) (Nat.le_trans hpq.offset_le hstart) hstop

theorem ends_next (l : Lexicon) (p : Place) : Ends l p (l.next p) := by
  fun_induction next l p with
  | case1 p hc => exact .exhausted p.reaches_refl (next_of_search?_eq_none hc)
  | case2 p c hc _ e _ =>
    have hplace := Place.reaches_of_search? hc
    have hbehind := Place.reaches_behind (Place.search?_sound hc).2.1
    exact .found (hplace.trans hbehind) hplace.offset_le rfl
  | case3 p c hc _ _ ih =>
    have hbehind := Place.reaches_behind (Place.search?_sound hc).2.1
    exact ih.of_reaches ((Place.reaches_of_search? hc).trans hbehind)
  | case4 p c hc _ ih =>
    exact ih.of_reaches ((Place.reaches_of_search? hc).trans (Place.reaches_next c.place))

end Lexicon

end DumpMode.Words
