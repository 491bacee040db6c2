import DumpMode.Words.Matcher

/-!
# The longest word at a place

A matcher tries its words in the order of `Matcher.precedes`, so the first one that fits is the
longest one that fits. Two words that fit at one place are prefixes of one another, which turns
"longest" into "every other word that fits is a prefix of it"; that is the form in which a search
is used, because a shorter word inside a glued longer one is then glued as well.

No two words are equal in that order, so a matcher depends on its words alone and not on the order
in which they are given (`ofWords_congr`).
-/

namespace DumpMode.Words

namespace Matcher

/-! ## The order of trial -/

private theorem precedes_iff {a b : Text} :
    precedes a b = true ↔
      b.byteLength < a.byteLength ∨ a.byteLength = b.byteLength ∧ ¬b < a := by
  simp [precedes]

private theorem precedes_trans {a b c : Text} (hab : precedes a b = true)
    (hbc : precedes b c = true) : precedes a c = true := by
  rw [precedes_iff] at hab hbc ⊢
  rcases hab with hab | ⟨hab, hle⟩
  · left
    rcases hbc with hbc | ⟨hbc, -⟩ <;> omega
  · rcases hbc with hbc | ⟨hbc, hle'⟩
    · left
      omega
    · exact Or.inr ⟨hab.trans hbc, List.le_trans hle hle'⟩

private theorem precedes_total (a b : Text) : (precedes a b || precedes b a) = true := by
  rw [Bool.or_eq_true, precedes_iff, precedes_iff]
  rcases Nat.lt_trichotomy a.byteLength b.byteLength with h | h | h
  · exact Or.inr (Or.inl h)
  · rcases List.le_total a b with hle | hle
    · exact Or.inl (Or.inr ⟨h, hle⟩)
    · exact Or.inr (Or.inr ⟨h.symm, hle⟩)
  · exact Or.inl (Or.inl h)

private theorem precedes_antisymm {a b : Text} (hab : precedes a b = true)
    (hba : precedes b a = true) : a = b := by
  rw [precedes_iff] at hab hba
  rcases hab with hab | ⟨hlength, hle⟩
  · rcases hba with hba | ⟨hlength, -⟩ <;> omega
  · rcases hba with hba | ⟨-, hle'⟩
    · omega
    · exact List.le_antisymm hle hle'

private theorem pairwise_words_ofWords (words : List Text) :
    (ofWords words).words.Pairwise fun a b ↦ precedes a b = true :=
  @List.pairwise_mergeSort _ precedes (fun _ _ _ ↦ precedes_trans) precedes_total _

@[simp] theorem mem_words_ofWords {words : List Text} {w : Text} :
    w ∈ (ofWords words).words ↔ w ∈ words ∧ w ≠ [] := by
  simp [ofWords, List.mem_mergeSort]

/-- The order of trial is that of the words alone, in whatever order they are given. -/
theorem ofWords_congr {words words' : List Text} (h : words.Perm words') :
    ofWords words = ofWords words' := by
  have hsame : (ofWords words).words = (ofWords words').words := by
    refine List.Perm.eq_of_pairwise (fun _ _ _ _ ↦ precedes_antisymm)
      (pairwise_words_ofWords words) (pairwise_words_ofWords words') ?_
    refine (List.mergeSort_perm _ _).trans ?_
    exact (h.filter _).trans (List.mergeSort_perm _ _).symm
  rcases hwords : ofWords words with ⟨ws, hne⟩
  rcases hwords' : ofWords words' with ⟨ws', hne'⟩
  rw [hwords, hwords'] at hsame
  cases hsame
  rfl

/-! ## What fits at a place -/

theorem wordAt?_eq_none_iff {m : Matcher} {rest : Text} :
    m.wordAt? rest = none ↔ ∀ w ∈ m.words, ¬w <+: rest := by
  simp [wordAt?]

/-- **The first word that fits is the longest**: all others that fit are prefixes of it. -/
theorem prefix_of_wordAt?_ofWords {words : List Text} {rest w v : Text}
    (h : (ofWords words).wordAt? rest = some w) (hv : v ∈ words) (hfit : v <+: rest) : v <+: w := by
  by_cases hnil : v = []
  · exact hnil ▸ List.nil_prefix
  obtain ⟨-, front, back, hsplit, hfront⟩ := List.find?_eq_some_iff_append.mp h
  have hmem : v ∈ front ++ w :: back := hsplit ▸ mem_words_ofWords.mpr ⟨hv, hnil⟩
  have hsorted := pairwise_words_ofWords words
  rw [hsplit, List.pairwise_append, List.pairwise_cons] at hsorted
  rcases List.mem_append.mp hmem with hmem | hmem
  · -- a word before `w` in the order does not fit
    have hnot := hfront v hmem
    rw [List.isPrefixOf_iff_prefix.mpr hfit] at hnot
    exact absurd hnot (by decide)
  rcases List.mem_cons.mp hmem with rfl | hmem
  · exact List.prefix_rfl
  have hle : v.byteLength ≤ w.byteLength := by
    rcases precedes_iff.mp (hsorted.2.1.1 v hmem) with hlt | ⟨heq, -⟩ <;> omega
  rcases List.prefix_or_prefix_of_prefix hfit (prefix_of_wordAt? h) with hvw | ⟨tail, rfl⟩
  · exact hvw
  · -- the other way round `w` would be as long as `v`, with nothing left over
    rw [Text.byteLength_append] at hle
    obtain rfl : tail = [] := Text.byteLength_eq_zero_iff.mp (by omega)
    simp

end Matcher

end DumpMode.Words
