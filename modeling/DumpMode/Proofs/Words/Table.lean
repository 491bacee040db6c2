import DumpMode.Vocabulary.Table
import DumpMode.Words.Scan
import Mathlib.Data.List.Nodup

/-!
# The words of the table

What a search relies on about the table of words: every word is made of ASCII letters, digits and
underscores, so it can fill a run of word characters, and no word is listed twice, so looking a
word up and walking through the rows is the same.
-/

namespace DumpMode

private theorem Text.isAlphanumeric_of_ascii {c : Char}
    (h : inRanges [(48, 57), (65, 90), (97, 122)] c = true) : isAlphanumeric c = true := by
  rw [inRanges_iff] at h
  rw [isAlphanumeric, inRanges_iff]
  obtain ⟨r, hr, hc⟩ := h
  refine ⟨r, ?_, hc⟩
  -- these are the first three of all the ranges
  exact List.mem_append_left (alphanumericRanges.drop 3) hr

private theorem Text.utf8Size_of_ascii {c : Char}
    (h : inRanges [(48, 57), (65, 90), (97, 122)] c = true) : c.utf8Size = 1 := by
  rw [inRanges_iff] at h
  obtain ⟨r, hr, -, hc⟩ := h
  have hle : ∀ r ∈ [(48, 57), (65, 90), (97, 122)], r.2 ≤ 127 := by decide
  exact Char.utf8Size_eq_one_iff.mpr (UInt32.le_iff_toNat_le.mpr (Nat.le_trans hc (hle r hr)))

namespace Vocabulary

variable {rows : List Entry}

theorem of_find?_eq_some {word : Text} {e : Entry} (h : find? rows word = some e) :
    e ∈ rows ∧ e.word = word :=
  ⟨List.mem_of_find?_eq_some h, by simpa using List.find?_some h⟩

theorem exists_find?_word {e : Entry} (h : e ∈ rows) : ∃ e', find? rows e.word = some e' := by
  rw [← Option.isSome_iff_exists, find?, List.find?_isSome]
  exact ⟨e, h, beq_self_eq_true _⟩

/-! ## Tables without repetitions -/

private theorem duplicatesAfter_eq_nil_iff {seen : List Text} :
    duplicatesAfter seen rows = [] ↔
      (rows.map (·.word)).Nodup ∧ ∀ e ∈ rows, e.word ∉ seen := by
  induction rows generalizing seen with
  | nil => simp [duplicatesAfter]
  | cons e rows ih =>
    rw [duplicatesAfter]
    by_cases he : e.word ∈ seen
    · simp [he]
    · rw [if_neg he, ih]
      simp only [List.map_cons, List.nodup_cons, List.mem_map, List.mem_cons, not_or,
        forall_eq_or_imp, not_exists, not_and]
      constructor
      · rintro ⟨hnodup, hseen⟩
        exact ⟨⟨fun e' he' ↦ (hseen e' he').1, hnodup⟩, he, fun e' he' ↦ (hseen e' he').2⟩
      · rintro ⟨⟨hfirst, hnodup⟩, -, hseen⟩
        exact ⟨hnodup, fun e' he' ↦ ⟨hfirst e' he', hseen e' he'⟩⟩

theorem duplicates_eq_nil_iff : duplicates rows = [] ↔ (rows.map (·.word)).Nodup := by
  simp [duplicates, duplicatesAfter_eq_nil_iff]

/-- In a table without repetitions each word has one row, and it is the one that is found. -/
theorem find?_eq_some_iff (h : duplicates rows = []) {word : Text} {e : Entry} :
    find? rows word = some e ↔ e ∈ rows ∧ e.word = word := by
  refine ⟨of_find?_eq_some, ?_⟩
  rintro ⟨he, rfl⟩
  obtain ⟨e', he'⟩ := exists_find?_word he
  obtain ⟨hmem, hword⟩ := of_find?_eq_some he'
  rw [he', List.inj_on_of_nodup_map (duplicates_eq_nil_iff.mp h) hmem he hword]

/-! ## The table of the words of a dump -/

theorem duplicates_table : duplicates table = [] := by decide +kernel

private theorem ascii_table :
    table.all (fun e ↦ !e.word.isEmpty && e.word.all fun c ↦
      Text.inRanges [(48, 57), (65, 90), (97, 122)] c || c == '_') = true := by decide +kernel

theorem word_ne_nil_of_mem_table {e : Entry} (h : e ∈ table) : e.word ≠ [] := by
  have he := List.all_eq_true.mp ascii_table e h
  rw [Bool.and_eq_true, Bool.not_eq_true', List.isEmpty_eq_false_iff] at he
  exact he.1

private theorem ascii_of_mem_word {e : Entry} (h : e ∈ table) {c : Char} (hc : c ∈ e.word) :
    Text.inRanges [(48, 57), (65, 90), (97, 122)] c = true ∨ c = '_' := by
  have he := List.all_eq_true.mp ascii_table e h
  rw [Bool.and_eq_true, List.all_eq_true] at he
  exact (Bool.or_eq_true_iff.mp (he.2 c hc)).imp_right beq_iff_eq.mp

theorem isWordChar_of_mem_table {e : Entry} (h : e ∈ table) {c : Char} (hc : c ∈ e.word) :
    Words.isWordChar c = true := by
  rw [Words.isWordChar, Bool.or_eq_true_iff, beq_iff_eq]
  exact (ascii_of_mem_word h hc).imp_left Text.isAlphanumeric_of_ascii

theorem not_mem_of_mem_table {e : Entry} (h : e ∈ table) {c : Char}
    (hc : Words.isWordChar c = false) : c ∉ e.word := by
  intro hmem
  exact Bool.false_ne_true (hc.symm.trans (isWordChar_of_mem_table h hmem))

theorem utf8Size_of_mem_table {e : Entry} (h : e ∈ table) {c : Char} (hc : c ∈ e.word) :
    c.utf8Size = 1 := by
  obtain hascii | rfl := ascii_of_mem_word h hc
  · exact Text.utf8Size_of_ascii hascii
  · rfl

end Vocabulary

end DumpMode
