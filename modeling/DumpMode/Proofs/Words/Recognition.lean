import DumpMode.Proofs.Words.Matches
import Mathlib.Data.List.TakeWhile

/-!
# Recognised words

A word is looked up in the table, in the lexicon of a classifier and among the keywords, and it is
searched for in a text that it may only be a part of. All of these recognise the same words. What
the look-ups have in common are the rows of the table: no two of them are for one word, and the
keywords have rows of a class of their own. A search finds a word between characters that belong to
no word because the word fills a run there; and since a match takes its place in a text by its two
offsets, nothing else can be found in the place of a word.
-/

namespace DumpMode

/-! ## Looking a word up -/

namespace Vocabulary

private theorem entry?_eq_some_iff {word : Text} {e : Entry} :
    entry? word = some e ↔ e ∈ table ∧ e.word = word :=
  find?_eq_some_iff duplicates_table

def keywordEntry (k : Keyword) : Entry := ⟨k.spelling.toList, .keyword, none⟩

private theorem mem_table_keyword_iff {e : Entry} :
    e ∈ table ∧ e.wordClass = .keyword ↔ ∃ k, e = keywordEntry k := by
  constructor
  · rintro ⟨he, hclass⟩
    simp only [table, ungrouped, grouped, List.mem_append, List.mem_map, List.mem_flatMap] at he
    -- the rows of every other role are of another class
    rcases he with (((he | he) | he) | he) | he
    · obtain ⟨_, -, rfl⟩ := he
      cases hclass
    · obtain ⟨_, ⟨k, -, rfl⟩, rfl⟩ := he
      exact ⟨k, rfl⟩
    · obtain ⟨_, -, _, -, rfl⟩ := he
      cases hclass
    · obtain ⟨_, -, rfl⟩ := he
      cases hclass
    · obtain ⟨_, -, rfl⟩ := he
      cases hclass
  · rintro ⟨k, rfl⟩
    refine ⟨?_, rfl⟩
    simp only [table, ungrouped, List.mem_append, List.mem_map]
    exact .inl (.inl (.inl (.inr ⟨_, ⟨k, k.mem_all, rfl⟩, rfl⟩)))

end Vocabulary

private theorem Keyword.ofSpelling?_eq_some_iff {word : Text} {k : Keyword} :
    ofSpelling? (String.ofList word) = some k ↔
      Vocabulary.entry? word = some (Vocabulary.keywordEntry k) := by
  have hrow := (Vocabulary.mem_table_keyword_iff.mpr ⟨k, rfl⟩).1
  rw [Vocabulary.entry?_eq_some_iff, and_iff_right hrow]
  constructor
  · intro h
    rw [Vocabulary.keywordEntry, spelling_of_ofSpelling? h, String.toList_ofList]
  · rintro rfl
    rw [Vocabulary.keywordEntry, String.ofList_toList]
    exact ofSpelling?_spelling k

namespace Words

/-! ## Searching for a word -/

private theorem runs_eq_singleton {word : Text} (hne : word ≠ [])
    (hword : ∀ c ∈ word, isWordChar c = true) : runs word = [⟨0, word⟩] := by
  obtain ⟨c, rest, rfl⟩ := List.exists_cons_of_ne_nil hne
  have hrest : ∀ d ∈ rest, isWordChar d = true := fun d hd ↦ hword d (List.mem_cons_of_mem _ hd)
  rw [runs, runsFrom_cons_of_pos (hword c List.mem_cons_self),
    List.takeWhile_eq_self_iff.mpr hrest, List.dropWhile_eq_nil_iff.mpr hrest, runsFrom_nil]

variable {word : Text}

private theorem filterMap_runs_of_entry? {e : Vocabulary.Entry}
    (h : Vocabulary.entry? word = some e) :
    (runs word).filterMap Lexicon.standard.matchOf?
      = [⟨word, 0, word.byteLength, e.wordClass, e.group⟩] := by
  obtain ⟨he, hword⟩ := Vocabulary.entry?_eq_some_iff.mp h
  have hruns : runs word = [⟨0, word⟩] := by
    subst hword
    exact runs_eq_singleton (Vocabulary.word_ne_nil_of_mem_table he)
      fun c hc ↦ Vocabulary.isWordChar_of_mem_table he hc
  have hmatch : Lexicon.standard.matchOf? ⟨0, word⟩
      = some ((⟨0, word⟩ : Run).classify e) := congrArg (Option.map _) h
  rw [hruns, List.filterMap_cons, hmatch, List.filterMap_nil, Run.classify, Nat.zero_add]

/-- **A word between characters that belong to no word** is found there if it has a row, and nothing
is found in its place if it has none. -/
theorem exists_mem_filterMap_runs_iff {front back : Text}
    (hfront : front.getLast?.any isWordChar = false) (hback : back.head?.any isWordChar = false) :
    (∃ m ∈ (runs (front ++ (word ++ back))).filterMap Lexicon.standard.matchOf?,
      m.start = front.byteLength ∧ m.stop = front.byteLength + word.byteLength) ↔
        (Vocabulary.entry? word).isSome = true := by
  rw [Option.isSome_iff_exists]
  constructor
  · rintro ⟨m, hm, hstart, hstop⟩
    obtain ⟨e, he, front', back', htext, -, -, rfl⟩ := mem_filterMap_runs_iff.mp hm
    have hword : (front ++ (word ++ back)).slice? front.byteLength
        (front.byteLength + word.byteLength) = some word :=
      Text.slice?_eq_some_iff.mpr ⟨front, back, rfl, rfl, rfl⟩
    have hentry : (front ++ (word ++ back)).slice? front.byteLength
        (front.byteLength + word.byteLength) = some e.word :=
      Text.slice?_eq_some_iff.mpr ⟨front', back', htext, hstart, hstart ▸ hstop⟩
    exact ⟨e, Vocabulary.entry?_eq_some_iff.mpr
      ⟨he, Option.some.inj (hentry.symm.trans hword)⟩⟩
  · rintro ⟨e, h⟩
    obtain ⟨he, rfl⟩ := Vocabulary.entry?_eq_some_iff.mp h
    exact ⟨_, mem_filterMap_runs_iff.mpr ⟨e, he, front, back, rfl, hfront, hback, rfl⟩, rfl, rfl⟩

/-! ## All ways to recognise a word -/

/-- What a classifier, the table and the keywords have in common about a word. -/
structure Classifier.Recognises (c : Classifier) (word : Text) : Prop where
  /-- The row that is looked up is the only one of the word. -/
  entry?_eq_some_iff : ∀ e,
    Vocabulary.entry? word = some e ↔ e ∈ Vocabulary.table ∧ e.word = word
  classOf?_eq : c.classOf? word = (Vocabulary.entry? word).map (·.wordClass)
  /-- The word is that of a keyword exactly if it has a row of that class. -/
  exists_keyword_iff : (∃ k, Keyword.ofSpelling? (String.ofList word) = some k) ↔
    ∃ e, Vocabulary.entry? word = some e ∧ e.wordClass = .keyword
  spelling_eq : ∀ k, Keyword.ofSpelling? (String.ofList word) = some k →
    k.spelling = String.ofList word
  /-- A word that has a row is all that is found in the word alone, classified by the row. -/
  drain_eq : ∀ e, Vocabulary.entry? word = some e →
    (c.scan word).drain.1 = [⟨word, 0, word.byteLength, e.wordClass, e.group⟩]
  /-- Only such a word is found in the word alone as a whole. -/
  exists_mem_drain_iff : (∃ m ∈ (c.scan word).drain.1, m.start = 0 ∧ m.stop = word.byteLength) ↔
    (Vocabulary.entry? word).isSome = true
  /-- Only such a word is found as a whole between characters that belong to no word. -/
  exists_mem_drain_between_iff : ∀ front back : Text, front.getLast?.any isWordChar = false →
    back.head?.any isWordChar = false →
      ((∃ m ∈ (c.scan (front ++ (word ++ back))).drain.1,
        m.start = front.byteLength ∧ m.stop = front.byteLength + word.byteLength) ↔
          (Vocabulary.entry? word).isSome = true)

/-- **All ways to recognise a word agree**, whatever the choices of the user are and whatever the
word is. -/
theorem Classifier.recognises_standard (p : WordPreferences) :
    ∃ c : Classifier, (Classifier.standard p).value = .ok c ∧ ∀ word : Text, c.Recognises word := by
  refine ⟨⟨.standard, p⟩, value_standard p, fun word ↦ ?_⟩
  constructor
  case entry?_eq_some_iff => exact fun _ ↦ Vocabulary.entry?_eq_some_iff
  case classOf?_eq => rfl
  case exists_keyword_iff =>
    constructor
    · rintro ⟨k, hk⟩
      exact ⟨_, Keyword.ofSpelling?_eq_some_iff.mp hk, rfl⟩
    · rintro ⟨e, he, hclass⟩
      obtain ⟨k, rfl⟩ := Vocabulary.mem_table_keyword_iff.mp
        ⟨(Vocabulary.entry?_eq_some_iff.mp he).1, hclass⟩
      exact ⟨k, Keyword.ofSpelling?_eq_some_iff.mpr he⟩
  case spelling_eq => exact fun k hk ↦ Keyword.spelling_of_ofSpelling? hk
  case drain_eq =>
    intro e he
    rw [drain_scan]
    exact filterMap_runs_of_entry? he
  case exists_mem_drain_iff =>
    have halone : (∃ m ∈ (runs ([] ++ (word ++ []))).filterMap Lexicon.standard.matchOf?,
        m.start = Text.byteLength [] ∧ m.stop = Text.byteLength [] + word.byteLength) ↔
          (Vocabulary.entry? word).isSome = true := exists_mem_filterMap_runs_iff rfl rfl
    rw [List.nil_append, List.append_nil, Text.byteLength_nil, Nat.zero_add] at halone
    rw [drain_scan]
    exact halone
  case exists_mem_drain_between_iff =>
    intro front back hfront hback
    rw [drain_scan]
    exact exists_mem_filterMap_runs_iff hfront hback

end Words

end DumpMode
