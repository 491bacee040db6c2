import DumpMode.Proofs.Words.Longest
import DumpMode.Proofs.Words.Places
import DumpMode.Proofs.Words.Table
import DumpMode.Words.Classifier
import DumpMode.Words.Offsets

/-!
# The first word behind an offset

A search by offsets tries every offset from the given one on, also those inside a character. No
word stands at these, so it finds what a search from place to place finds (`firstFrom?_offset`).

What a search has to find is said by `Occurrence.IsFirstLongest` without any order of trial: the
least offset at which one of the words stands, and the longest of the words that stand there. The
first in the order of `Matcher.precedes` is that word, and since the order is one of words alone,
the order in which a table lists them does not matter.
-/

namespace DumpMode

namespace Text

variable {front rest word : Text}

/-! ## Where a word stands -/

private theorem append_inj_of_byteLength {front' rest' : Text} (h : front ++ rest = front' ++ rest')
    (hlength : byteLength front = byteLength front') : front = front' ∧ rest = rest' := by
  have hcut : splitBytes? (byteLength front) (front ++ rest) = some (front, rest) :=
    splitBytes?_eq_some_iff.mpr ⟨rfl, rfl⟩
  rw [splitBytes?_eq_some_iff.mpr ⟨h, hlength.symm⟩] at hcut
  obtain ⟨rfl, rfl⟩ := Prod.mk.inj (Option.some.inj hcut)
  exact ⟨rfl, rfl⟩

/-- Between two characters a word stands if the text goes on with it. -/
private theorem hasAt_append :
    (front ++ rest).hasAt (byteLength front) word = word.isPrefixOf rest := by
  rw [Bool.eq_iff_iff, hasAt_iff, List.isPrefixOf_iff_prefix]
  constructor
  · rintro ⟨front', back, htext, hlength⟩
    exact ⟨back, (append_inj_of_byteLength htext hlength.symm).2.symm⟩
  · rintro ⟨back, rfl⟩
    exact ⟨front, back, rfl, rfl⟩

private theorem hasAt_inside {c : Char} {i : Nat} (hlt : byteLength front < i)
    (hinside : i < byteLength front + c.utf8Size) :
    (front ++ c :: rest).hasAt i word = false := by
  rw [Bool.eq_false_iff, ne_eq, hasAt_iff]
  rintro ⟨front', back, htext, rfl⟩
  rcases List.append_eq_append_iff.mp htext with ⟨tail, rfl, hrest⟩ | ⟨tail, rfl, -⟩
  · cases tail with
    | nil => simp at hlt
    | cons d tail =>
      obtain ⟨rfl, -⟩ := List.cons.inj hrest
      rw [byteLength_append, byteLength_cons] at hinside
      omega
  · rw [byteLength_append] at hlt
    omega

private theorem le_byteLength_of_hasAt {text : Text} {i : Nat} (h : text.hasAt i word = true) :
    i + byteLength word ≤ byteLength text := by
  obtain ⟨front, back, rfl, rfl⟩ := hasAt_iff.mp h
  rw [byteLength_append, byteLength_append]
  omega

end Text

namespace Words

namespace Matcher

variable {m : Matcher} {text front rest : Text} {offset : Nat}

/-! ## Looking for words by offsets -/

private theorem wordAtOffset?_append :
    m.wordAtOffset? (front ++ rest) front.byteLength = m.wordAt? rest := by
  rw [wordAtOffset?, wordAt?]
  exact congrArg (m.words.find? ·) (funext fun _ ↦ Text.hasAt_append)

private theorem wordAtOffset?_eq_none_iff {i : Nat} :
    m.wordAtOffset? text i = none ↔ ∀ w ∈ m.words, text.hasAt i w = false := by
  simp [wordAtOffset?]

private theorem wordAtOffset?_inside {c : Char} {i : Nat} (hlt : front.byteLength < i)
    (hinside : i < front.byteLength + c.utf8Size) :
    m.wordAtOffset? (front ++ c :: rest) i = none :=
  wordAtOffset?_eq_none_iff.mpr fun _ _ ↦ Text.hasAt_inside hlt hinside

private theorem wordAt?_nil : m.wordAt? [] = none := by
  rw [wordAt?_eq_none_iff]
  intro w hw hfit
  exact m.ne_nil w hw (List.prefix_nil.mp hfit)

/-- At and behind a boundary, the first offset at which a word stands is the first place. -/
private theorem findSome?_wordAtOffset? (before : Option Char) :
    ((List.range' front.byteLength (rest.byteLength + 1)).findSome? fun start ↦
        (m.wordAtOffset? (front ++ rest) start).map (Occurrence.mk start))
      = (m.search? before front.byteLength rest).map Candidate.occurrence := by
  induction rest generalizing front before with
  | nil =>
    rw [Text.byteLength_nil, List.range'_one, List.findSome?_singleton, wordAtOffset?_append,
      wordAt?_nil]
    rfl
  | cons c rest ih =>
    have hpos := c.utf8Size_pos
    have hbehind : Text.byteLength (front ++ [c]) = front.byteLength + c.utf8Size := by simp
    -- the offset of the first character, those inside it, and those behind it
    have hrange : List.range' front.byteLength (Text.byteLength (c :: rest) + 1)
        = front.byteLength :: List.range' (front.byteLength + 1) (c.utf8Size - 1)
          ++ List.range' (Text.byteLength (front ++ [c])) (Text.byteLength rest + 1) := by
      rw [← List.range'_succ, Nat.sub_add_cancel hpos, hbehind, List.range'_append_1,
        Text.byteLength_cons, Nat.add_assoc]
    have hinside : (List.range' (front.byteLength + 1) (c.utf8Size - 1)).findSome? (fun start ↦
        (m.wordAtOffset? (front ++ c :: rest) start).map (Occurrence.mk start)) = none := by
      rw [List.findSome?_eq_none_iff]
      intro i hi
      rw [List.mem_range'_1] at hi
      rw [wordAtOffset?_inside (by omega) (by omega)]
      rfl
    rw [hrange, List.cons_append, List.findSome?_cons, wordAtOffset?_append, search?]
    cases hword : m.wordAt? (c :: rest) with
    | some w => rfl
    | none =>
      have hnext := @ih (front ++ [c]) (some c)
      rw [List.append_assoc, List.singleton_append] at hnext
      rw [Option.map_none, List.findSome?_append, hinside, Option.none_or, hnext, hbehind]

/-- **Searching by offsets is searching from place to place.** -/
theorem firstFrom?_offset {p : Place} (h : (Place.start text).Reaches p) :
    m.firstFrom? text p.offset = .ok ((p.search? m).map Candidate.occurrence) := by
  obtain ⟨before, offset, rest⟩ := p
  obtain ⟨front, htext, hoffset, -⟩ := h
  simp only [Place.start, Nat.zero_add] at htext hoffset
  subst htext hoffset
  rw [firstFrom?, if_pos (by simp), Text.byteLength_append,
    show front.byteLength + rest.byteLength + 1 - front.byteLength = rest.byteLength + 1 from
      by omega, findSome?_wordAtOffset? before]
  rfl

private theorem exists_firstFrom?_eq_ok (m : Matcher) (h : offset ≤ text.byteLength) :
    ∃ found, m.firstFrom? text offset = .ok found := ⟨_, if_pos h⟩

private theorem of_firstFrom?_eq_none (h : m.firstFrom? text offset = .ok none) {i : Nat}
    (hle : offset ≤ i) : m.wordAtOffset? text i = none := by
  rw [firstFrom?] at h
  split at h
  case isFalse => cases h
  rw [Except.ok.injEq, List.findSome?_eq_none_iff] at h
  by_cases hi : i ≤ text.byteLength
  · exact Option.map_eq_none_iff.mp (h i (List.mem_range'_1.mpr (by omega)))
  · -- behind the end of the text nothing stands
    rw [wordAtOffset?_eq_none_iff]
    intro w _
    rw [Bool.eq_false_iff]
    intro hw
    have := Text.le_byteLength_of_hasAt hw
    omega

end Matcher

/-! ## The first and longest word -/

/-- Whether an occurrence is the first one of some words in a text, from an offset on, and the
longest one there. -/
structure Occurrence.IsFirstLongest (words : List Text) (text : Text) (offset : Nat)
    (o : Occurrence) : Prop where
  mem : o.word ∈ words
  hasAt : text.hasAt o.start o.word = true
  offset_le : offset ≤ o.start
  /-- No word stands earlier. -/
  start_le : ∀ w ∈ words, ∀ i, offset ≤ i → text.hasAt i w = true → o.start ≤ i
  /-- No word that stands there is longer. -/
  byteLength_le : ∀ w ∈ words, text.hasAt o.start w = true → w.byteLength ≤ o.word.byteLength

private theorem Occurrence.IsFirstLongest.unique {words : List Text} {text : Text} {offset : Nat}
    {o o' : Occurrence} (h : o.IsFirstLongest words text offset)
    (h' : o'.IsFirstLongest words text offset) : o = o' := by
  obtain ⟨start, w⟩ := o
  obtain ⟨start', w'⟩ := o'
  obtain rfl : start = start' :=
    Nat.le_antisymm (h.start_le w' h'.mem start' h'.offset_le h'.hasAt)
      (h'.start_le w h.mem start h.offset_le h.hasAt)
  have hlength : w.byteLength = w'.byteLength :=
    Nat.le_antisymm (h'.byteLength_le w h.mem h.hasAt) (h.byteLength_le w' h'.mem h'.hasAt)
  -- words of one length at one offset are one part of the text
  have hslice := beq_iff_eq.mp h.hasAt
  dsimp only at hslice
  rw [hlength, beq_iff_eq.mp h'.hasAt] at hslice
  rw [show w' = w from Option.some.inj hslice]

namespace Matcher

variable {words : List Text} {text : Text} {offset : Nat}

/-- The word that is found is the first and longest. -/
private theorem isFirstLongest_of_firstFrom? (hne : ∀ w ∈ words, w ≠ []) {o : Occurrence}
    (h : (ofWords words).firstFrom? text offset = .ok (some o)) :
    o.IsFirstLongest words text offset := by
  obtain ⟨hle, hword, hnone⟩ := of_firstFrom?_eq_some h
  have hhas : text.hasAt o.start o.word = true := List.find?_some hword
  obtain ⟨front, back, htext, hfront⟩ := Text.hasAt_iff.mp hhas
  rw [htext, ← hfront, wordAtOffset?_append] at hword
  constructor
  case mem => exact (mem_words_ofWords.mp (wordAt?_mem hword)).1
  case hasAt => exact hhas
  case offset_le => exact hle
  case start_le =>
    intro w hw i hi hat
    by_contra hlt
    have hnot := wordAtOffset?_eq_none_iff.mp (hnone i hi (Nat.not_le.mp hlt)) w
      (mem_words_ofWords.mpr ⟨hw, hne w hw⟩)
    exact Bool.false_ne_true (hnot.symm.trans hat)
  case byteLength_le =>
    intro w hw hat
    rw [htext, ← hfront, Text.hasAt_append, List.isPrefixOf_iff_prefix] at hat
    obtain ⟨tail, htail⟩ := prefix_of_wordAt?_ofWords hword hw hat
    rw [← htail, Text.byteLength_append]
    exact Nat.le_add_right _ _

private theorem firstFrom?_ofWords_eq_none_iff (hne : ∀ w ∈ words, w ≠ [])
    (hle : offset ≤ text.byteLength) :
    (ofWords words).firstFrom? text offset = .ok none ↔
      ∀ w ∈ words, ∀ i, offset ≤ i → text.hasAt i w = false := by
  constructor
  · intro h w hw i hi
    exact wordAtOffset?_eq_none_iff.mp (of_firstFrom?_eq_none h hi) w
      (mem_words_ofWords.mpr ⟨hw, hne w hw⟩)
  · intro hnone
    obtain ⟨_ | o, hfound⟩ := exists_firstFrom?_eq_ok (ofWords words) hle
    · exact hfound
    · have ho := isFirstLongest_of_firstFrom? hne hfound
      have hnot := hnone o.word ho.mem o.start ho.offset_le
      exact absurd (hnot.symm.trans ho.hasAt) Bool.false_ne_true

/-- **The longest word that stands at the first place is found**, and nothing else. -/
theorem firstFrom?_ofWords_eq_some_iff (hne : ∀ w ∈ words, w ≠ [])
    (hle : offset ≤ text.byteLength) {o : Occurrence} :
    (ofWords words).firstFrom? text offset = .ok (some o) ↔ o.IsFirstLongest words text offset := by
  refine ⟨isFirstLongest_of_firstFrom? hne, fun ho ↦ ?_⟩
  obtain ⟨_ | o', hfound⟩ := exists_firstFrom?_eq_ok (ofWords words) hle
  · have hnot := (firstFrom?_ofWords_eq_none_iff hne hle).mp hfound o.word ho.mem o.start
      ho.offset_le
    exact absurd (hnot.symm.trans ho.hasAt) Bool.false_ne_true
  · rw [hfound, (isFirstLongest_of_firstFrom? hne hfound).unique ho]

end Matcher

/-- **A search finds the first place at which a word stands, and the longest word there.** From an
offset inside a text on it finds the occurrence that is first and longest, or nothing if no word
stands there or behind. A walk searches in the same way from its place, and the order in which the
table lists its words does not matter. -/
theorem Lexicon.findsFirstLongest_ofRows {rows : List Vocabulary.Entry}
    (hne : ∀ e ∈ rows, e.word ≠ []) :
    (∀ (text : Text) (offset : Nat), offset ≤ text.byteLength →
      ∃ found, (ofRows rows).matcher.firstFrom? text offset = .ok found ∧
        (found = none ↔ ∀ e ∈ rows, ∀ i, offset ≤ i → text.hasAt i e.word = false) ∧
        ∀ o, found = some o ↔ o.IsFirstLongest (rows.map (·.word)) text offset) ∧
    (∀ (text : Text) (p : Place), (Place.start text).Reaches p →
      (ofRows rows).matcher.firstFrom? text p.offset
        = .ok ((p.search? (ofRows rows).matcher).map Candidate.occurrence)) ∧
    ∀ rows' : List Vocabulary.Entry, rows.Perm rows' →
      (ofRows rows').matcher = (ofRows rows).matcher := by
  have hwords : ∀ w ∈ rows.map (·.word), w ≠ [] := List.forall_mem_map.mpr hne
  refine ⟨fun text offset hle ↦ ?_, fun text p ↦ Matcher.firstFrom?_offset,
    fun rows' hperm ↦ (Matcher.ofWords_congr (hperm.map _)).symm⟩
  obtain ⟨found, hfound⟩ := Matcher.exists_firstFrom?_eq_ok (ofRows rows).matcher hle
  have hnone := Matcher.firstFrom?_ofWords_eq_none_iff hwords hle
  have hsome := fun o ↦ Matcher.firstFrom?_ofWords_eq_some_iff hwords hle (o := o)
  rw [List.forall_mem_map] at hnone
  refine ⟨found, hfound, ?_, fun o ↦ ?_⟩
  · rw [← hnone, ← Except.ok.injEq, ← hfound, ofRows]
  · rw [← hsome, ← Except.ok.injEq, ← hfound, ofRows]

/-- Behind a character of two bytes, `DATASET` is found although `DATA` stands there as well, also
if the table is turned round. -/
theorem Lexicon.findsFirstLongest_ofRows_table :
    (∀ e ∈ Vocabulary.table, e.word ≠ []) ∧
      Lexicon.standard.matcher.firstFrom? "½DATASETS".toList 0
        = .ok (some ⟨2, "DATASET".toList⟩) ∧
      (ofRows Vocabulary.table.reverse).matcher = Lexicon.standard.matcher := by
  have hne : ∀ e ∈ Vocabulary.table, e.word ≠ [] := fun _ ↦ Vocabulary.word_ne_nil_of_mem_table
  obtain ⟨hfinds, -, hperm⟩ := findsFirstLongest_ofRows hne
  obtain ⟨found, hfound, -, hsome⟩ := hfinds "½DATASETS".toList 0 (Nat.zero_le _)
  refine ⟨hne, ?_, hperm _ (List.reverse_perm _).symm⟩
  rw [standard, hfound, (hsome ⟨2, "DATASET".toList⟩).mpr]
  constructor
  case mem => decide +kernel
  case hasAt => decide +kernel
  case offset_le => decide
  case start_le =>
    intro w hw i _ hi
    by_contra hlt
    have hnot : ∀ w ∈ Vocabulary.table.map (·.word), ∀ i < 2,
        Text.hasAt "½DATASETS".toList i w = false := by decide +kernel
    exact Bool.false_ne_true ((hnot w hw i (Nat.not_le.mp hlt)).symm.trans hi)
  case byteLength_le => decide +kernel

end Words

end DumpMode
