import DumpMode.Proofs.Words.Longest
import DumpMode.Proofs.Words.Runs
import DumpMode.Proofs.Words.Table
import DumpMode.Words.Classifier

/-!
# Matches are the runs that are words

A search jumps from candidate to candidate, throws away those that do not stand alone, and goes on
one character behind the start of such a one. The matches of a text, however, are simply its runs
of word characters that are words of the table. What connects the two is `Lexicon.matchesAhead`,
the matches read off the runs ahead of a place: no step of a search changes it, except that a
match which is reported leaves it.

The one fact about words that matters is that the candidate at a place is the longest word there.
If it fills the run that begins at the place it is that run, and if it does not then no word does:
a word that did would be a prefix of the candidate, and the candidate of the run.
-/

namespace DumpMode.Words

/-! ## Candidates and runs -/

/-- A candidate of word characters stands alone exactly if it is the run that begins there. -/
private theorem Candidate.standsAlone_iff {c : Candidate} (hne : c.word ≠ [])
    (hword : ∀ d ∈ c.word, isWordChar d = true) (hfit : c.word <+: c.place.rest) :
    c.standsAlone = true ↔ c.place.run? = some ⟨c.place.offset, c.word⟩ := by
  obtain ⟨back, hback⟩ := hfit
  have hfollowing : c.following = back := by rw [following, ← hback, List.drop_left]
  rw [standsAlone, Bool.and_eq_true, Bool.not_eq_true', Bool.not_eq_true', hfollowing,
    Place.run?_eq_some_iff]
  constructor
  · rintro ⟨hbefore, hbehind⟩
    exact ⟨rfl, back, hback.symm, hne, hword, hbefore, hbehind⟩
  · rintro ⟨-, back', hback', hfills⟩
    obtain rfl := List.append_cancel_left (hback.trans hback')
    exact ⟨hfills.before_any, hfills.back_any⟩

namespace Lexicon

/-! ## The matches ahead -/

/-- The match that a run is, if it is a word of the table. -/
def matchOf? (l : Lexicon) (r : Run) : Option Match :=
  (Vocabulary.find? l.rows r.text).map r.classify

/-- The matches ahead of a place, read off its runs. -/
def matchesAhead (l : Lexicon) (p : Place) : List Match := p.runsAhead.filterMap l.matchOf?

private theorem matchesAhead_start (l : Lexicon) (text : Text) :
    l.matchesAhead (.start text) = l.runMatches text := rfl

private theorem matchesAhead_next {l : Lexicon} {p : Place} (h : p.run?.bind l.matchOf? = none) :
    l.matchesAhead p.next = l.matchesAhead p := by
  rw [matchesAhead, matchesAhead, Place.runsAhead_eq p, List.filterMap_append]
  -- the runs ahead differ by the one that begins here, and that one is dropped
  cases hr : p.run? with
  | none => simp
  | some r =>
    rw [hr, Option.bind_some] at h
    simp [h]

section OfRows

variable {rows : List Vocabulary.Entry}

/-- No match begins at a place if the run there, which fits, is none of the words. -/
private theorem run?_bind_matchOf?_eq_none {p : Place}
    (h : ∀ r, p.run? = some r → r.text <+: p.rest → r.text ∉ rows.map (·.word)) :
    p.run?.bind (ofRows rows).matchOf? = none := by
  rw [Option.bind_eq_none_iff]
  intro r hr
  rw [Option.eq_none_iff_forall_not_mem]
  intro m hm
  obtain ⟨e, he, -⟩ := Option.map_eq_some_iff.mp hm
  obtain ⟨hmem, hword⟩ := Vocabulary.of_find?_eq_some he
  obtain ⟨-, back, hrest, -⟩ := Place.run?_eq_some_iff.mp hr
  exact h r hr ⟨back, hrest.symm⟩ (hword ▸ List.mem_map_of_mem hmem)

private theorem run?_bind_matchOf?_of_wordAt?_eq_none {p : Place}
    (h : (ofRows rows).matcher.wordAt? p.rest = none) :
    p.run?.bind (ofRows rows).matchOf? = none := by
  apply run?_bind_matchOf?_eq_none
  intro r hr hfit hmem
  obtain ⟨-, back, -, hfills⟩ := Place.run?_eq_some_iff.mp hr
  exact Matcher.wordAt?_eq_none_iff.mp h r.text
    (Matcher.mem_words_ofWords.mpr ⟨hmem, hfills.ne_nil⟩) hfit

private theorem exists_entry_of_wordAt? {rest w : Text}
    (h : (ofRows rows).matcher.wordAt? rest = some w) : w ≠ [] ∧ ∃ e ∈ rows, e.word = w := by
  obtain ⟨hmem, hne⟩ := Matcher.mem_words_ofWords.mp (Matcher.wordAt?_mem h)
  exact ⟨hne, List.mem_map.mp hmem⟩

theorem exists_find?_of_wordAt? {rest w : Text} (h : (ofRows rows).matcher.wordAt? rest = some w) :
    ∃ e, Vocabulary.find? rows w = some e := by
  obtain ⟨-, e, he, rfl⟩ := exists_entry_of_wordAt? h
  exact Vocabulary.exists_find?_word he

/-! ## One search -/

/-- A search skips only places at which no run that is a word begins, and stops at one where a
word fits. -/
theorem matchesAhead_of_search? {before : Option Char} {offset : Nat} {rest : Text}
    {c : Candidate} (h : (ofRows rows).matcher.search? before offset rest = some c) :
    (ofRows rows).matchesAhead c.place = (ofRows rows).matchesAhead ⟨before, offset, rest⟩ ∧
      (ofRows rows).matcher.wordAt? c.place.rest = some c.word := by
  induction rest generalizing before offset with
  | nil => simp [Matcher.search?] at h
  | cons d rest ih =>
    rw [Matcher.search?] at h
    split at h
    · rename_i w hw
      cases h
      exact ⟨rfl, hw⟩
    · rename_i hw
      obtain ⟨hahead, hat⟩ := ih h
      have hstep := matchesAhead_next (run?_bind_matchOf?_of_wordAt?_eq_none
        (p := ⟨before, offset, d :: rest⟩) hw)
      exact ⟨hahead.trans hstep, hat⟩

private theorem matchesAhead_of_search?_eq_none {before : Option Char} {offset : Nat} {rest : Text}
    (h : (ofRows rows).matcher.search? before offset rest = none) :
    (ofRows rows).matchesAhead ⟨before, offset, rest⟩ = [] := by
  induction rest generalizing before offset with
  | nil => cases hb : before.any isWordChar <;> simp [matchesAhead, Place.runsAhead, hb]
  | cons d rest ih =>
    rw [Matcher.search?] at h
    split at h
    · cases h
    · rename_i hw
      have hstep := matchesAhead_next (run?_bind_matchOf?_of_wordAt?_eq_none
        (p := ⟨before, offset, d :: rest⟩) hw)
      exact hstep.symm.trans (ih h)

variable (hrows : ∀ e ∈ rows, ∀ c ∈ e.word, isWordChar c = true)

include hrows

private theorem standsAlone_iff_of_wordAt? {c : Candidate}
    (hw : (ofRows rows).matcher.wordAt? c.place.rest = some c.word) :
    c.standsAlone = true ↔ c.place.run? = some ⟨c.place.offset, c.word⟩ := by
  obtain ⟨hne, e, he, heq⟩ := exists_entry_of_wordAt? hw
  exact Candidate.standsAlone_iff hne (heq ▸ hrows e he) (Matcher.prefix_of_wordAt? hw)

/-- **A rejected candidate hides no match at its own place.** A run there that is a word would be a
prefix of the candidate, which is the longest word, and the candidate would be one of the run. -/
theorem run?_bind_matchOf?_of_not_standsAlone {c : Candidate}
    (hw : (ofRows rows).matcher.wordAt? c.place.rest = some c.word)
    (halone : c.standsAlone ≠ true) : c.place.run?.bind (ofRows rows).matchOf? = none := by
  apply run?_bind_matchOf?_eq_none
  intro r hr hfit hmem
  refine halone ((standsAlone_iff_of_wordAt? hrows hw).mpr ?_)
  have hpre : r.text <+: c.word := Matcher.prefix_of_wordAt?_ofWords hw hmem hfit
  obtain ⟨hstart, back, hrest, hfills⟩ := Place.run?_eq_some_iff.mp hr
  -- the run takes all the word characters there are, so the candidate cannot reach beyond it
  have hpre' : c.word <+: r.text := by
    obtain ⟨-, e, he, heq⟩ := exists_entry_of_wordAt? hw
    obtain ⟨tail, htail⟩ := Matcher.prefix_of_wordAt? hw
    have htake := hfills.takeWhile_append
    rw [← hrest, ← htail, List.takeWhile_append_of_pos (heq ▸ hrows e he)] at htake
    exact ⟨_, htake⟩
  have htext : r.text = c.word := hpre.eq_of_length_le hpre'.length_le
  rw [hr, ← htext, ← hstart]

/-- **A candidate that stands alone is the first match ahead**, and the others are ahead of the
place behind it. -/
theorem matchesAhead_of_standsAlone {c : Candidate}
    (hw : (ofRows rows).matcher.wordAt? c.place.rest = some c.word)
    (halone : c.standsAlone = true) :
    ∃ e, Vocabulary.find? rows c.word = some e ∧
      (ofRows rows).matchesAhead c.place
        = c.classify e :: (ofRows rows).matchesAhead (c.place.behind c.word) := by
  obtain ⟨e, he⟩ := exists_find?_of_wordAt? hw
  have hmatch : (ofRows rows).matchOf? ⟨c.place.offset, c.word⟩ = some (c.classify e) := by
    rw [matchOf?, ofRows, he]
    rfl
  refine ⟨e, he, ?_⟩
  rw [matchesAhead, Place.runsAhead_of_run? ((standsAlone_iff_of_wordAt? hrows hw).mp halone),
    List.filterMap_cons, hmatch]
  rfl

/-! ## The whole scan -/

/-- **What a step of a scan does**: it reports the first match ahead and leaves the others, or
there is none. -/
private theorem matchesAhead_eq_next (p : Place) :
    (ofRows rows).matchesAhead p
      = ((ofRows rows).next p).1.elim []
          fun m ↦ m :: (ofRows rows).matchesAhead ((ofRows rows).next p).2 := by
  fun_induction next (ofRows rows) p with
  | case1 p hc => exact matchesAhead_of_search?_eq_none hc
  | case2 p c hc halone e he =>
    obtain ⟨hahead, hw⟩ := matchesAhead_of_search? hc
    obtain ⟨e', he', hfirst⟩ := matchesAhead_of_standsAlone hrows hw halone
    obtain rfl : e = e' := Option.some.inj (he.symm.trans he')
    rw [Option.elim_some, ← hfirst, hahead]
  | case3 p c hc halone he ih =>
    -- a candidate is a word of the table, so its row is always found
    obtain ⟨e', he', -⟩ := matchesAhead_of_standsAlone hrows (matchesAhead_of_search? hc).2 halone
    rw [ofRows, he'] at he
    cases he
  | case4 p c hc halone ih =>
    obtain ⟨hahead, hw⟩ := matchesAhead_of_search? hc
    rw [← ih, matchesAhead_next (run?_bind_matchOf?_of_not_standsAlone hrows hw halone), hahead]

/-- **What a whole scan does**: behind the matches found before, it reports all matches ahead. -/
theorem collect_fst (found : List Match) (p : Place) :
    ((ofRows rows).collect found p).1 = found.reverse ++ (ofRows rows).matchesAhead p := by
  fun_induction collect (ofRows rows) found p with
  | case1 found p q hn =>
    rw [matchesAhead_eq_next hrows, hn, Option.elim_none, List.append_nil]
  | case2 found p m q hn ih =>
    rw [ih, matchesAhead_eq_next hrows p, hn, Option.elim_some, List.reverse_cons,
      List.append_assoc, List.singleton_append]

private theorem matchesIn_eq_runMatches (text : Text) :
    (ofRows rows).matchesIn text = (ofRows rows).runMatches text := by
  rw [matchesIn, collect_fst hrows, List.reverse_nil, List.nil_append, matchesAhead_start]

end OfRows

end Lexicon

/-! ## The matches of a dump -/

theorem Lexicon.matchesIn_standard (text : Text) :
    Lexicon.standard.matchesIn text = (runs text).filterMap Lexicon.standard.matchOf? :=
  matchesIn_eq_runMatches (fun _ he _ hc ↦ Vocabulary.isWordChar_of_mem_table he hc) text

theorem Lexicon.exists_run_of_mem_matchesIn {text : Text} {m : Match}
    (hm : m ∈ Lexicon.standard.matchesIn text) :
    ∃ r ∈ runs text, m.start = r.start ∧ m.stop = r.start + r.text.byteLength := by
  rw [matchesIn_standard] at hm
  obtain ⟨r, hr, hclassify⟩ := List.mem_filterMap.mp hm
  obtain ⟨e, -, rfl⟩ := Option.map_eq_some_iff.mp hclassify
  exact ⟨r, hr, rfl, rfl⟩

theorem mem_filterMap_runs_iff {text : Text} {m : Match} :
    m ∈ (runs text).filterMap (fun r ↦ (Vocabulary.entry? r.text).map r.classify) ↔
      ∃ e ∈ Vocabulary.table, ∃ front back : Text, text = front ++ (e.word ++ back) ∧
        front.getLast?.any isWordChar = false ∧ back.head?.any isWordChar = false ∧
          m = (⟨front.byteLength, e.word⟩ : Run).classify e := by
  simp only [List.mem_filterMap, Option.map_eq_some_iff, Vocabulary.entry?,
    Vocabulary.find?_eq_some_iff Vocabulary.duplicates_table, mem_runs_iff]
  constructor
  · rintro ⟨⟨start, word⟩, ⟨front, back, htext, rfl, hfills⟩, e, ⟨he, rfl⟩, rfl⟩
    exact ⟨e, he, front, back, htext, hfills.before_any, hfills.back_any, rfl⟩
  · rintro ⟨e, he, front, back, htext, hbefore, hback, rfl⟩
    refine ⟨⟨front.byteLength, e.word⟩, ⟨front, back, htext, rfl, ?_⟩, e, ⟨he, rfl⟩, rfl⟩
    exact ⟨Vocabulary.word_ne_nil_of_mem_table he,
      fun _ hc ↦ Vocabulary.isWordChar_of_mem_table he hc, hbefore, hback⟩

private theorem pairwise_filterMap_runs (l : Lexicon) (text : Text) :
    ((runs text).filterMap l.matchOf?).Pairwise fun m m' ↦ m.start < m'.start := by
  refine (pairwise_runs text).filterMap _ fun r s hrs m hm m' hm' ↦ ?_
  obtain ⟨e, -, rfl⟩ := Option.map_eq_some_iff.mp hm
  obtain ⟨e', -, rfl⟩ := Option.map_eq_some_iff.mp hm'
  exact hrs

theorem Classifier.value_standard (p : WordPreferences) :
    (Classifier.standard p).value = .ok ⟨.standard, p⟩ := by
  rw [Classifier.standard, Classifier.build, Vocabulary.duplicates_table]
  rfl

theorem Classifier.value_classify (c : Classifier) (text : Text) :
    (c.classify text).value = c.lexicon.matchesIn text := by
  rw [classify, classifyWithMetrics, Logged.value_bind, Logged.value_bind]
  dsimp only
  split <;> rfl

theorem Classifier.drain_scan (p : WordPreferences) (text : Text) :
    ((⟨.standard, p⟩ : Classifier).scan text).drain.1
      = (runs text).filterMap Lexicon.standard.matchOf? :=
  Lexicon.matchesIn_standard text

/-- **A walk over a text finds exactly the words that stand alone.** Each word has one row of the
table. What the walk yields are the maximal runs of word characters that are words, in document
order, classified by their rows; so every word between characters that belong to no word is
found, once, and nothing else is. -/
theorem Classifier.drain_scan_standard (p : WordPreferences) :
    (Vocabulary.table.map (·.word)).Nodup ∧
    ∃ c : Classifier, (Classifier.standard p).value = .ok c ∧ ∀ text : Text,
      (c.scan text).drain.1
          = (runs text).filterMap (fun r ↦ (Vocabulary.entry? r.text).map r.classify) ∧
        (∀ m : Match, m ∈ (c.scan text).drain.1 ↔
          ∃ e ∈ Vocabulary.table, ∃ front back : Text, text = front ++ (e.word ++ back) ∧
            front.getLast?.any isWordChar = false ∧ back.head?.any isWordChar = false ∧
              m = ⟨e.word, front.byteLength, front.byteLength + e.word.byteLength,
                e.wordClass, e.group⟩) ∧
        (c.scan text).drain.1.Pairwise fun m m' ↦ m.start < m'.start := by
  refine ⟨Vocabulary.duplicates_eq_nil_iff.mp Vocabulary.duplicates_table,
    ⟨.standard, p⟩, Classifier.value_standard p, fun text ↦ ?_⟩
  have hdrain : ((⟨.standard, p⟩ : Classifier).scan text).drain.1
      = (runs text).filterMap Lexicon.standard.matchOf? :=
    Lexicon.matchesIn_standard text
  rw [hdrain]
  exact ⟨rfl, fun m ↦ mem_filterMap_runs_iff, pairwise_filterMap_runs _ text⟩

end DumpMode.Words
