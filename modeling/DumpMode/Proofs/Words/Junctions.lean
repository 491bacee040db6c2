import DumpMode.Proofs.Lines
import DumpMode.Proofs.Words.Matches

/-!
# Cutting a text between two words

A search looks across the place where a text is cut: it tests the neighbours of a word, and where
it goes on depends on what stood before. Its matches do not. They are the runs of word characters
that are words, and a cut which has not a word character on both its sides goes through no run. So
the matches of a text are those of its front and those of its back, the latter moved by the size of
the front.

Line ends are such cuts: neither a newline nor a carriage return belongs to a run. So a text may be
classified line by line.
-/

namespace DumpMode.Words

/-! ## Cuts that go through no run -/

/-- Whether not both sides of the cut between two texts have a word character next to it. -/
def CutsNoWord (front back : Text) : Prop :=
  front.getLast?.any isWordChar = false ∨ back.head?.any isWordChar = false

instance (front back : Text) : Decidable (CutsNoWord front back) :=
  inferInstanceAs (Decidable (_ ∨ _))

private theorem cutsNoWord_cons_of_not {c : Char} (h : isWordChar c = false) (front rest : Text) :
    CutsNoWord front (c :: rest) := Or.inr h

private theorem CutsNoWord.of_suffix {front front' back : Text} (h : CutsNoWord front back)
    (hsuffix : front' <:+ front) : CutsNoWord front' back := by
  obtain ⟨passed, rfl⟩ := hsuffix
  refine h.imp_left fun hlast ↦ ?_
  cases hlast' : front'.getLast? with
  | none => rfl
  | some c => rwa [List.getLast?_append, hlast', Option.some_or] at hlast

private theorem CutsNoWord.takeWhile_append {front back : Text} {c : Char}
    (h : CutsNoWord (c :: front) back) (hc : isWordChar c = true) :
    (front ++ back).takeWhile isWordChar = front.takeWhile isWordChar ∧
      (front ++ back).dropWhile isWordChar = front.dropWhile isWordChar ++ back := by
  induction front generalizing c with
  | nil =>
    have hback : back.head?.any isWordChar = false := h.resolve_left (by simp [hc])
    cases back with
    | nil => exact ⟨rfl, rfl⟩
    | cons d back =>
      have hd : isWordChar d = false := hback
      simp [hd]
  | cons d front ih =>
    cases hd : isWordChar d with
    | false => simp [hd]
    | true =>
      obtain ⟨htake, hdrop⟩ := ih (h.of_suffix (List.suffix_cons _ _)) hd
      simp [hd, htake, hdrop]

/-- **The runs of two texts put together** are those of the one and those of the other. -/
theorem runsFrom_append {front back : Text} (h : CutsNoWord front back) (offset : Nat) :
    runsFrom offset (front ++ back)
      = runsFrom offset front ++ runsFrom (offset + front.byteLength) back := by
  fun_induction runsFrom offset front with
  | case1 => rfl
  | case2 offset c rest hc word ih =>
    obtain ⟨htake, hdrop⟩ := h.takeWhile_append hc
    have hrest : rest.dropWhile isWordChar <:+ c :: rest :=
      (List.dropWhile_suffix _).trans (List.suffix_cons _ _)
    -- the run takes its part of the front, and the rest of the front is as long as is left
    have hlength : word.byteLength + Text.byteLength (rest.dropWhile isWordChar)
        = Text.byteLength (c :: rest) := by
      rw [← Text.byteLength_append, List.cons_append, List.takeWhile_append_dropWhile]
    rw [List.cons_append, runsFrom_cons_of_pos hc, htake, hdrop, ih (h.of_suffix hrest), ← hlength,
      Nat.add_assoc]
    rfl
  | case3 offset c rest hc ih =>
    rw [List.cons_append, runsFrom_cons_of_not (Bool.eq_false_iff.mpr hc),
      ih (h.of_suffix (List.suffix_cons _ _)), Text.byteLength_cons, Nat.add_assoc]

private theorem runsFrom_eq_nil {text : Text} (h : ∀ c ∈ text, isWordChar c = false)
    (offset : Nat) : runsFrom offset text = [] := by
  induction text generalizing offset with
  | nil => exact runsFrom_nil offset
  | cons c rest ih =>
    rw [runsFrom_cons_of_not (h c List.mem_cons_self)]
    exact ih (fun d hd ↦ h d (List.mem_cons_of_mem _ hd)) _

/-! ## Moving -/

/-- The run in a text that has another one of some size in front of it. -/
def Run.moved (size : Nat) (r : Run) : Run := { r with start := size + r.start }

def Match.moved (size : Nat) (m : Match) : Match :=
  { m with start := size + m.start, stop := size + m.stop }

private theorem runsFrom_add (size offset : Nat) (text : Text) :
    runsFrom (size + offset) text = (runsFrom offset text).map (Run.moved size) := by
  fun_induction runsFrom offset text with
  | case1 => exact runsFrom_nil _
  | case2 offset c rest hc word ih =>
    rw [runsFrom_cons_of_pos hc, List.map_cons, ← ih, ← Nat.add_assoc]
    rfl
  | case3 offset c rest hc ih =>
    rw [runsFrom_cons_of_not (Bool.eq_false_iff.mpr hc), ← ih, ← Nat.add_assoc]

namespace Lexicon

def matchesFrom (l : Lexicon) (offset : Nat) (text : Text) : List Match :=
  (runsFrom offset text).filterMap l.matchOf?

variable (l : Lexicon)

private theorem matchOf?_moved (size : Nat) (r : Run) :
    l.matchOf? (r.moved size) = (l.matchOf? r).map (Match.moved size) := by
  rw [matchOf?, matchOf?, Option.map_map]
  congr 1
  funext e
  exact congrArg (fun stop ↦ (⟨_, _, stop, _, _⟩ : Match)) (Nat.add_assoc _ _ _)

private theorem matchesFrom_eq_moved (size : Nat) (text : Text) :
    l.matchesFrom size text = (l.matchesFrom 0 text).map (Match.moved size) := by
  have h := runsFrom_add size 0 text
  rw [Nat.add_zero] at h
  rw [matchesFrom, matchesFrom, h, List.filterMap_map, List.map_filterMap]
  exact congrArg (List.filterMap · _) (funext (l.matchOf?_moved size))

private theorem matchesFrom_append {front back : Text} (h : CutsNoWord front back) (offset : Nat) :
    l.matchesFrom offset (front ++ back)
      = l.matchesFrom offset front ++ l.matchesFrom (offset + front.byteLength) back := by
  rw [matchesFrom, runsFrom_append h, List.filterMap_append]
  rfl

/-! ## Line by line -/

private theorem matchesFrom_dropReturns (offset : Nat) (line : Text) :
    l.matchesFrom offset (LineMap.dropReturns line) = l.matchesFrom offset line := by
  obtain ⟨returns, hline, hreturns⟩ := LineMap.exists_eq_dropReturns_append line
  have hnot : ∀ c ∈ returns, isWordChar c = false := by
    intro c hc
    rw [hreturns c hc]
    exact isWordChar_return
  have hcut : CutsNoWord (LineMap.dropReturns line) returns := by
    cases returns with
    | nil => exact Or.inr rfl
    | cons c returns => exact cutsNoWord_cons_of_not (hnot c List.mem_cons_self) _ _
  conv_rhs => rw [hline, matchesFrom_append l hcut, matchesFrom, matchesFrom, runsFrom_eq_nil hnot]
  exact (List.append_nil _).symm

/-- **The matches of a text are those of its lines**, by induction on the lines. -/
theorem flatMap_matchesFrom_linesFrom (offset : Nat) (text : Text) :
    ((LineMap.linesFrom offset text).flatMap fun s ↦ l.matchesFrom s.offset s.line)
      = l.matchesFrom offset text := by
  induction text using Text.lineInduction generalizing offset with
  | last line hline =>
    rw [LineMap.linesFrom_of_not_mem hline, List.flatMap_singleton, LineStart.line,
      Text.takeWhile_of_not_mem hline, matchesFrom_dropReturns]
  | more line back hline ih =>
    rw [LineMap.linesFrom_append_newline hline, List.flatMap_cons, ih, LineStart.line,
      Text.takeWhile_append_newline hline, matchesFrom_dropReturns,
      matchesFrom_append l (cutsNoWord_cons_of_not isWordChar_newline _ _)]
    refine congrArg (_ ++ ·) ?_
    rw [matchesFrom, matchesFrom, runsFrom_cons_of_not isWordChar_newline]

end Lexicon

/-! ## Classification -/

private theorem mapM_range_getElem? {α β : Type} (l : List α) (f : α → β) :
    ((List.range l.length).mapM fun i ↦ l[i]?.map f) = some (l.map f) := by
  induction l with
  | nil => rfl
  | cons a l ih =>
    have htail : (fun i ↦ (a :: l)[i]?.map f) ∘ Nat.succ = fun i ↦ l[i]?.map f := rfl
    rw [List.length_cons, List.range_succ_eq_map, List.mapM_cons, List.mapM_map, htail, ih]
    rfl

namespace Classifier

private theorem value_classify_standard (p : WordPreferences) (text : Text) :
    ((⟨.standard, p⟩ : Classifier).classify text).value = Lexicon.standard.matchesFrom 0 text := by
  rw [value_classify]
  exact Lexicon.matchesIn_standard text

/-- The matches of a line, found in the line alone, at their places in the whole text. -/
def lineMatches? (c : Classifier) (map : LineMap) (number : Nat) : Option (List Match) := do
  let line ← map.line? number
  let start ← map.lines[number - 1]?
  return (c.classify line).value.map (Match.moved start.offset)

private theorem lineMatches?_eq_getElem? (c : Classifier) (map : LineMap) (index : Nat) :
    c.lineMatches? map (index + 1)
      = map.lines[index]?.map fun s ↦ (c.classify s.line).value.map (Match.moved s.offset) := by
  rw [lineMatches?, LineMap.line?_eq_getElem?, Nat.add_sub_cancel]
  cases map.lines[index]? <;> rfl

/-- **Classification of two texts put together.** If not both sides of the cut between them have a
word character next to it, the matches of the whole are those of the front, and behind them those
of the back, moved by the size of the front. So a text has the matches of its lines, each
classified alone and moved to where the line begins. -/
theorem classify_append (p : WordPreferences) :
    ∃ c : Classifier, (Classifier.standard p).value = .ok c ∧
      (∀ front back : Text, CutsNoWord front back →
        (c.classify (front ++ back)).value
          = (c.classify front).value
            ++ (c.classify back).value.map (Match.moved front.byteLength)) ∧
      ∀ text : Text, let map := LineMap.ofText text
        ∃ parts : List (List Match),
          (List.range map.lineCount).mapM (fun index ↦ c.lineMatches? map (index + 1))
              = some parts ∧
            parts.flatten = (c.classify text).value := by
  refine ⟨⟨.standard, p⟩, value_standard p, fun front back h ↦ ?_, fun text ↦ ?_⟩
  · rw [value_classify_standard, value_classify_standard, value_classify_standard,
      Lexicon.matchesFrom_append _ h, Nat.zero_add,
      Lexicon.matchesFrom_eq_moved _ front.byteLength]
  · refine ⟨(LineMap.ofText text).lines.map fun s ↦ Lexicon.standard.matchesFrom s.offset s.line,
      ?_, ?_⟩
    · simp only [lineMatches?_eq_getElem?, value_classify_standard,
        ← Lexicon.matchesFrom_eq_moved]
      exact mapM_range_getElem? _ _
    · rw [value_classify_standard, ← List.flatMap_def]
      exact Lexicon.flatMap_matchesFrom_linesFrom _ 0 text

/-- A cut right behind a word. In front of it stands a candidate that is only the beginning of a
longer word. -/
theorem classify_append_behind_group :
    CutsNoWord "DATASETS GROUP".toList "-ATTRIBUTE".toList ∧
      ∃ c : Classifier, (Classifier.standard ⟨true, 100⟩).value = .ok c ∧
        (c.classify ("DATASETS GROUP".toList ++ "-ATTRIBUTE".toList)).value
          = [⟨"GROUP".toList, 9, 14, .keyword, none⟩,
            ⟨"ATTRIBUTE".toList, 15, 24, .keyword, none⟩] := by
  have hcut : CutsNoWord "DATASETS GROUP".toList "-ATTRIBUTE".toList := by decide +kernel
  obtain ⟨c, hc, happend, -⟩ := classify_append ⟨true, 100⟩
  refine ⟨hcut, c, hc, ?_⟩
  obtain rfl := Except.ok.inj ((value_standard _).symm.trans hc)
  rw [happend _ _ hcut, value_classify_standard, value_classify_standard]
  decide +kernel

end Classifier

end DumpMode.Words
