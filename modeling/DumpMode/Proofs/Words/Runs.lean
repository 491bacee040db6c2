import DumpMode.Words.Run

/-!
# Runs seen from a place

A search moves through a text one character at a time and may stop inside a word, so the runs of a
text are described here from any place in it: `Place.runsAhead` are the runs that begin at the
place or behind it. One character further on there is at most one run fewer, the one that begins
at the place (`runsAhead_eq`), and every fact about runs is an induction with that equation. In
particular the runs are the maximal runs of word characters, in document order.
-/

namespace DumpMode.Words

/-! ## Line ends -/

theorem isWordChar_newline : isWordChar '\n' = false := by decide +kernel

theorem isWordChar_return : isWordChar '\r' = false := by decide +kernel

/-! ## Maximal runs -/

/-- Whether a word that stands between a character and a text fills a maximal run of word
characters there. -/
structure FillsRun (before : Option Char) (word back : Text) : Prop where
  ne_nil : word ≠ []
  isWordChar_of_mem : ∀ c ∈ word, isWordChar c = true
  /-- The run does not begin earlier. -/
  before_any : before.any isWordChar = false
  /-- The run does not end later. -/
  back_any : back.head?.any isWordChar = false

theorem FillsRun.takeWhile_append {before : Option Char} {word back : Text}
    (h : FillsRun before word back) : (word ++ back).takeWhile isWordChar = word := by
  rw [List.takeWhile_append_of_pos h.isWordChar_of_mem]
  cases back with
  | nil => simp
  | cons c back =>
    have hc : isWordChar c = false := by simpa using h.back_any
    simp [hc]

private theorem fillsRun_takeWhile {before : Option Char} {rest : Text}
    (hbefore : before.any isWordChar = false) (hrest : rest.head?.any isWordChar = true) :
    FillsRun before (rest.takeWhile isWordChar) (rest.dropWhile isWordChar) where
  ne_nil := by
    cases rest with
    | nil => simp at hrest
    | cons c rest =>
      have hc : isWordChar c = true := by simpa using hrest
      simp [hc]
  isWordChar_of_mem := List.all_eq_true.mp List.all_takeWhile
  before_any := hbefore
  back_any := by
    have h := List.head?_dropWhile_not isWordChar rest
    cases hd : (rest.dropWhile isWordChar).head? with
    | none => rfl
    | some c =>
      rw [hd] at h
      exact h

namespace Place

/-! ## The runs ahead -/

/-- The runs that begin at a place or behind it; a run that the place lies in began before it. -/
def runsAhead (p : Place) : List Run :=
  if p.before.any isWordChar then
    runsFrom (p.offset + Text.byteLength (p.rest.takeWhile isWordChar))
      (p.rest.dropWhile isWordChar)
  else runsFrom p.offset p.rest

/-- The run that begins at a place, if one does. -/
def run? (p : Place) : Option Run :=
  if !p.before.any isWordChar && p.rest.head?.any isWordChar then
    some ⟨p.offset, p.rest.takeWhile isWordChar⟩
  else none

@[simp] theorem runsAhead_start (text : Text) : (start text).runsAhead = runs text := rfl

theorem run?_eq_some_iff {p : Place} {r : Run} :
    p.run? = some r ↔
      r.start = p.offset ∧ ∃ back, p.rest = r.text ++ back ∧ FillsRun p.before r.text back := by
  unfold run?
  constructor
  · intro h
    split at h
    · rename_i hc
      rw [Bool.and_eq_true, Bool.not_eq_true'] at hc
      cases h
      exact ⟨rfl, _, List.takeWhile_append_dropWhile.symm, fillsRun_takeWhile hc.1 hc.2⟩
    · cases h
  · rintro ⟨hstart, back, hrest, hfills⟩
    have hhead : p.rest.head?.any isWordChar = true := by
      obtain ⟨c, word, hword⟩ := List.exists_cons_of_ne_nil hfills.ne_nil
      have hc := hfills.isWordChar_of_mem c (hword ▸ List.mem_cons_self)
      simp [hrest, hword, hc]
    rw [hfills.before_any, hhead, hrest, hfills.takeWhile_append, ← hstart]
    rfl

/-- **One step ahead**: moving on by a character leaves at most one run behind. -/
theorem runsAhead_eq (p : Place) : p.runsAhead = p.run?.toList ++ p.next.runsAhead := by
  obtain ⟨before, offset, rest⟩ := p
  cases rest with
  | nil => cases hb : before.any isWordChar <;> simp [runsAhead, run?, next, hb]
  | cons c rest =>
    -- a run begins here only in the second case; it stays ahead in the others
    cases hb : before.any isWordChar <;> cases hc : isWordChar c
    · simp [runsAhead, run?, next, hb, hc, runsFrom_cons_of_not hc]
    · simp only [runsAhead, run?, next, hb]
      rw [runsFrom]
      simp [hc, Nat.add_assoc]
    · simp [runsAhead, run?, next, hb, hc, runsFrom_cons_of_not hc]
    · simp [runsAhead, run?, next, hb, hc, Nat.add_assoc]

theorem runsAhead_of_run? {p : Place} {r : Run} (h : p.run? = some r) :
    p.runsAhead = r :: (p.behind r.text).runsAhead := by
  obtain ⟨hstart, back, hrest, hfills⟩ := run?_eq_some_iff.mp h
  obtain ⟨before, offset, rest⟩ := p
  obtain ⟨start, word⟩ := r
  simp only at hstart hrest hfills
  subst hstart hrest
  obtain ⟨c, tail, rfl⟩ := List.exists_cons_of_ne_nil hfills.ne_nil
  have hc : isWordChar c = true := hfills.isWordChar_of_mem c List.mem_cons_self
  -- behind the run stands a word character, so nothing more is dropped there
  have hlast : ((c :: tail).getLast?.or before).any isWordChar = true := by
    rw [List.getLast?_eq_some_getLast (List.cons_ne_nil c tail), Option.some_or, Option.any_some]
    exact hfills.isWordChar_of_mem _ (List.getLast_mem _)
  have hback : back.takeWhile isWordChar = [] ∧ back.dropWhile isWordChar = back := by
    cases back with
    | nil => exact ⟨rfl, rfl⟩
    | cons d back =>
      have hd : isWordChar d = false := by simpa using hfills.back_any
      simp [hd]
  have htail : ∀ d ∈ tail, isWordChar d = true := fun d hd ↦
    hfills.isWordChar_of_mem d (List.mem_cons_of_mem _ hd)
  simp only [runsAhead, behind, hfills.before_any, hlast, List.drop_left, hback.1, hback.2]
  rw [List.cons_append, runsFrom]
  simp [hc, List.takeWhile_append_of_pos htail, List.dropWhile_append_of_pos htail, hback.1,
    hback.2]

/-! ## What the runs are -/

/-- **The runs ahead are the maximal ones**: those stretches of the rest of the text that fill a
run between what stands before and behind them. -/
theorem mem_runsAhead_iff {p : Place} {r : Run} :
    r ∈ p.runsAhead ↔ ∃ front back, p.rest = front ++ (r.text ++ back) ∧
      r.start = p.offset + Text.byteLength front ∧
        FillsRun (front.getLast?.or p.before) r.text back := by
  obtain ⟨before, offset, rest⟩ := p
  induction rest generalizing before offset with
  | nil =>
    constructor
    · intro h
      cases hb : before.any isWordChar <;> simp [runsAhead, hb] at h
    · rintro ⟨front, back, hrest, -, hfills⟩
      exact absurd (by simp_all) hfills.ne_nil
  | cons c rest ih =>
    -- the character passed is the one before the next place
    have hlast : ∀ front : Text, (c :: front).getLast?.or before = front.getLast?.or (some c) := by
      intro front
      rw [List.getLast?_cons]
      cases front.getLast? <;> rfl
    rw [runsAhead_eq, List.mem_append, Option.mem_toList, run?_eq_some_iff, next, ih]
    constructor
    · rintro (⟨hstart, back, hrest, hfills⟩ | ⟨front, back, rfl, hstart, hfills⟩)
      · exact ⟨[], back, hrest, hstart, hfills⟩
      · refine ⟨c :: front, back, rfl, ?_, (hlast front).symm ▸ hfills⟩
        rw [hstart, Text.byteLength_cons, Nat.add_assoc]
    · rintro ⟨front, back, hrest, hstart, hfills⟩
      cases front with
      | nil => exact Or.inl ⟨hstart, back, hrest, hfills⟩
      | cons d front =>
        obtain ⟨rfl, rfl⟩ := List.cons.inj hrest
        refine Or.inr ⟨front, back, rfl, ?_, hlast front ▸ hfills⟩
        rw [hstart, Text.byteLength_cons, Nat.add_assoc]

private theorem offset_le_of_mem_runsAhead {p : Place} {r : Run} (h : r ∈ p.runsAhead) :
    p.offset ≤ r.start := by
  obtain ⟨front, -, -, hstart, -⟩ := mem_runsAhead_iff.mp h
  omega

private theorem pairwise_runsAhead (p : Place) :
    p.runsAhead.Pairwise fun r s ↦ r.start < s.start := by
  obtain ⟨before, offset, rest⟩ := p
  induction rest generalizing before offset with
  | nil => cases hb : before.any isWordChar <;> simp [runsAhead, hb]
  | cons c rest ih =>
    rw [runsAhead_eq, List.pairwise_append]
    refine ⟨?_, ih (some c) (offset + c.utf8Size), fun r hr s hs ↦ ?_⟩
    · cases run? ⟨before, offset, c :: rest⟩ <;> simp
    · obtain ⟨hstart, -⟩ := run?_eq_some_iff.mp (Option.mem_toList.mp hr)
      have hle := offset_le_of_mem_runsAhead hs
      have hpos := c.utf8Size_pos
      simp only [next] at hle hstart
      omega

end Place

/-- The runs of a text are its maximal runs of word characters. -/
theorem mem_runs_iff {text : Text} {r : Run} :
    r ∈ runs text ↔ ∃ front back, text = front ++ (r.text ++ back) ∧
      r.start = Text.byteLength front ∧ FillsRun front.getLast? r.text back := by
  rw [← Place.runsAhead_start, Place.mem_runsAhead_iff]
  simp [Place.start]

theorem pairwise_runs (text : Text) : (runs text).Pairwise fun r s ↦ r.start < s.start :=
  Place.pairwise_runsAhead (.start text)

end DumpMode.Words
