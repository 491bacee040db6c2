import DumpMode.Location
import DumpMode.Words.Scan

/-!
# Searching by offsets

A walk need not remember more than the offset from which to look for the next match, if it keeps
cutting its text. A search then takes turns: it looks for the first word at its offset or behind,
cuts out what stands before and behind that word to see whether the neighbours leave it alone, and
then ends or goes on from a later offset. Nothing about an offset says that the text can be cut
there, so each cut may be a breach.

This is a second way to do what `Lexicon.next` does from a `Place`, which carries the neighbour and
the rest of the text along. From every place of a text the two end alike, and no cut is a breach
(`nextFrom?_offset`).
-/

namespace DumpMode

def Text.hasAt (text : Text) (offset : Nat) (word : Text) : Bool :=
  text.slice? offset (offset + word.byteLength) == some word

theorem Text.hasAt_iff {text word : Text} {offset : Nat} :
    text.hasAt offset word = true ↔
      ∃ front back, text = front ++ (word ++ back) ∧ byteLength front = offset := by
  simp only [hasAt, beq_iff_eq, slice?_eq_some_iff, and_true]

namespace Words

/-- A word at an offset of a text. -/
structure Occurrence where
  start : Nat
  word : Text
deriving DecidableEq, Repr

namespace Occurrence

def stop (o : Occurrence) : Nat := o.start + o.word.byteLength

/-- Whether the neighbours of the word leave it alone. -/
def standsAlone? (o : Occurrence) (text : Text) : Except Breach Bool := do
  let before ← (Span.atOffsets 0 o.start).slice? text
  let behind ← (Span.atOffsets o.stop text.byteLength).slice? text
  return !before.getLast?.any isWordChar && !behind.head?.any isWordChar

def behindFirst? (o : Occurrence) (text : Text) : Except Breach Nat := do
  let rest ← (Span.atOffsets o.start text.byteLength).slice? text
  return o.start + rest.head?.elim 1 Char.utf8Size

private theorem start_lt_stop {o : Occurrence} (h : o.word ≠ []) : o.start < o.stop := by
  have hpos : 0 < o.word.byteLength := Nat.pos_of_ne_zero (mt Text.byteLength_eq_zero_iff.mp h)
  exact Nat.lt_add_of_pos_right hpos

private theorem start_lt_of_behindFirst? {o : Occurrence} {text : Text} {q : Nat}
    (h : o.behindFirst? text = .ok q) : o.start < q := by
  rw [behindFirst?] at h
  rcases hrest : (Span.atOffsets o.start text.byteLength).slice? text with breach | rest
  · rw [hrest] at h
    cases h
  rw [hrest] at h
  cases h
  -- without a character to step over, the step is one byte
  cases rest with
  | nil => exact Nat.lt_succ_self _
  | cons c rest => exact Nat.lt_add_of_pos_right c.utf8Size_pos

def classify (o : Occurrence) (e : Vocabulary.Entry) : Match where
  text := o.word
  start := o.start
  stop := o.stop
  wordClass := e.wordClass
  group := e.group

end Occurrence

/-- Where the word of a candidate stands. -/
def Candidate.occurrence (c : Candidate) : Occurrence := ⟨c.place.offset, c.word⟩

/-! ## Looking for words -/

namespace Matcher

/-- The word that stands in a text at an offset, the first in order if there are several. -/
def wordAtOffset? (m : Matcher) (text : Text) (offset : Nat) : Option Text :=
  m.words.find? (text.hasAt offset)

/-- The word at the first offset, from the given one on, at which a word stands. To look behind the
end of a text is a breach. -/
def firstFrom? (m : Matcher) (text : Text) (offset : Nat) : Except Breach (Option Occurrence) :=
  if offset ≤ text.byteLength then
    .ok <| (List.range' offset (text.byteLength + 1 - offset)).findSome? fun start ↦
      (m.wordAtOffset? text start).map (⟨start, ·⟩)
  else .error .badSlice

/-- The word that is found stands at the offset, and none stands between it and the offset from
which it was looked for. -/
theorem of_firstFrom?_eq_some {m : Matcher} {text : Text} {offset : Nat} {o : Occurrence}
    (h : m.firstFrom? text offset = .ok (some o)) :
    offset ≤ o.start ∧ m.wordAtOffset? text o.start = some o.word ∧
      ∀ i, offset ≤ i → i < o.start → m.wordAtOffset? text i = none := by
  rw [firstFrom?] at h
  split at h
  case isFalse => cases h
  obtain ⟨passed, start, back, hrange, hword, hpassed⟩ :=
    List.findSome?_eq_some_iff.mp (Except.ok.inj h)
  obtain ⟨w, hw, rfl⟩ := Option.map_eq_some_iff.mp hword
  have hmem : start ∈ passed ++ start :: back := List.mem_append_right _ List.mem_cons_self
  rw [← hrange, List.mem_range'_1] at hmem
  refine ⟨hmem.1, hw, fun i hle hlt ↦ ?_⟩
  have hi : i ∈ passed ++ start :: back := by
    rw [← hrange, List.mem_range'_1]
    dsimp only at hlt
    omega
  -- the offsets grow, so an earlier one has been tried before
  have hgrows : (passed ++ start :: back).Pairwise (· < ·) := hrange ▸ List.pairwise_lt_range'
  rw [List.pairwise_append, List.pairwise_cons] at hgrows
  rcases List.mem_append.mp hi with hi | hi
  · exact Option.map_eq_none_iff.mp (hpassed i hi)
  rcases List.mem_cons.mp hi with rfl | hi
  · exact absurd hlt (Nat.lt_irrefl _)
  · exact absurd hlt (Nat.lt_asymm (hgrows.2.1.1 i hi))

end Matcher

/-! ## Taking turns -/

/-- What a turn of a search leads to. -/
inductive Turn where
  /-- The search ends, with a match or without, and the next one starts at the offset. -/
  | ends (found : Option Match) (position : Nat)
  | goesOn (position : Nat)
deriving DecidableEq, Repr

def Turn.position : Turn → Nat
  | .ends _ position => position
  | .goesOn position => position

namespace Lexicon

/-- What it leads to that a search has found a word. -/
def judge? (l : Lexicon) (text : Text) (o : Occurrence) : Except Breach Turn := do
  if ← o.standsAlone? text then
    match Vocabulary.find? l.rows o.word with
    | some e => return .ends (some (o.classify e)) o.stop
    | none => return .goesOn o.stop
  else return .goesOn (← o.behindFirst? text)

/-- A turn of a search that has come to an offset. -/
def turn? (l : Lexicon) (text : Text) (position : Nat) : Except Breach Turn :=
  if position < text.byteLength then do
    match ← l.matcher.firstFrom? text position with
    | none => return .ends none position
    | some o => l.judge? text o
  else return .ends none position

private theorem start_lt_of_judge? {l : Lexicon} {text : Text} {o : Occurrence} {q : Nat}
    (h : l.judge? text o = .ok (.goesOn q)) (hne : o.word ≠ []) : o.start < q := by
  rw [judge?] at h
  rcases halone : o.standsAlone? text with breach | alone
  · rw [halone] at h
    cases h
  rw [halone] at h
  cases alone with
  | true =>
    rcases hrow : Vocabulary.find? l.rows o.word with _ | e
    · simp only [bind, Except.bind, hrow] at h
      cases h
      exact o.start_lt_stop hne
    · simp only [bind, Except.bind, hrow] at h
      cases h
  | false =>
    rcases hbehind : o.behindFirst? text with breach | r
    · simp only [bind, Except.bind, hbehind] at h
      cases h
    · simp only [bind, Except.bind, hbehind] at h
      cases h
      exact Occurrence.start_lt_of_behindFirst? hbehind

/-- A search goes on only before the end of the text, and only from a later offset. -/
theorem lt_of_turn?_goesOn {l : Lexicon} {text : Text} {position q : Nat}
    (h : l.turn? text position = .ok (.goesOn q)) :
    position < text.byteLength ∧ position < q := by
  rw [turn?] at h
  split at h
  case isFalse => cases h
  rename_i hlt
  rcases hfirst : l.matcher.firstFrom? text position with breach | _ | o
  · rw [hfirst] at h
    cases h
  · rw [hfirst] at h
    cases h
  · rw [hfirst] at h
    obtain ⟨hle, hword, -⟩ := Matcher.of_firstFrom?_eq_some hfirst
    have hne := l.matcher.ne_nil _ (List.mem_of_find?_eq_some hword)
    exact ⟨hlt, Nat.lt_of_le_of_lt hle (start_lt_of_judge? h hne)⟩

/-- The search from an offset: a match or none, and the offset from which the next one starts. -/
def nextFrom? (l : Lexicon) (text : Text) (position : Nat) : Except Breach (Option Match × Nat) :=
  match _h : l.turn? text position with
  | .error breach => .error breach
  | .ok (.ends found q) => .ok (found, q)
  | .ok (.goesOn q) => l.nextFrom? text q
termination_by text.byteLength - position
decreasing_by
  have := lt_of_turn?_goesOn _h
  omega

/-- A search goes on from one offset to another for a number of turns. -/
inductive GoesOn (l : Lexicon) (text : Text) : Nat → Nat → Nat → Prop where
  | refl (p : Nat) : GoesOn l text 0 p p
  | turn {n p q r : Nat} (hturn : l.turn? text p = .ok (.goesOn q)) (hrest : GoesOn l text n q r) :
    GoesOn l text (n + 1) p r

end Lexicon

end Words

end DumpMode
