import DumpMode.Proofs.Words.Cursors
import DumpMode.Proofs.Words.Leftmost

/-!
# Searches that keep to their text

A search by offsets cuts its text at every turn. The offset from which it starts lies between two
characters, and so do all others that it comes to, because it goes on behind a word that it found
or behind the first character of one. So each turn is the one that a search would take from the
place at the offset, where the parts of the text need not be cut out (`turn?_offset`).

A turn that does not end the search leads to a later offset. Hence there are no more of them than
bytes ahead, and the search ends; it ends as it does from place to place (`nextFrom?_offset`).
-/

namespace DumpMode

private theorem Span.slice?_atOffsets {text part : Text} {start stop : Nat}
    (h : text.slice? start stop = some part) : (atOffsets start stop).slice? text = .ok part := by
  rw [slice?]
  dsimp only [atOffsets, Position.atOffset]
  rw [h]

namespace Words

namespace Place

/-! ## Cutting a text at a place -/

variable {text : Text} {p : Place}

private theorem exists_reaches {offset : Nat} (h : Text.isBoundary offset text = true) :
    ∃ p, (start text).Reaches p ∧ p.offset = offset := by
  obtain ⟨front, rest, htext, hfront⟩ := Text.isBoundary_iff.mp h
  refine ⟨⟨front.getLast?, offset, rest⟩, ⟨front, htext, ?_, ?_⟩, rfl⟩
  · rw [hfront, start, Nat.zero_add]
  · rw [start, Option.or_none]

private theorem Reaches.byteLength_eq (h : (start text).Reaches p) :
    text.byteLength = p.offset + p.rest.byteLength := by
  obtain ⟨passed, hrest, hoffset, -⟩ := h
  rw [hoffset, show text = passed ++ p.rest from hrest, Text.byteLength_append, start,
    Nat.zero_add]

private theorem Reaches.exists_slice?_before (h : (start text).Reaches p) :
    ∃ passed, (Span.atOffsets 0 p.offset).slice? text = .ok passed ∧
      passed.getLast? = p.before := by
  obtain ⟨passed, hrest, hoffset, hbefore⟩ := h
  rw [start, Option.or_none] at hbefore
  exact ⟨passed, Span.slice?_atOffsets
    (Text.slice?_eq_some_iff.mpr ⟨[], p.rest, hrest, rfl, hoffset.symm⟩), hbefore.symm⟩

private theorem Reaches.slice?_rest (h : (start text).Reaches p) :
    (Span.atOffsets p.offset text.byteLength).slice? text = .ok p.rest := by
  have hsize := h.byteLength_eq
  obtain ⟨passed, hrest, hoffset, -⟩ := h
  rw [start, Nat.zero_add] at hoffset
  refine Span.slice?_atOffsets (Text.slice?_eq_some_iff.mpr ⟨passed, [], ?_, hoffset.symm, ?_⟩)
  · rw [List.append_nil]
    exact hrest
  · exact hsize.symm

end Place

/-! ## A word that has been found -/

namespace Candidate

variable {text : Text} {c : Candidate} (hplace : (Place.start text).Reaches c.place)

include hplace

private theorem behindFirst?_occurrence (hrest : c.place.rest ≠ []) :
    c.occurrence.behindFirst? text = .ok c.place.next.offset := by
  rw [Occurrence.behindFirst?, occurrence, hplace.slice?_rest]
  obtain ⟨⟨before, offset, rest⟩, word⟩ := c
  cases rest with
  | nil => exact absurd rfl hrest
  | cons d rest => rfl

private theorem standsAlone?_occurrence (hfit : c.word <+: c.place.rest) :
    c.occurrence.standsAlone? text = .ok c.standsAlone := by
  obtain ⟨before, hbefore, hlast⟩ := hplace.exists_slice?_before
  have hbehind : (Span.atOffsets c.occurrence.stop text.byteLength).slice? text
      = .ok c.following := (hplace.trans (Place.reaches_behind hfit)).slice?_rest
  rw [Occurrence.standsAlone?, show c.occurrence.start = c.place.offset from rfl, hbefore, hbehind,
    standsAlone, ← hlast]
  rfl

end Candidate

namespace Lexicon

/-! ## One turn -/

variable {l : Lexicon} {text : Text} {p : Place}

/-- What a candidate leads to. -/
def turnOf (l : Lexicon) (c : Candidate) : Turn :=
  if c.standsAlone then
    match Vocabulary.find? l.rows c.word with
    | some e => .ends (some (c.classify e)) (c.place.behind c.word).offset
    | none => .goesOn (c.place.behind c.word).offset
  else .goesOn c.place.next.offset

private theorem judge?_occurrence {c : Candidate} (hplace : (Place.start text).Reaches c.place)
    (hne : c.word ≠ []) (hfit : c.word <+: c.place.rest) :
    l.judge? text c.occurrence = .ok (l.turnOf c) := by
  have hrest : c.place.rest ≠ [] := fun hnil ↦ hne (List.prefix_nil.mp (hnil ▸ hfit))
  have hbehind := Candidate.behindFirst?_occurrence hplace hrest
  rw [judge?, Candidate.standsAlone?_occurrence hplace hfit, turnOf]
  cases c.standsAlone with
  | true =>
    simp only [bind, Except.bind, if_true, Candidate.occurrence]
    cases Vocabulary.find? l.rows c.word <;> rfl
  | false =>
    simp only [bind, Except.bind, hbehind]
    rfl

/-- **A turn is taken from a place**, and no cut is a breach. -/
theorem turn?_offset (h : (Place.start text).Reaches p) :
    l.turn? text p.offset
      = .ok ((p.search? l.matcher).elim (.ends none p.offset) l.turnOf) := by
  have hsize := h.byteLength_eq
  rw [turn?]
  by_cases hlt : p.offset < text.byteLength
  · rw [if_pos hlt, Matcher.firstFrom?_offset h]
    rcases hc : p.search? l.matcher with _ | c
    · rfl
    · obtain ⟨hmem, hfit, -⟩ := Place.search?_sound hc
      exact judge?_occurrence (h.trans (Place.reaches_of_search? hc)) (l.matcher.ne_nil _ hmem) hfit
  · -- at the end of the text there is nothing left to search
    have hrest : p.rest = [] := Text.byteLength_eq_zero_iff.mp (by omega)
    rw [if_neg hlt, Place.search?, hrest, Matcher.search?]
    rfl

/-- A candidate leads to a place behind the one where it was looked for. -/
private theorem exists_reaches_turnOf {c : Candidate} (hc : p.search? l.matcher = some c) :
    ∃ q, p.Reaches q ∧ q.offset = (l.turnOf c).position := by
  have hplace := Place.reaches_of_search? hc
  have hbehind := hplace.trans (Place.reaches_behind (Place.search?_sound hc).2.1)
  rw [turnOf]
  split
  · split
    · exact ⟨_, hbehind, rfl⟩
    · exact ⟨_, hbehind, rfl⟩
  · exact ⟨_, hplace.trans (Place.reaches_next c.place), rfl⟩

/-- A candidate that stands alone ends the search, since its row is there. -/
private theorem standsAlone_eq_false_of_goesOn {rows : List Vocabulary.Entry} {c : Candidate}
    {q : Nat} (hc : p.search? (ofRows rows).matcher = some c)
    (hturn : (ofRows rows).turnOf c = .goesOn q) : c.standsAlone = false := by
  obtain ⟨e, he⟩ := exists_find?_of_wordAt? (matchesAhead_of_search? hc).2
  rw [Bool.eq_false_iff]
  intro halone
  rw [turnOf, if_pos halone, show Vocabulary.find? (ofRows rows).rows c.word = some e from he]
    at hturn
  cases hturn

/-- Whether a turn from an offset keeps to the text. -/
structure KeepsTo (l : Lexicon) (text : Text) (position : Nat) : Prop where
  /-- No cut is a breach, and the turn leads to another boundary, which is not before the offset. -/
  exists_turn : ∃ t, l.turn? text position = .ok t ∧ text.isBoundary t.position = true ∧
    position ≤ t.position ∧ t.position ≤ text.byteLength
  /-- If the search goes on, it goes on from a later offset. -/
  lt_of_goesOn : ∀ q, l.turn? text position = .ok (.goesOn q) → position < q
  /-- It goes on only if a word has been found that does not stand alone. -/
  rejects_of_goesOn : ∀ q, l.turn? text position = .ok (.goesOn q) →
    ∃ o, l.matcher.firstFrom? text position = .ok (some o) ∧ o.standsAlone? text = .ok false
  /-- A word that has been found has a row. -/
  exists_entry : ∀ o, l.matcher.firstFrom? text position = .ok (some o) →
    ∃ e ∈ l.rows, e.word = o.word ∧ Vocabulary.find? l.rows o.word = some e

/-- **One turn**: from a boundary of a text, a turn keeps to the text. -/
theorem keepsTo_ofRows (rows : List Vocabulary.Entry) {position : Nat}
    (h : text.isBoundary position = true) : (ofRows rows).KeepsTo text position := by
  obtain ⟨p, hp, rfl⟩ := Place.exists_reaches h
  constructor
  case exists_turn =>
    refine ⟨_, turn?_offset hp, ?_⟩
    rcases hc : p.search? (ofRows rows).matcher with _ | c
    · exact ⟨h, Nat.le_refl _, hp.offset_le_byteLength⟩
    · -- a candidate leads on to a place that is reached, and places are boundaries
      obtain ⟨q, hq, hoffset⟩ := exists_reaches_turnOf hc
      have hreach := hp.trans hq
      rw [Option.elim_some, ← hoffset]
      exact ⟨hreach.isBoundary, hq.offset_le, hreach.offset_le_byteLength⟩
  case lt_of_goesOn => exact fun _ hturn ↦ (lt_of_turn?_goesOn hturn).2
  case rejects_of_goesOn =>
    intro q hturn
    rw [turn?_offset hp, Except.ok.injEq] at hturn
    rcases hc : p.search? (ofRows rows).matcher with _ | c
    · rw [hc] at hturn
      -- a turn that finds nothing does not go on
      cases hturn
    · rw [hc, Option.elim_some] at hturn
      have halone := standsAlone_eq_false_of_goesOn hc hturn
      refine ⟨c.occurrence, ?_, ?_⟩
      · rw [Matcher.firstFrom?_offset hp, hc, Option.map_some]
      · rw [Candidate.standsAlone?_occurrence (hp.trans (Place.reaches_of_search? hc))
          (Place.search?_sound hc).2.1, halone]
  case exists_entry =>
    intro o ho
    rw [Matcher.firstFrom?_offset hp, Except.ok.injEq] at ho
    obtain ⟨c, hc, rfl⟩ := Option.map_eq_some_iff.mp ho
    obtain ⟨e, he⟩ := exists_find?_of_wordAt? (matchesAhead_of_search? hc).2
    obtain ⟨hrow, hword⟩ := Vocabulary.of_find?_eq_some he
    exact ⟨e, hrow, hword, he⟩

/-! ## A whole search -/

/-- **Any number of turns**, by induction on them: a search that has gone on for some turns has
come to a boundary, and passed as many bytes at least. -/
theorem GoesOn.add_le {rows : List Vocabulary.Entry} {n position q : Nat}
    (h : (ofRows rows).GoesOn text n position q) (hposition : text.isBoundary position = true) :
    text.isBoundary q = true ∧ position + n ≤ q := by
  induction h with
  | refl p => exact ⟨hposition, Nat.le_refl _⟩
  | @turn n p r q hturn _ ih =>
    obtain ⟨t, ht, hboundary, -⟩ := (keepsTo_ofRows rows hposition).exists_turn
    obtain rfl : t = .goesOn r := Except.ok.inj (ht.symm.trans hturn)
    obtain ⟨hq, hle⟩ := ih hboundary
    have hlt := (keepsTo_ofRows rows hposition).lt_of_goesOn r hturn
    exact ⟨hq, by omega⟩

private theorem nextFrom?_of_ends {position q : Nat} {found : Option Match}
    (h : l.turn? text position = .ok (.ends found q)) :
    l.nextFrom? text position = .ok (found, q) := by
  rw [nextFrom?]
  split
  · rename_i hturn
    cases h.symm.trans hturn
  · rename_i hturn
    cases h.symm.trans hturn
    rfl
  · rename_i hturn
    cases h.symm.trans hturn

private theorem nextFrom?_of_goesOn {position q : Nat}
    (h : l.turn? text position = .ok (.goesOn q)) :
    l.nextFrom? text position = l.nextFrom? text q := by
  rw [nextFrom?]
  split
  · rename_i hturn
    cases h.symm.trans hturn
  · rename_i hturn
    cases h.symm.trans hturn
  · rename_i hturn
    cases h.symm.trans hturn
    rfl

/-- **A search by offsets ends, as it does from place to place**, and no cut is a breach. -/
theorem nextFrom?_offset (h : (Place.start text).Reaches p) :
    l.nextFrom? text p.offset = .ok ((l.next p).1, (l.next p).2.offset) := by
  fun_induction next l p with
  | case1 p hc =>
    have hturn := turn?_offset (l := l) h
    rw [hc] at hturn
    exact nextFrom?_of_ends hturn
  | case2 p c hc halone e he =>
    have hturn := turn?_offset (l := l) h
    rw [hc, Option.elim_some, turnOf, if_pos halone, he] at hturn
    exact nextFrom?_of_ends hturn
  | case3 p c hc halone he ih =>
    have hturn := turn?_offset (l := l) h
    have hbehind := Place.reaches_behind (Place.search?_sound hc).2.1
    rw [hc, Option.elim_some, turnOf, if_pos halone, he] at hturn
    rw [nextFrom?_of_goesOn hturn]
    exact ih ((h.trans (Place.reaches_of_search? hc)).trans hbehind)
  | case4 p c hc halone ih =>
    have hturn := turn?_offset (l := l) h
    rw [hc, Option.elim_some, turnOf, if_neg halone] at hturn
    rw [nextFrom?_of_goesOn hturn]
    exact ih ((h.trans (Place.reaches_of_search? hc)).trans (Place.reaches_next c.place))

end Lexicon

/-! ## Walks -/

namespace Scan

private theorem lexicon_nth (s : Scan) (k : Nat) : (s.nth k).2.lexicon = s.lexicon := by
  induction k generalizing s with
  | zero => rfl
  | succ k ih =>
    rw [nth]
    rcases hs : s.next with ⟨_ | m, s'⟩
    · exact congrArg (·.2.lexicon) hs.symm
    · exact (ih s').trans (congrArg (·.2.lexicon) hs.symm)

private theorem lexicon_answer (s : Scan) (r : Request) : (s.answer r).2.lexicon = s.lexicon := by
  cases r with
  | nth k => exact s.lexicon_nth k
  | next | drain | count | reset => rfl

private theorem reaches_of_mem_playAll {l : Lexicon} {text : Text} {moves : List Move} {s : Scan}
    (hs : s ∈ (playAll Scan.answer [start l text] moves).2) :
    s.lexicon = l ∧ (Place.start text).Reaches s.place := by
  have hstart : List.Forall₂
      (fun (s : Scan) k ↦ s.lexicon = l ∧ s.StandsAt (l.matchesIn text) text k)
      [start l text] [0] := .cons ⟨rfl, standsAt_start l text⟩ .nil
  obtain ⟨-, hfamily⟩ := playAll_eq_playAll (fun s _ r h ↦
    ⟨(h.2.answer r).1, (s.lexicon_answer r).trans h.1, (h.2.answer r).2⟩) hstart moves
  obtain ⟨i, hi⟩ := List.mem_iff_getElem?.mp hs
  obtain ⟨k, hlexicon, hstands⟩ := exists_of_forall₂ hfamily hi
  exact ⟨hlexicon, hstands.reaches_place⟩

end Scan

/-- **Searches keep to their text and end.** Whatever the choices of the user are, whatever is asked
of the walks over a text and of their copies, each walk is at a boundary of the text. A search from
there ends as the walk says, without a breach; the boundaries it comes to grow from turn to turn,
so it goes on for no more turns than there are bytes ahead. Each turn cuts the text at boundaries
only, and the word it finds has a row. -/
theorem Classifier.keepsTo_scan (p : WordPreferences) :
    ∃ c : Classifier, (Classifier.standard p).value = .ok c ∧ ∀ text : Text,
      (∀ moves : List Move, ∀ s ∈ (playAll Scan.answer [c.scan text] moves).2,
        text.isBoundary s.position = true ∧ s.position ≤ text.byteLength ∧
        c.lexicon.nextFrom? text s.position = .ok (s.next.1, s.next.2.position) ∧
        ∀ n q, c.lexicon.GoesOn text n s.position q →
          text.isBoundary q = true ∧ s.position + n ≤ q ∧ q ≤ text.byteLength) ∧
      ∀ position, text.isBoundary position = true → c.lexicon.KeepsTo text position := by
  refine ⟨⟨.standard, p⟩, value_standard p, fun text ↦
    ⟨fun moves s hs ↦ ?_, fun position ↦ Lexicon.keepsTo_ofRows Vocabulary.table⟩⟩
  obtain ⟨hlexicon, hreach⟩ := Scan.reaches_of_mem_playAll hs
  refine ⟨hreach.isBoundary, hreach.offset_le_byteLength, ?_, fun n q hgoes ↦ ?_⟩
  · rw [Scan.next, hlexicon]
    exact Lexicon.nextFrom?_offset hreach
  · obtain ⟨hq, hle⟩ := Lexicon.GoesOn.add_le hgoes hreach.isBoundary
    obtain ⟨q, hq', rfl⟩ := Place.exists_reaches hq
    exact ⟨hq, hle, hq'.offset_le_byteLength⟩

end Words

end DumpMode
