import DumpMode.Proofs.Words.Matches
import DumpMode.Proofs.Words.Places
import DumpMode.Words.Walks
import Mathlib.Data.List.Forall2

/-!
# Walks are cursors

A walk remembers nothing but the place where the next search starts. Rejected candidates move that
place, and a search that fails may leave it anywhere behind the last match, so many places stand
for one and the same number of matches passed. `Scan.StandsAt` relates a walk to that number: what
the walk would still find are the matches that are left. Each request keeps the relation and is
answered as a cursor answers it, whatever the place is; so a family of walks, copied and asked in
any order, cannot be told from a family of cursors into the list of all matches.
-/

namespace DumpMode.Words

/-! ## Draining a walk -/

namespace Lexicon

variable {l : Lexicon}

/-- The matches found before stand in front of those that are still found. -/
private theorem collect_eq (l : Lexicon) (found : List Match) (p : Place) :
    l.collect found p = (found.reverse ++ (l.collect [] p).1, (l.collect [] p).2) := by
  induction hlength : p.rest.length using Nat.strongRecOn generalizing p found with
  | ind n ih =>
    rw [collect, collect]
    split
    · simp
    · rename_i m q hnext
      have hlt : q.rest.length < n := hlength ▸ length_lt_of_next hnext
      rw [ih _ hlt (m :: found) q rfl, ih _ hlt [m] q rfl]
      simp

end Lexicon

namespace Scan

private theorem drain_eq_next (s : Scan) :
    s.drain = s.next.1.elim ([], s.next.2) fun m ↦ (m :: s.next.2.drain.1, s.next.2.drain.2) := by
  obtain ⟨l, text, p⟩ := s
  rw [drain, next]
  dsimp only
  rw [Lexicon.collect]
  split
  · rename_i q hnext
    rw [hnext]
    rfl
  · rename_i m q hnext
    rw [hnext, Lexicon.collect_eq]
    rfl

/-! ## Where a walk stands -/

/-- Whether a walk over a text has passed the first `k` of the matches that there are. -/
structure StandsAt (found : List Match) (text : Text) (s : Scan) (k : Nat) : Prop where
  text_eq : s.text = text
  matchesIn_eq : s.lexicon.matchesIn text = found
  /-- The next search starts in the text. -/
  reaches_place : (Place.start text).Reaches s.place
  le_length : k ≤ found.length
  /-- The walk would still find the others. -/
  drain_eq : s.drain.1 = found.drop k
  /-- The next search starts behind the matches that are passed. -/
  stop_le : ∀ i m, i < k → found[i]? = some m → m.stop ≤ s.position

theorem standsAt_start (l : Lexicon) (text : Text) :
    StandsAt (l.matchesIn text) text (start l text) 0 where
  text_eq := rfl
  matchesIn_eq := rfl
  reaches_place := Place.reaches_refl _
  le_length := Nat.zero_le _
  drain_eq := rfl
  stop_le i _ hi := absurd hi (Nat.not_lt_zero i)

/-- A request has been answered as by a cursor that has passed `k` matches and goes on to `k'`. -/
structure Advances (found : List Match) (text : Text) (s s' : Scan) (k' : Nat) : Prop where
  standsAt : s'.StandsAt found text k'
  reaches : s.place.Reaches s'.place

section

variable {found : List Match} {text : Text} {s : Scan} {k : Nat}

/-- **One step**: the next match is the one at the cursor, and the cursor moves on, unless it is
at the end. -/
private theorem StandsAt.next (h : s.StandsAt found text k) :
    s.next.1 = found[k]? ∧ Advances found text s s.next.2 (min (k + 1) found.length) := by
  have hends := s.lexicon.ends_next s.place
  have hdrain := h.drain_eq
  rw [drain_eq_next] at hdrain
  rw [Scan.next] at hdrain ⊢
  rcases hnext : s.lexicon.next s.place with ⟨o, q⟩
  rw [hnext] at hends hdrain
  cases hends with
  | exhausted hreach hstays =>
    -- nothing is left, so the cursor is at the end and stays there
    have hlength : found.length ≤ k := List.drop_eq_nil_iff.mp hdrain.symm
    have hk : min (k + 1) found.length = k := by have := h.le_length; omega
    refine ⟨(List.getElem?_eq_none hlength).symm, ⟨?_, hreach⟩⟩
    rw [hk]
    refine ⟨h.text_eq, h.matchesIn_eq, h.reaches_place.trans hreach, h.le_length, ?_, ?_⟩
    · rw [drain_eq_next, Scan.next]
      dsimp only
      rw [hstays]
      exact hdrain
    · intro i m hi hm
      exact Nat.le_trans (h.stop_le i m hi hm) hreach.offset_le
  | @found m _ hreach hstart hstop =>
    -- the match that is reported is the first of those that are left
    have hm : found[k]? = some m := by
      rw [← List.head?_drop, ← hdrain]
      rfl
    have hlt : k < found.length := (List.getElem?_eq_some_iff.mp hm).1
    have hk : min (k + 1) found.length = k + 1 := by omega
    refine ⟨hm.symm, ⟨?_, hreach⟩⟩
    rw [hk]
    refine ⟨h.text_eq, h.matchesIn_eq, h.reaches_place.trans hreach, hlt, ?_, ?_⟩
    · rw [← List.tail_drop, ← hdrain]
      rfl
    · intro i m' hi hm'
      rcases Nat.lt_succ_iff_lt_or_eq.mp hi with hi | rfl
      · exact Nat.le_trans (h.stop_le i m' hi hm') hreach.offset_le
      · obtain rfl : m = m' := Option.some.inj (hm.symm.trans hm')
        exact Nat.le_of_eq hstop

private theorem Advances.trans {s' s'' : Scan} {k' k'' : Nat} (h : Advances found text s s' k')
    (h' : Advances found text s' s'' k'') : Advances found text s s'' k'' :=
  ⟨h'.standsAt, h.reaches.trans h'.reaches⟩

private theorem StandsAt.nth (h : s.StandsAt found text k) (n : Nat) :
    (s.nth n).1 = found[k + n]? ∧
      Advances found text s (s.nth n).2 (min (k + n + 1) found.length) := by
  induction n generalizing s k with
  | zero => exact h.next
  | succ n ih =>
    obtain ⟨hfound, hadvances⟩ := h.next
    rw [Scan.nth]
    rcases hs : s.next with ⟨o, s'⟩
    rw [hs] at hfound hadvances
    cases o with
    | none =>
      -- the walk stops early, and the cursor is at the end
      have hlength : found.length ≤ k := List.getElem?_eq_none_iff.mp hfound.symm
      refine ⟨(List.getElem?_eq_none (by omega)).symm, ?_⟩
      rwa [show min (k + (n + 1) + 1) found.length = min (k + 1) found.length from by omega]
    | some m =>
      have hlt : k < found.length := (List.getElem?_eq_some_iff.mp hfound.symm).1
      rw [show min (k + 1) found.length = k + 1 from by omega] at hadvances
      obtain ⟨hfound', hadvances'⟩ := ih hadvances.standsAt
      rw [show k + 1 + n = k + (n + 1) from by omega] at hfound' hadvances'
      exact ⟨hfound', hadvances.trans hadvances'⟩

private theorem StandsAt.drain (h : s.StandsAt found text k) :
    Advances found text s s.drain.2 found.length := by
  induction hleft : found.length - k generalizing s k with
  | zero =>
    obtain ⟨hfound, hadvances⟩ := h.next
    have hlength : found.length ≤ k := by omega
    rw [List.getElem?_eq_none hlength] at hfound
    rw [drain_eq_next, hfound, Option.elim_none]
    rwa [show min (k + 1) found.length = found.length from by omega] at hadvances
  | succ n ih =>
    obtain ⟨hfound, hadvances⟩ := h.next
    have hlt : k < found.length := by omega
    rw [List.getElem?_eq_getElem hlt] at hfound
    rw [drain_eq_next, hfound, Option.elim_some]
    exact hadvances.trans (ih hadvances.standsAt (by omega))

/-- **Each request is answered as by a cursor**, and takes the walk where it takes the cursor. -/
theorem StandsAt.answer (h : s.StandsAt found text k) (r : Request) :
    (s.answer r).1 = (cursorAnswer found k r).1 ∧
      (s.answer r).2.StandsAt found text (cursorAnswer found k r).2 := by
  cases r with
  | next => exact ⟨congrArg Answer.found h.next.1, h.next.2.standsAt⟩
  | nth n => exact ⟨congrArg Answer.found (h.nth n).1, (h.nth n).2.standsAt⟩
  | drain => exact ⟨congrArg Answer.all h.drain_eq, h.drain.standsAt⟩
  | count =>
    refine ⟨congrArg Answer.number ?_, h⟩
    rw [h.drain_eq, List.length_drop]
  | reset =>
    have hstart := standsAt_start s.lexicon text
    rw [h.matchesIn_eq] at hstart
    refine ⟨rfl, ?_⟩
    rw [Scan.answer, Scan.reset, h.text_eq]
    exact hstart

private theorem StandsAt.position_le (h : s.StandsAt found text k) {r : Request} (hr : r ≠ .reset) :
    s.position ≤ (s.answer r).2.position := by
  cases r with
  | next => exact h.next.2.reaches.offset_le
  | nth n => exact (h.nth n).2.reaches.offset_le
  | drain => exact h.drain.reaches.offset_le
  | count => exact Nat.le_refl _
  | reset => exact absurd rfl hr

end

/-! ## Bounds on the position -/

/-- How far a walk has come in a text when it has passed `k` of its matches. -/
structure Bounds (found : List Match) (text : Text) (k position : Nat) : Prop where
  /-- The walk is behind the matches that it has passed. -/
  stop_le : ∀ i m, i < k → found[i]? = some m → m.stop ≤ position
  /-- It is not behind the start of the next one. -/
  le_start : ∀ m, found[k]? = some m → position ≤ m.start
  le_byteLength : position ≤ text.byteLength

variable {found : List Match} {text : Text} {s : Scan} {k : Nat}

private theorem StandsAt.bounds (h : s.StandsAt found text k) : Bounds found text k s.position where
  stop_le := h.stop_le
  le_start m hm := by
    have hends := s.lexicon.ends_next s.place
    have hfound := h.next.1
    rw [hm, Scan.next] at hfound
    rcases hnext : s.lexicon.next s.place with ⟨o, q⟩
    rw [hnext] at hends hfound
    dsimp only at hfound
    subst hfound
    cases hends with
    | found _ hstart _ => exact hstart
  le_byteLength := h.reaches_place.offset_le_byteLength

private theorem StandsAt.next_answer_eq_none (h : s.StandsAt found text k) (hnone : s.next.1 = none)
    {r : Request} (hr : r ≠ .reset) : (s.answer r).2.next.1 = none := by
  have hlength : found.length ≤ k := List.getElem?_eq_none_iff.mp (h.next.1.symm.trans hnone)
  rw [(h.answer r).2.next.1, List.getElem?_eq_none_iff]
  cases r with
  | next | nth _ => simp only [cursorAnswer]; omega
  | drain => exact Nat.le_refl _
  | count => exact hlength
  | reset => exact absurd rfl hr

end Scan

/-! ## Families -/

section Family

variable {σ τ : Type} {R : σ → τ → Prop} {ss : List σ} {ts : List τ}

private theorem getElem?_cases_of_forall₂ (h : List.Forall₂ R ss ts) (i : Nat) :
    ss[i]? = none ∧ ts[i]? = none ∨ ∃ s t, ss[i]? = some s ∧ ts[i]? = some t ∧ R s t := by
  induction h generalizing i with
  | nil => exact Or.inl ⟨rfl, rfl⟩
  | cons hR _ ih =>
    cases i with
    | zero => exact Or.inr ⟨_, _, rfl, rfl, hR⟩
    | succ i => exact ih i

theorem exists_of_forall₂ (h : List.Forall₂ R ss ts) {i : Nat} {s : σ} (hs : ss[i]? = some s) :
    ∃ t, R s t := by
  rcases getElem?_cases_of_forall₂ h i with ⟨hnone, -⟩ | ⟨s', t, hs', -, hR⟩
  · cases hs.symm.trans hnone
  · obtain rfl : s = s' := Option.some.inj (hs.symm.trans hs')
    exact ⟨t, hR⟩

private theorem forall₂_set (h : List.Forall₂ R ss ts) (i : Nat) {s : σ} {t : τ} (hR : R s t) :
    List.Forall₂ R (ss.set i s) (ts.set i t) := by
  induction h generalizing i with
  | nil => exact .nil
  | cons hR' hrest ih =>
    cases i with
    | zero => exact .cons hR hrest
    | succ i => exact .cons hR' (ih i)

variable {answer : σ → Request → Answer × σ} {answer' : τ → Request → Answer × τ}
  (hanswer : ∀ s t r, R s t → (answer s r).1 = (answer' t r).1 ∧ R (answer s r).2 (answer' t r).2)

include hanswer

/-- **One move**: if members that are related answer alike and stay related, then a move has the
same answer in two families of related members, and their members stay related. -/
private theorem Move.play_eq_play (h : List.Forall₂ R ss ts) (move : Move) :
    (move.play answer ss).1 = (move.play answer' ts).1 ∧
      List.Forall₂ R (move.play answer ss).2 (move.play answer' ts).2 := by
  cases move with
  | ask i r =>
    rw [Move.play, Move.play]
    rcases getElem?_cases_of_forall₂ h i with ⟨hs, ht⟩ | ⟨s, t, hs, ht, hR⟩
    · rw [hs, ht]
      exact ⟨rfl, h⟩
    · rw [hs, ht]
      obtain ⟨hsame, hR'⟩ := hanswer s t r hR
      exact ⟨congrArg some hsame, forall₂_set h i hR'⟩
  | copy i =>
    rw [Move.play, Move.play]
    rcases getElem?_cases_of_forall₂ h i with ⟨hs, ht⟩ | ⟨s, t, hs, ht, hR⟩
    · rw [hs, ht]
      exact ⟨rfl, h⟩
    · rw [hs, ht]
      exact ⟨rfl, List.rel_append h (.cons hR .nil)⟩

/-- **Any number of moves**, one after the other, by induction on them. -/
theorem playAll_eq_playAll (h : List.Forall₂ R ss ts) (moves : List Move) :
    (playAll answer ss moves).1 = (playAll answer' ts moves).1 ∧
      List.Forall₂ R (playAll answer ss moves).2 (playAll answer' ts moves).2 := by
  induction moves generalizing ss ts with
  | nil => exact ⟨rfl, h⟩
  | cons move moves ih =>
    obtain ⟨hsame, hfamily⟩ := Move.play_eq_play hanswer h move
    obtain ⟨hrest, hfamily'⟩ := ih hfamily
    refine ⟨?_, hfamily'⟩
    rw [playAll, playAll]
    exact congrArg₂ List.cons hsame hrest

end Family

private theorem Move.getElem?_play {σ : Type} {answer : σ → Request → Answer × σ} {family : List σ}
    {i : Nat} {s : σ} (hs : family[i]? = some s) (move : Move) :
    (∀ r, move ≠ .ask i r) ∧ (move.play answer family).2[i]? = some s ∨
      ∃ r, move = .ask i r ∧ (move.play answer family).2[i]? = some (answer s r).2 := by
  have hlt := (List.getElem?_eq_some_iff.mp hs).1
  cases move with
  | ask j r =>
    rw [Move.play]
    by_cases hij : j = i
    · subst hij
      rw [hs]
      exact Or.inr ⟨r, rfl, List.getElem?_set_self hlt⟩
    · refine Or.inl ⟨fun r' hr' ↦ hij (Move.ask.inj hr').1, ?_⟩
      cases family[j]? with
      | none => exact hs
      | some t => exact (List.getElem?_set_ne hij).trans hs
  | copy j =>
    refine Or.inl ⟨fun r ↦ Move.noConfusion, ?_⟩
    rw [Move.play]
    cases family[j]? with
    | none => exact hs
    | some t => exact (List.getElem?_append_left hlt).trans hs

/-! ## Walks over a text -/

namespace Scan

variable {found : List Match} {text : Text} {s : Scan}

private theorem exists_standsAt {walks : List Scan} {cursors : List Nat}
    (h : List.Forall₂ (StandsAt found text) walks cursors) {i : Nat} (hs : walks[i]? = some s) :
    ∃ k, s.StandsAt found text k := exists_of_forall₂ h hs

private theorem StandsAt.position_play {k : Nat} (h : s.StandsAt found text k) {family : List Scan}
    {i : Nat} (hs : family[i]? = some s) (move : Move) {s' : Scan}
    (hs' : (move.play Scan.answer family).2[i]? = some s') :
    if move = .ask i .reset then s'.position = 0 else s.position ≤ s'.position := by
  rcases Move.getElem?_play hs move with ⟨hother, hkept⟩ | ⟨r, rfl, hasked⟩
  · obtain rfl : s = s' := Option.some.inj (hkept.symm.trans hs')
    exact (if_neg (hother _)).mpr (Nat.le_refl _)
  · obtain rfl : (s.answer r).2 = s' := Option.some.inj (hasked.symm.trans hs')
    by_cases hr : r = .reset
    · subst hr
      exact (if_pos rfl).mpr rfl
    · exact (if_neg fun hreset ↦ hr (Move.ask.inj hreset).2).mpr (h.position_le hr)

end Scan

/-- **A family of walks over a text is a family of cursors** into the list of its matches. Whatever
is asked of its members and whichever are copied, in any order, the answers are those of cursors;
the position of each walk is between the match that its cursor has passed last and the next one,
and only going back to the start moves it back. -/
theorem Classifier.playAll_scan (c : Classifier) (text : Text) (moves : List Move) :
    let found := (c.classify text).value
    let walks := playAll Scan.answer [c.scan text] moves
    let cursors := playAll (cursorAnswer found) [0] moves
    walks.1 = cursors.1 ∧
      List.Forall₂ (fun s k ↦ Scan.Bounds found text k s.position) walks.2 cursors.2 ∧
      (∀ s ∈ walks.2, s.next.1 = none → ∀ r, r ≠ .reset → (s.answer r).2.next.1 = none) ∧
      (c.scan text).position = 0 ∧
      ∀ (move : Move) (i : Nat) (s s' : Scan), walks.2[i]? = some s →
        (move.play Scan.answer walks.2).2[i]? = some s' →
        if move = .ask i .reset then s'.position = 0 else s.position ≤ s'.position := by
  intro found walks cursors
  have hstart : List.Forall₂ (Scan.StandsAt found text) [c.scan text] [0] := by
    refine .cons ?_ .nil
    rw [show found = c.lexicon.matchesIn text from c.value_classify text]
    exact Scan.standsAt_start _ _
  obtain ⟨hsame, hfamily⟩ := playAll_eq_playAll (fun _ _ r h ↦ h.answer r) hstart moves
  refine ⟨hsame, hfamily.imp fun _ _ h ↦ h.bounds, fun s hs hnone r hr ↦ ?_, rfl, ?_⟩
  · obtain ⟨i, hi⟩ := List.mem_iff_getElem?.mp hs
    obtain ⟨k, h⟩ := Scan.exists_standsAt hfamily hi
    exact h.next_answer_eq_none hnone hr
  · intro move i s s' hs hs'
    obtain ⟨k, h⟩ := Scan.exists_standsAt hfamily hs
    exact h.position_play hs move hs'

end DumpMode.Words
