import DumpMode.Editor.Adapter
import DumpMode.Proofs.Editor.Scans
import DumpMode.Proofs.Folding.Partners
import DumpMode.Proofs.Words.Matches

/-!
# Tags and braces side by side

The words and the braces of a text are found apart, and neither search knows of the other. Their
results fit together all the same, because a brace is no word character: a run of word characters
can neither hold one nor reach across it. So the tags and the braces of a snapshot, put in order,
are a sequence of pieces of the text none of which begins before the one in front of it has ended.
-/

namespace DumpMode

/-- A character that ends behind the beginning of a stretch of a text and begins before its end is
one of the stretch. -/
private theorem Text.mem_of_append_eq {front word back before behind : Text} {c : Char}
    (h : front ++ (word ++ back) = before ++ c :: behind)
    (hstart : front.byteLength < before.byteLength + c.utf8Size)
    (hstop : before.byteLength < front.byteLength + word.byteLength) : c ∈ word := by
  -- the front ends before the character
  obtain ⟨inner, rfl⟩ : ∃ inner, before = front ++ inner := by
    rcases List.append_eq_append_iff.mp h with ⟨inner, hinner, -⟩ | ⟨rest, hrest, hbehind⟩
    · exact ⟨inner, hinner⟩
    · cases rest with
      | nil => exact ⟨[], by rw [hrest, List.append_nil, List.append_nil]⟩
      | cons d rest =>
        obtain ⟨rfl, -⟩ := List.cons.inj hbehind
        rw [hrest, byteLength_append, byteLength_cons] at hstart
        omega
  rw [byteLength_append] at hstop
  rw [List.append_assoc, List.append_cancel_left_eq] at h
  -- and what is left of the word there is not nothing
  rcases List.append_eq_append_iff.mp h with ⟨rest, hrest, -⟩ | ⟨rest, hrest, htail⟩
  · rw [hrest, byteLength_append] at hstop
    omega
  · cases rest with
    | nil =>
      rw [hrest, List.append_nil] at hstop
      omega
    | cons d rest =>
      obtain ⟨rfl, -⟩ := List.cons.inj htail
      rw [hrest]
      exact List.mem_append_right _ List.mem_cons_self

namespace Words

private theorem isWordChar_of_mem_runs {text before behind : Text} {c : Char}
    (htext : text = before ++ c :: behind) {r : Run} (hr : r ∈ runs text)
    (hstart : r.start < before.byteLength + c.utf8Size)
    (hstop : before.byteLength < r.start + r.text.byteLength) : isWordChar c = true := by
  obtain ⟨front, back, htext', hfront, hfills⟩ := mem_runs_iff.mp hr
  rw [hfront] at hstart hstop
  exact hfills.isWordChar_of_mem c
    (Text.mem_of_append_eq (htext'.symm.trans htext) hstart hstop)

/-- **There is something between any two runs**, namely the character in front of the second. -/
theorem pairwise_runs_apart (text : Text) :
    (runs text).Pairwise fun r s ↦ r.start + r.text.byteLength < s.start := by
  refine (pairwise_runs text).imp_of_mem ?_
  intro r s hr hs hlt
  obtain ⟨front, back, htext, hstart, hfills⟩ := mem_runs_iff.mp hs
  rcases List.eq_nil_or_concat front with rfl | ⟨before, c, rfl⟩
  · rw [hstart] at hlt
    exact absurd hlt (Nat.not_lt_zero _)
  · have hc : isWordChar c = false := by simpa using hfills.before_any
    have hpos := c.utf8Size_pos
    rw [List.concat_eq_append] at htext hstart
    rw [List.append_assoc] at htext
    rw [Text.byteLength_append, Text.byteLength_cons, Text.byteLength_nil] at hstart
    by_contra hle
    have hword := isWordChar_of_mem_runs htext hr (by omega) (by omega)
    exact Bool.false_ne_true (hc.symm.trans hword)

private theorem pairwise_matchesIn_apart (text : Text) :
    (Lexicon.standard.matchesIn text).Pairwise fun m m' ↦ m.stop < m'.start := by
  rw [Lexicon.matchesIn_standard]
  refine (pairwise_runs_apart text).filterMap _ ?_
  intro r s hrs m hm m' hm'
  obtain ⟨e, -, rfl⟩ := Option.map_eq_some_iff.mp hm
  obtain ⟨e', -, rfl⟩ := Option.map_eq_some_iff.mp hm'
  exact hrs

end Words

/-! ## Braces -/

namespace Folding

/-- The offsets of all braces that regions begin or end at, and of those that are left over. -/
def Folds.braceOffsets (f : Folds) : List Nat :=
  f.regions.map (·.opening) ++ (f.regions.filterMap (·.closing) ++ f.unbalanced)

private theorem Folds.perm_braceOffsets (bs : List Brace) :
    (ofBraces bs).braceOffsets.Perm (bs.map (·.offset)) := by
  have hperm := (List.filter_append_perm (fun b : Brace ↦ b.opens) bs).map (·.offset)
  rw [List.map_append] at hperm
  rw [braceOffsets, map_opening_regions]
  exact ((perm_closings bs).append_left _).trans hperm

private theorem Folds.nodup_braceOffsets (skipQuoted : Bool) (text : Text) :
    (ofText skipQuoted text).braceOffsets.Nodup := by
  rw [ofText, (perm_braceOffsets _).nodup_iff]
  exact List.Pairwise.map _ (fun _ _ h ↦ Nat.ne_of_lt h) (pairwise_braces skipQuoted text)

private theorem Folds.exists_braceAt {skipQuoted : Bool} {text : Text} {o : Nat}
    (ho : o ∈ (ofText skipQuoted text).braceOffsets) :
    ∃ opens, BraceAt skipQuoted text opens o := by
  rw [ofText, (perm_braceOffsets _).mem_iff, List.mem_map] at ho
  obtain ⟨b, hb, hoffset⟩ := ho
  exact ⟨b.opens, exists_mem_braces_iff.mp ⟨b, hb, rfl, hoffset⟩⟩

end Folding

namespace Editor

/-! ## Pieces -/

structure Piece where
  start : Nat
  stop : Nat

def Piece.ofTag (t : Tag) : Piece := ⟨t.start, t.stop⟩

def Piece.ofBrace (o : Nat) : Piece := ⟨o, o + 1⟩

/-- A piece that begins and ends between two characters of a text. -/
structure Piece.IsPart (p : Piece) (text : Text) : Prop where
  start_lt : p.start < p.stop
  stop_le : p.stop ≤ text.byteLength
  isBoundary_start : Text.isBoundary p.start text = true
  isBoundary_stop : Text.isBoundary p.stop text = true

private theorem Piece.isPart_of_eq_append {p : Piece} {text front part back : Text}
    (htext : text = front ++ (part ++ back)) (hstart : p.start = front.byteLength)
    (hstop : p.stop = front.byteLength + part.byteLength) (hne : part ≠ []) : p.IsPart text where
  start_lt := by
    have hpos : part.byteLength ≠ 0 := mt Text.byteLength_eq_zero_iff.mp hne
    omega
  stop_le := by
    rw [htext, Text.byteLength_append, Text.byteLength_append]
    omega
  isBoundary_start := Text.isBoundary_iff.mpr ⟨front, part ++ back, htext, hstart.symm⟩
  isBoundary_stop := by
    refine Text.isBoundary_iff.mpr ⟨front ++ part, back, ?_, ?_⟩
    · rw [htext, List.append_assoc]
    · rw [hstop, Text.byteLength_append]

def Piece.precedes (p q : Piece) : Bool := decide (p.start ≤ q.start)

/-- Pieces of which no two overlap can be put in order. -/
private theorem Piece.exists_ordered {ps : List Piece} (hne : ∀ p ∈ ps, p.start < p.stop)
    (hapart : ps.Pairwise fun p q ↦ p.stop ≤ q.start ∨ q.stop ≤ p.start) :
    ∃ ordered : List Piece, ordered.Perm ps ∧
      ordered.Pairwise fun p q ↦ p.start < q.start ∧ p.stop ≤ q.start := by
  have hperm : (ps.mergeSort precedes).Perm ps := List.mergeSort_perm ps precedes
  have hsorted : (ps.mergeSort precedes).Pairwise fun p q ↦ p.precedes q = true := by
    apply List.pairwise_mergeSort
    · intro p q r hpq hqr
      exact decide_eq_true (Nat.le_trans (of_decide_eq_true hpq) (of_decide_eq_true hqr))
    · intro p q
      simpa [precedes] using Nat.le_total p.start q.start
  have hsorted' := hsorted.and (hperm.symm.pairwise hapart fun h ↦ h.symm)
  refine ⟨_, hperm, hsorted'.imp_of_mem ?_⟩
  rintro p q hp hq ⟨hle, hpq⟩
  have hp' := hne p (hperm.mem_iff.mp hp)
  have hq' := hne q (hperm.mem_iff.mp hq)
  have hle' := of_decide_eq_true hle
  omega

namespace Snapshot

def braceOffsets (s : Snapshot) : List Nat := Folding.Folds.braceOffsets ⟨s.folds, s.unbalanced⟩

/-- What the tags and the braces of a snapshot cover. -/
def pieces (s : Snapshot) : List Piece :=
  s.tags.map .ofTag ++ s.braceOffsets.map .ofBrace

/-- The tags and the braces of a snapshot fit together, and to a text. -/
structure Coheres (s : Snapshot) (text : Text) : Prop where
  /-- Tags begin and end between characters of the text. -/
  isPart_tag : ∀ t ∈ s.tags, (Piece.ofTag t).IsPart text
  isPart_brace : ∀ o ∈ s.braceOffsets, (Piece.ofBrace o).IsPart text
  /-- Each tag ends before the next one begins, with something between them. -/
  pairwise_tags : s.tags.Pairwise fun t u ↦ t.stop < u.start
  nodup_braceOffsets : s.braceOffsets.Nodup
  /-- No brace lies in a tag. -/
  not_mem_tag : ∀ o ∈ s.braceOffsets, ∀ t ∈ s.tags, ¬(t.start ≤ o ∧ o < t.stop)
  /-- Tags and braces can be put in one order in which each piece ends before the next begins. -/
  exists_ordered : ∃ ordered : List Piece, ordered.Perm s.pieces ∧
    ordered.Pairwise fun p q ↦ p.start < q.start ∧ p.stop ≤ q.start

private theorem exists_ordered_pieces {s : Snapshot} {text : Text}
    (htag : ∀ t ∈ s.tags, (Piece.ofTag t).IsPart text)
    (hbrace : ∀ o ∈ s.braceOffsets, (Piece.ofBrace o).IsPart text)
    (htags : s.tags.Pairwise fun t u ↦ t.stop < u.start) (hnodup : s.braceOffsets.Nodup)
    (hnot : ∀ o ∈ s.braceOffsets, ∀ t ∈ s.tags, ¬(t.start ≤ o ∧ o < t.stop)) :
    ∃ ordered : List Piece, ordered.Perm s.pieces ∧
      ordered.Pairwise fun p q ↦ p.start < q.start ∧ p.stop ≤ q.start := by
  apply Piece.exists_ordered
  · intro p hp
    rcases List.mem_append.mp hp with hp | hp
    · obtain ⟨t, ht, rfl⟩ := List.mem_map.mp hp
      exact (htag t ht).start_lt
    · obtain ⟨o, ho, rfl⟩ := List.mem_map.mp hp
      exact (hbrace o ho).start_lt
  · refine List.pairwise_append.mpr ⟨?_, ?_, ?_⟩
    · exact List.Pairwise.map _ (fun t u h ↦ Or.inl (Nat.le_of_lt h)) htags
    · refine List.Pairwise.map _ (fun o o' (h : o ≠ o') ↦ ?_) hnodup
      simp only [Piece.ofBrace]
      omega
    · intro p hp q hq
      obtain ⟨t, ht, rfl⟩ := List.mem_map.mp hp
      obtain ⟨o, ho, rfl⟩ := List.mem_map.mp hq
      have houtside := hnot o ho t ht
      simp only [Piece.ofBrace, Piece.ofTag]
      omega

end Snapshot

/-! ## The snapshot of a text -/

private theorem Piece.isPart_of_mem_runs {text : Text} {r : Words.Run} (hr : r ∈ Words.runs text) :
    (Piece.mk r.start (r.start + r.text.byteLength)).IsPart text := by
  obtain ⟨front, back, htext, hstart, hfills⟩ := Words.mem_runs_iff.mp hr
  exact isPart_of_eq_append htext hstart (by rw [hstart]) hfills.ne_nil

private theorem Piece.isPart_of_braceAt {skipQuoted : Bool} {text : Text} {opens : Bool} {o : Nat}
    (h : Folding.BraceAt skipQuoted text opens o) : (Piece.ofBrace o).IsPart text := by
  obtain ⟨front, back, htext, hoffset, -⟩ := h
  have hsize : Text.byteLength [Folding.braceChar opens] = 1 := by cases opens <;> rfl
  have hstop : (Piece.ofBrace o).stop
      = front.byteLength + Text.byteLength [Folding.braceChar opens] := by
    rw [hsize, hoffset]
    rfl
  exact isPart_of_eq_append htext hoffset.symm hstop (List.cons_ne_nil _ _)

private theorem not_mem_run_of_braceAt {skipQuoted : Bool} {text : Text} {opens : Bool} {o : Nat}
    (h : Folding.BraceAt skipQuoted text opens o) {r : Words.Run} (hr : r ∈ Words.runs text) :
    ¬(r.start ≤ o ∧ o < r.start + r.text.byteLength) := by
  rintro ⟨hstart, hstop⟩
  obtain ⟨front, back, htext, hoffset, -⟩ := h
  have hpos := (Folding.braceChar opens).utf8Size_pos
  have hword := Words.isWordChar_of_mem_runs htext hr (by omega) (by omega)
  have hbrace : Words.isWordChar (Folding.braceChar opens) = false := by
    cases opens <;> decide +kernel
  exact Bool.false_ne_true (hbrace.symm.trans hword)

/-- **Tags and braces fit together.** Whatever the preferences are, the tags and the braces that an
adapter finds in a text are pieces of that text that begin and end between characters; tags are
separated, braces are told of once, no brace lies in a tag, and all of them can be put in one
order. -/
theorem coheres_scan (p : Preferences) (text : Text) :
    ∃ a : Adapter, (Adapter.build p).value = .ok a ∧ (a.scan text).value.Coheres text := by
  refine ⟨_, Adapter.value_build p, ?_⟩
  set s : Snapshot := (Adapter.scan _ text).value
  have hrun : ∀ t ∈ s.tags, ∃ r ∈ Words.runs text,
      t.start = r.start ∧ t.stop = r.start + r.text.byteLength := by
    intro t ht
    obtain ⟨m, hm, rfl⟩ := List.mem_map.mp ht
    exact Words.Lexicon.exists_run_of_mem_matchesIn hm
  have hbraceAt : ∀ o ∈ s.braceOffsets, ∃ opens,
      Folding.BraceAt p.folding.skipQuotedStrings text opens o :=
    fun o ho ↦ Folding.Folds.exists_braceAt ho
  have htag : ∀ t ∈ s.tags, (Piece.ofTag t).IsPart text := by
    intro t ht
    obtain ⟨r, hr, hstart, hstop⟩ := hrun t ht
    rw [Piece.ofTag, hstart, hstop]
    exact Piece.isPart_of_mem_runs hr
  have hbrace : ∀ o ∈ s.braceOffsets, (Piece.ofBrace o).IsPart text := by
    intro o ho
    obtain ⟨opens, h⟩ := hbraceAt o ho
    exact Piece.isPart_of_braceAt h
  have htags : s.tags.Pairwise fun t u ↦ t.stop < u.start :=
    List.Pairwise.map _ (fun _ _ h ↦ h) (Words.pairwise_matchesIn_apart text)
  have hnodup : s.braceOffsets.Nodup := Folding.Folds.nodup_braceOffsets _ text
  have hnot : ∀ o ∈ s.braceOffsets, ∀ t ∈ s.tags, ¬(t.start ≤ o ∧ o < t.stop) := by
    intro o ho t ht
    obtain ⟨opens, h⟩ := hbraceAt o ho
    obtain ⟨r, hr, hstart, hstop⟩ := hrun t ht
    rw [hstart, hstop]
    exact not_mem_run_of_braceAt h hr
  exact ⟨htag, hbrace, htags, hnodup, hnot,
    Snapshot.exists_ordered_pieces htag hbrace htags hnodup hnot⟩

end Editor

end DumpMode
