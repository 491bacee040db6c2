import DumpMode.Proofs.Folding.Pairing
import DumpMode.Folding.Scanner

/-!
# Folding two texts, one behind the other

The regions of a text that is put together from two are found from the regions of its parts. The
regions in which the first part ends meet the closing braces that the second part has left over,
the innermost region first. The regions of the second part move behind the first, and each of them
lies in those regions of the first part that are still open where it begins. `Folds.append` says
so; it needs no other knowledge of the parts than their regions and the size of the first.

The proof never looks at the text. Pairing goes from right to left, so the first part is paired on
top of what the second has left (`onto_eq`), and the depths of the second part rise by the level on
which the first ends, less one for each closing brace that is left over before
(`relevel_add`).
-/

namespace DumpMode.Folding

/-! ## The law -/

/-- The offsets at which the regions begin that the text ends in. -/
def Folds.openOffsets (f : Folds) : List Nat := f.openRegions.map (·.opening)

/-- A region whose text goes on with some closing braces that are left over there. The regions that
are open begin at `opens`, and the last of them is closed by the first of the braces, the one before
by the second, and so on. -/
def Region.closedBy (opens closings : List Nat) (r : Region) : Region :=
  if r.closing = none then { r with closing := closings[opens.reverse.idxOf r.opening]? } else r

/-- A region whose text comes behind `size` bytes that end in `level` open regions. The closing
braces that are left over in its own text close them, one after the other. -/
def Region.behind (size level : Nat) (closings : List Nat) (r : Region) : Region where
  opening := size + r.opening
  closing := r.closing.map (size + ·)
  depth := r.depth + (level - min level (closings.countP (· < r.opening)))

/-- The regions of two texts, one behind the other; the first has `size` bytes. -/
def Folds.append (size : Nat) (f g : Folds) : Folds where
  regions := f.regions.map (Region.closedBy f.openOffsets (g.unbalanced.map (size + ·))) ++
    g.regions.map (Region.behind size f.openOffsets.length g.unbalanced)
  unbalanced := f.unbalanced ++ (g.unbalanced.drop f.openOffsets.length).map (size + ·)

/-! ## Pairing on top of regions -/

namespace Folds

/-- Pairs braces on the left of a text whose braces are paired already. -/
def onto (bs : List Brace) (g : Folds) : Folds := bs.foldr (fun b f ↦ f.add b) g

theorem ofBraces_append (bs cs : List Brace) :
    ofBraces (bs ++ cs) = onto bs (ofBraces cs) := List.foldr_append

private theorem mem_openOffsets_iff {f : Folds} {o : Nat} :
    o ∈ f.openOffsets ↔ ∃ r ∈ f.regions, r.closing = none ∧ r.opening = o := by
  simp [openOffsets, openRegions, Region.isClosed, and_assoc]

private theorem openOffsets_cons_none (o d : Nat) (rs : List Region) (cs : List Nat) :
    openOffsets ⟨⟨o, none, d⟩ :: rs, cs⟩ = o :: openOffsets ⟨rs, cs⟩ := rfl

private theorem openOffsets_cons_some (o c d : Nat) (rs : List Region) (cs : List Nat) :
    openOffsets ⟨⟨o, some c, d⟩ :: rs, cs⟩ = openOffsets ⟨rs, cs⟩ := rfl

private theorem closedBy_cons_opens {f : Folds} {o : Nat} (closings : List Nat) {r : Region}
    (hr : r ∈ f.regions) :
    r.closedBy (o :: f.openOffsets) closings = r.closedBy f.openOffsets closings := by
  rw [Region.closedBy, Region.closedBy]
  by_cases hclosing : r.closing = none
  · have hmem : r.opening ∈ f.openOffsets.reverse :=
      List.mem_reverse.mpr (mem_openOffsets_iff.mpr ⟨r, hr, hclosing, rfl⟩)
    rw [if_pos hclosing, if_pos hclosing, List.reverse_cons, List.idxOf_append_of_mem hmem]
  · rw [if_neg hclosing, if_neg hclosing]

/-- **Pairing on top of regions** closes the open ones, innermost first, by the braces that are
left over behind them. -/
theorem onto_eq {bs : List Brace} (hsorted : bs.Pairwise fun b c ↦ b.offset < c.offset)
    (g : Folds) :
    onto bs g =
      ⟨(ofBraces bs).regions.map (Region.closedBy (ofBraces bs).openOffsets g.unbalanced)
          ++ g.regions,
        (ofBraces bs).unbalanced ++ g.unbalanced.drop (ofBraces bs).openOffsets.length⟩ := by
  induction bs with
  | nil => rfl
  | cons b bs ih =>
    obtain ⟨hlater, hrest⟩ := List.pairwise_cons.mp hsorted
    have hcons : onto (b :: bs) g = (onto bs g).add b := rfl
    have hnew : b.offset ∉ (ofBraces bs).openOffsets := by
      intro hmem
      obtain ⟨r, hr, -, hopening⟩ := mem_openOffsets_iff.mp hmem
      obtain ⟨b', hb', -, hoffset⟩ := exists_offset_eq_opening hr
      have := hlater b' hb'
      omega
    rw [hcons, ih hrest, ofBraces_cons]
    cases hopens : b.opens with
    | false => rw [add_of_closes hopens, add_of_closes hopens]; rfl
    | true =>
      rw [add_of_opens hopens, add_of_opens hopens]
      have hold := fun r hr ↦ closedBy_cons_opens (f := ofBraces bs) (o := b.offset) g.unbalanced
        (r := r) hr
      revert hold hnew
      generalize hf : ofBraces bs = f
      obtain ⟨rs, cs⟩ := f
      intro hnew hold
      cases cs with
      | cons c waiting => rfl
      | nil =>
        -- the new region is the last to be closed, so it takes the brace behind all those that
        -- the other open regions take
        have hidx : (b.offset :: openOffsets ⟨rs, []⟩).reverse.idxOf b.offset
            = (openOffsets ⟨rs, []⟩).length := by
          rw [List.reverse_cons, List.idxOf_append_of_notMem (by simpa using hnew),
            List.length_reverse, List.idxOf_cons_self, Nat.add_zero]
        simp only [List.head?_nil, List.tail_nil, openOffsets_cons_none, List.map_cons,
          List.nil_append, List.cons_append, List.head?_drop, List.tail_drop, List.length_cons]
        rw [List.map_congr_left hold, Region.closedBy, if_pos rfl, hidx]

/-- The level behind some braces is the number of regions they leave open, and of those before
them that are still open. -/
theorem levelAfter_eq (level : Nat) (bs : List Brace) :
    levelAfter level bs
      = (ofBraces bs).openOffsets.length + (level - (ofBraces bs).unbalanced.length) := by
  induction bs generalizing level with
  | nil => simp [levelAfter, openOffsets, openRegions]
  | cons b bs ih =>
    rw [levelAfter, ih, ofBraces_cons]
    generalize ofBraces bs = f
    obtain ⟨rs, cs⟩ := f
    cases hopens : b.opens with
    | false =>
      rw [add_of_closes hopens]
      simp only [levelBehind_false, openOffsets, openRegions, List.length_cons]
      omega
    | true =>
      rw [add_of_opens hopens]
      cases cs with
      | nil =>
        simp only [levelBehind_true, List.head?_nil, List.tail_nil, openOffsets_cons_none,
          List.length_cons, List.length_nil]
        omega
      | cons c waiting =>
        simp only [levelBehind_true, List.head?_cons, List.tail_cons, openOffsets_cons_some,
          List.length_cons]
        have : openOffsets ⟨rs, c :: waiting⟩ = openOffsets ⟨rs, waiting⟩ := rfl
        rw [this]
        omega

/-! ## Regions of braces that are changed alike -/

private theorem ofBraces_map {φ : Brace → Brace} {ψ : Region → Region} (move : Nat → Nat)
    (hopens : ∀ b, (φ b).opens = b.opens) (hoffset : ∀ b, (φ b).offset = move b.offset)
    (hregion : ∀ b : Brace, ∀ c : Option Nat,
      ⟨(φ b).offset, c.map move, (φ b).depth⟩ = ψ ⟨b.offset, c, b.depth⟩) (bs : List Brace) :
    ofBraces (bs.map φ) =
      ⟨(ofBraces bs).regions.map ψ, (ofBraces bs).unbalanced.map move⟩ := by
  induction bs with
  | nil => rfl
  | cons b bs ih =>
    rw [List.map_cons, ofBraces_cons, ofBraces_cons, ih]
    cases hb : b.opens with
    | false => rw [add_of_closes hb, add_of_closes ((hopens b).trans hb), hoffset]; rfl
    | true =>
      rw [add_of_opens hb, add_of_opens ((hopens b).trans hb), List.head?_map, hregion,
        List.map_cons, List.map_tail]

/-! ## Depths behind another text -/

private theorem unbalanced_ge {b : Brace} {bs : List Brace}
    (hsorted : (b :: bs).Pairwise fun b c ↦ b.offset < c.offset) {o : Nat}
    (ho : o ∈ (ofBraces (b :: bs)).unbalanced) : b.offset ≤ o := by
  have hmem := (unbalanced_sublist _).subset ho
  obtain ⟨c, hc, rfl⟩ := List.mem_map.mp hmem
  rcases List.mem_cons.mp (List.mem_of_mem_filter hc) with rfl | hc
  · exact le_rfl
  · exact ((List.pairwise_cons.mp hsorted).1 c hc).le

end Folds

private theorem exists_offset_eq_of_mem_relevel {level : Nat} {bs : List Brace} {b : Brace}
    (hb : b ∈ relevel level bs) : ∃ c ∈ bs, c.offset = b.offset := by
  induction bs generalizing level with
  | nil => cases hb
  | cons c bs ih =>
    rcases List.mem_cons.mp hb with rfl | hb
    · exact ⟨c, List.mem_cons_self, rfl⟩
    · obtain ⟨d, hd, hoffset⟩ := ih hb
      exact ⟨d, List.mem_cons_of_mem _ hd, hoffset⟩

/-- **Depths counted from a higher level** are higher by as much as is still open: from level
`level` the closing braces that are left over are those behind the first `level` ones, and each of
them closes one of the `extra` levels. -/
theorem relevel_add {bs : List Brace} (hsorted : bs.Pairwise fun b c ↦ b.offset < c.offset)
    (level extra used : Nat) :
    relevel (level + (extra - used)) bs = (relevel level bs).map fun b ↦
      { b with depth := b.depth + (extra - (used +
        ((Folds.ofBraces bs).unbalanced.drop level).countP (· < b.offset))) } := by
  induction bs generalizing level used with
  | nil => rfl
  | cons b bs ih =>
    obtain ⟨hlater, hrest⟩ := List.pairwise_cons.mp hsorted
    have hnone : ((Folds.ofBraces (b :: bs)).unbalanced.drop level).countP (· < b.offset) = 0 := by
      rw [List.countP_eq_zero]
      intro o ho
      have := Folds.unbalanced_ge hsorted (List.mem_of_mem_drop ho)
      simp only [decide_eq_true_eq]
      omega
    rw [relevel, relevel, List.map_cons, hnone, Nat.add_zero]
    congr 1
    cases hopens : b.opens with
    | true =>
      have hlevel : levelBehind true (level + (extra - used)) = level + 1 + (extra - used) := by
        rw [levelBehind_true]
        omega
      rw [hlevel, levelBehind_true, ih hrest, Folds.ofBraces_cons, Folds.add_of_opens hopens,
        List.drop_tail]
    | false =>
      rw [Folds.ofBraces_cons, Folds.add_of_closes hopens]
      cases level with
      | succ level =>
        have hlevel : levelBehind false (level + 1 + (extra - used)) = level + (extra - used) := by
          rw [levelBehind_false]
          omega
        rw [hlevel, levelBehind_false, Nat.add_sub_cancel, ih hrest, List.drop_succ_cons]
      | zero =>
        -- the brace is left over itself, so it uses up a level for all that come behind it
        have hlevel : levelBehind false (0 + (extra - used)) = 0 + (extra - (used + 1)) := by
          rw [levelBehind_false]
          omega
        rw [hlevel, levelBehind_false, ih hrest]
        refine List.map_congr_left fun c hc ↦ ?_
        obtain ⟨d, hd, hoffset⟩ := exists_offset_eq_of_mem_relevel hc
        have hlt : b.offset < c.offset := hoffset ▸ hlater d hd
        rw [List.drop_zero, List.drop_zero, List.countP_cons_of_pos (by simpa using hlt)]
        congr 2
        omega

/-! ## Folding -/

private theorem relevel_moved (level size : Nat) (bs : List Brace) :
    relevel level (bs.map (Brace.moved size)) = (relevel level bs).map (Brace.moved size) := by
  induction bs generalizing level with
  | nil => rfl
  | cons b bs ih => rw [List.map_cons, relevel, relevel, List.map_cons, ih]; rfl

variable {skipQuoted : Bool}

theorem ofBraces_relevel_moved (size level : Nat) (back : Text) :
    Folds.ofBraces (relevel level ((braces skipQuoted back).map (Brace.moved size))) =
      ⟨(Folds.ofText skipQuoted back).regions.map
          (Region.behind size level (Folds.ofText skipQuoted back).unbalanced),
        (Folds.ofText skipQuoted back).unbalanced.map (size + ·)⟩ := by
  have hdepths := relevel_add (pairwise_braces skipQuoted back) 0 level 0
  rw [Nat.zero_add, Nat.sub_zero, relevel_braces, List.drop_zero] at hdepths
  rw [relevel_moved, hdepths, List.map_map]
  -- taking away more than the level is the same as taking away all of it
  have hmin : ∀ k, level - (0 + k) = level - min level k := by omega
  apply Folds.ofBraces_map (size + ·)
  · exact fun _ ↦ rfl
  · exact fun _ ↦ rfl
  · intro b c
    simp only [Function.comp_apply, Region.behind, Brace.moved, Folds.ofText, hmin]

/-- **The concatenation law.** The regions of two texts, one behind the other, are those of
`Folds.append` if the first text ends outside of quoted strings or if these do not matter. -/
theorem fold_append (p : FoldPreferences) {front : Text}
    (h : p.skipQuotedStrings = true → EndsOutside front) (back : Text) :
    (p.fold (front ++ back)).value
      = (p.fold front).value.append front.byteLength (p.fold back).value := by
  change Folds.ofText p.skipQuotedStrings (front ++ back)
    = (Folds.ofText p.skipQuotedStrings front).append front.byteLength
      (Folds.ofText p.skipQuotedStrings back)
  have hlevel := Folds.levelAfter_eq 0 (braces p.skipQuotedStrings front)
  rw [Nat.zero_sub, Nat.add_zero] at hlevel
  rw [Folds.ofText, braces_append h, Folds.ofBraces_append,
    Folds.onto_eq (pairwise_braces _ _), hlevel, ofBraces_relevel_moved, Folds.append,
    List.map_drop]
  rfl

/-- Two regions are open where the first text ends, with a brace in a string between them. Of the
three braces that are left over in the second text two close them, the inner one first, and the
region behind the first of these lies in one region only. -/
theorem fold_append_open_and_left_over :
    EndsOutside "\x7b\"\x7d\"\x7b".toList ∧
      ((⟨true, false⟩ : FoldPreferences).fold
          ("\x7b\"\x7d\"\x7b".toList ++ "\x7d\x7b\x7d\x7d\x7d\x7b".toList)).value
        = ⟨[⟨0, some 8, 0⟩, ⟨4, some 5, 1⟩, ⟨6, some 7, 1⟩, ⟨10, none, 0⟩], [9]⟩ :=
  have hends : EndsOutside "\x7b\"\x7d\"\x7b".toList := by decide
  ⟨hends, (fold_append ⟨true, false⟩ (fun _ ↦ hends) _).trans (by decide)⟩

end DumpMode.Folding
