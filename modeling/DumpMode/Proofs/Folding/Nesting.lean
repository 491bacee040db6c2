import DumpMode.Folding.Scanner
import DumpMode.Proofs.Folding.Pairing

/-!
# Nesting

A region's depth is the number of braces that are open where it begins. That is known before any of
them is closed, while which regions a region lies inside is known only when all have their ends.
The two agree: `Nested` says how the regions of a text lie to each other and to the closing braces
that are left over, and that depth counts the regions around. Folding any text meets it.

Pairing goes from right to left, so one step puts a region in front of all others. It takes the
closing brace that waits first, and what decides about each of the others is on which side of that
brace it begins: before it, then it ends there as well (`contains_eq_false_of_mem_unbalanced`) and
lies inside, or behind it, then the two have nothing in common (`inside_or_disjoint_of_front`).
-/

namespace DumpMode.Folding

/-! ## How regions lie to each other -/

namespace Region

/-- Whether an offset lies strictly between the braces of a region. A missing closing brace is
behind every offset. -/
def Encloses (r : Region) (offset : Nat) : Prop :=
  r.opening < offset ∧ ∀ c ∈ r.closing, offset < c

/-- Whether a region lies strictly inside another: both its braces are strictly between those of
the other. If its closing brace is missing, that of the other is missing as well. -/
def Inside (s r : Region) : Prop :=
  r.Encloses s.opening ∧ (∀ c ∈ s.closing, r.Encloses c) ∧ (s.closing = none → r.closing = none)

/-- Whether no offset lies in both of two regions, their braces included. -/
def Disjoint (r s : Region) : Prop :=
  ∀ offset, r.contains offset = true → s.contains offset = false

instance (r : Region) (offset : Nat) : Decidable (r.Encloses offset) :=
  inferInstanceAs (Decidable (_ ∧ _))

instance (s r : Region) : Decidable (s.Inside r) := inferInstanceAs (Decidable (_ ∧ _ ∧ _))

theorem contains_eq_false_iff {r : Region} {offset : Nat} :
    r.contains offset = false ↔ offset < r.opening ∨ ∃ c ∈ r.closing, c < offset := by
  rw [← Bool.not_eq_true, contains_iff]
  constructor
  · intro h
    by_cases hle : r.opening ≤ offset
    · obtain ⟨c, hc⟩ := not_forall.mp (not_and.mp h hle)
      obtain ⟨hc, hlt⟩ := Classical.not_imp.mp hc
      exact Or.inr ⟨c, hc, not_le.mp hlt⟩
    · exact Or.inl (not_le.mp hle)
  · rintro (hlt | ⟨c, hc, hlt⟩) ⟨hle, hall⟩
    · omega
    · have := hall c hc
      omega

theorem not_inside_of_opening_le {r s : Region} (h : r.opening ≤ s.opening) : ¬r.Inside s := by
  rintro ⟨⟨hlt, -⟩, -⟩
  omega

private theorem not_disjoint_of_open {r s : Region} (hr : r.closing = none)
    (hs : s.closing = none) : ¬r.Disjoint s := by
  intro h
  have hfalse := h (max r.opening s.opening) (contains_iff.mpr ⟨le_max_left _ _, by simp [hr]⟩)
  rcases contains_eq_false_iff.mp hfalse with hlt | ⟨c, hc, -⟩
  · omega
  · cases hs.symm.trans hc

end Region

/-- The regions of a text are nested, and their depths say how deep. -/
structure Nested (f : Folds) : Prop where
  /-- Of any two regions the later one lies strictly inside the earlier one, or the two are
  disjoint. -/
  pairwise_regions : f.regions.Pairwise fun r s ↦ s.Inside r ∨ r.Disjoint s
  /-- The depth of a region is the number of regions that it lies strictly inside. -/
  depth_eq_countP : ∀ r ∈ f.regions, r.depth = f.regions.countP fun s ↦ decide (r.Inside s)
  /-- The regions without an end lie inside one another, the later in the earlier. -/
  pairwise_openRegions : f.openRegions.Pairwise fun r s ↦ s.Inside r
  /-- Their depths are 0, 1, 2 and so on. -/
  map_depth_openRegions : f.openRegions.map (·.depth) = List.range f.openRegions.length
  /-- A closing brace without a partner lies in no region. -/
  contains_unbalanced : ∀ c ∈ f.unbalanced, ∀ r ∈ f.regions, r.contains c = false
  /-- It stands before all regions without an end. -/
  lt_opening : ∀ c ∈ f.unbalanced, ∀ r ∈ f.openRegions, c < r.opening

namespace Folds

variable {b : Brace} {bs : List Brace}

/-! ## One more region in front -/

/-- **What an opening brace does**: a region begins in front of all others and ends at the closing
brace that waits first, if one waits. -/
theorem exists_front (h : b.opens = true) (bs : List Brace) :
    ∃ front : Region, front.opening = b.offset ∧ front.depth = b.depth ∧
      front.closing = (ofBraces bs).unbalanced.head? ∧
        ofBraces (b :: bs) = ⟨front :: (ofBraces bs).regions, (ofBraces bs).unbalanced.tail⟩ :=
  ⟨_, rfl, rfl, rfl, add_of_opens h _⟩

private theorem mem_openRegions_iff {f : Folds} {r : Region} :
    r ∈ f.openRegions ↔ r ∈ f.regions ∧ r.closing = none := by
  simp [openRegions, Region.isClosed]

theorem pairwise_unbalanced_ofBraces (hsorted : bs.Pairwise fun b c ↦ b.offset < c.offset) :
    (ofBraces bs).unbalanced.Pairwise (· < ·) := by
  have hoffsets : ((bs.filter (!·.opens)).map (·.offset)).Pairwise (· < ·) :=
    List.pairwise_map.mpr (hsorted.filter _)
  exact hoffsets.sublist (unbalanced_sublist bs)

theorem opening_lt_closing (hsorted : bs.Pairwise fun b c ↦ b.offset < c.offset) {r : Region}
    (hr : r ∈ (ofBraces bs).regions) {c : Nat} (hc : r.closing = some c) : r.opening < c :=
  ((closing_eq_some_iff hsorted hr).mp hc).1.1

section Sorted

variable (hsorted : (b :: bs).Pairwise fun b c ↦ b.offset < c.offset)

include hsorted

theorem offset_lt_opening {r : Region} (hr : r ∈ (ofBraces bs).regions) : b.offset < r.opening := by
  obtain ⟨b', hb', -, hoffset⟩ := exists_offset_eq_opening hr
  exact hoffset ▸ (List.pairwise_cons.mp hsorted).1 b' hb'

private theorem offset_lt_of_mem_unbalanced {c : Nat} (hc : c ∈ (ofBraces bs).unbalanced) :
    b.offset < c := by
  obtain ⟨b', hb', rfl⟩ := exists_offset_eq_of_mem_unbalanced hc
  exact (List.pairwise_cons.mp hsorted).1 b' hb'

end Sorted

/-! ## Closing braces that are left over -/

/-- **A brace that is left over lies in no region**: a region that begins before it has taken a
brace that waited before it. -/
theorem contains_eq_false_of_mem_unbalanced
    (hsorted : bs.Pairwise fun b c ↦ b.offset < c.offset) {c : Nat}
    (hc : c ∈ (ofBraces bs).unbalanced) {r : Region} (hr : r ∈ (ofBraces bs).regions) :
    r.contains c = false := by
  rw [Region.contains_eq_false_iff]
  induction bs with
  | nil => cases hr
  | cons b bs ih =>
    have hrest := (List.pairwise_cons.mp hsorted).2
    cases hopens : b.opens with
    | true =>
      obtain ⟨front, -, -, hclosing, hcons⟩ := exists_front hopens bs
      rw [hcons] at hc hr
      rcases List.mem_cons.mp hr with rfl | hr
      · -- the region in front ends where the first brace waits, the others that wait come later
        have hwaiting := pairwise_unbalanced_ofBraces hrest
        cases hu : (ofBraces bs).unbalanced with
        | nil =>
          rw [hu] at hc
          cases hc
        | cons u waiting =>
          rw [hu] at hc hclosing hwaiting
          exact Or.inr ⟨u, hclosing, (List.pairwise_cons.mp hwaiting).1 c hc⟩
      · exact ih hrest (List.mem_of_mem_tail hc) hr
    | false =>
      rw [ofBraces_cons, add_of_closes hopens] at hc hr
      rcases List.mem_cons.mp hc with rfl | hc
      · -- the brace itself stands before every region behind it
        exact Or.inl (offset_lt_opening hsorted hr)
      · exact ih hrest hc hr

/-! ## Inside or disjoint -/

/-- **A region in front of others** has each of them inside that begins before the first brace
that waits, and is disjoint from the others. -/
theorem inside_or_disjoint_of_front (hsorted : (b :: bs).Pairwise fun b c ↦ b.offset < c.offset)
    {front s : Region} (hopening : front.opening = b.offset)
    (hclosing : front.closing = (ofBraces bs).unbalanced.head?)
    (hs : s ∈ (ofBraces bs).regions) :
    s.Inside front ∧ (∀ c ∈ (ofBraces bs).unbalanced, s.opening < c) ∨
      ¬s.Inside front ∧ front.Disjoint s ∧
        ∃ c ∈ (ofBraces bs).unbalanced.head?, c < s.opening := by
  have hrest := (List.pairwise_cons.mp hsorted).2
  have hbegin : front.opening < s.opening := hopening ▸ offset_lt_opening hsorted hs
  have hend := fun c (hc : s.closing = some c) ↦ opening_lt_closing hrest hs hc
  have hwaiting := pairwise_unbalanced_ofBraces hrest
  have hout := fun c hc ↦ contains_eq_false_of_mem_unbalanced hrest (c := c) hc hs
  cases hu : (ofBraces bs).unbalanced with
  | nil =>
    -- no brace waits, so the region in front has no end
    rw [hu, List.head?_nil] at hclosing
    refine Or.inl ⟨⟨⟨hbegin, by simp [hclosing]⟩, fun c hc ↦ ?_, fun _ ↦ hclosing⟩, by simp⟩
    exact ⟨hbegin.trans (hend c hc), by simp [hclosing]⟩
  | cons u waiting =>
    rw [hu, List.head?_cons] at hclosing
    rw [hu] at hwaiting hout
    have honly : ∀ c ∈ front.closing, c = u := fun c hc ↦ Option.some.inj (hc.symm.trans hclosing)
    rcases Region.contains_eq_false_iff.mp (hout u List.mem_cons_self) with hlt | ⟨d, hd, hdu⟩
    · -- `s` begins behind the brace that the region in front takes
      refine Or.inr ⟨fun hinside ↦ ?_, fun offset hcontains ↦ ?_, u, rfl, hlt⟩
      · have := hinside.1.2 u hclosing
        omega
      · have := (Region.contains_iff.mp hcontains).2 u hclosing
        exact Region.contains_eq_false_iff.mpr (Or.inl (by omega))
    · -- `s` ends before it
      have hsu : s.opening < u := (hend d hd).trans hdu
      refine Or.inl ⟨⟨⟨hbegin, fun c hc ↦ honly c hc ▸ hsu⟩, fun c hc ↦ ?_, fun hnone ↦ ?_⟩, ?_⟩
      · obtain rfl : c = d := Option.some.inj (hc.symm.trans hd)
        exact ⟨hbegin.trans (hend c hc), fun c' hc' ↦ honly c' hc' ▸ hdu⟩
      · cases hnone.symm.trans hd
      · intro c hc
        rcases List.mem_cons.mp hc with rfl | hc
        · exact hsu
        · exact hsu.trans ((List.pairwise_cons.mp hwaiting).1 c hc)

private theorem pairwise_inside_or_disjoint (hsorted : bs.Pairwise fun b c ↦ b.offset < c.offset) :
    (ofBraces bs).regions.Pairwise fun r s ↦ s.Inside r ∨ r.Disjoint s := by
  induction bs with
  | nil => exact List.Pairwise.nil
  | cons b bs ih =>
    have hrest := (List.pairwise_cons.mp hsorted).2
    cases hopens : b.opens with
    | false =>
      rw [ofBraces_cons, add_of_closes hopens]
      exact ih hrest
    | true =>
      obtain ⟨front, hopening, -, hclosing, hcons⟩ := exists_front hopens bs
      rw [hcons]
      refine List.pairwise_cons.mpr ⟨fun s hs ↦ ?_, ih hrest⟩
      rcases inside_or_disjoint_of_front hsorted hopening hclosing hs with
        ⟨hinside, -⟩ | ⟨-, hdisjoint, -⟩
      · exact Or.inl hinside
      · exact Or.inr hdisjoint

/-! ## Depths -/

theorem countP_lt_eq_zero {cs : List Nat} {offset : Nat} (h : ∀ c ∈ cs, offset ≤ c) :
    cs.countP (· < offset) = 0 := by
  rw [List.countP_eq_zero]
  intro c hc
  have := h c hc
  simp only [decide_eq_true_eq]
  omega

private theorem countP_inside_front (hsorted : (b :: bs).Pairwise fun b c ↦ b.offset < c.offset)
    {front : Region} (hopening : front.opening = b.offset) :
    (front :: (ofBraces bs).regions).countP (fun s ↦ decide (front.Inside s)) = 0 := by
  rw [List.countP_eq_zero]
  intro s hs
  have hle : front.opening ≤ s.opening := by
    rcases List.mem_cons.mp hs with rfl | hs
    · exact le_rfl
    · exact hopening ▸ (offset_lt_opening hsorted hs).le
  simpa using Region.not_inside_of_opening_le hle

/-- **Depth counts the regions around**, and those of the levels in front that are still open: each
closing brace that is left over before a region closes one of them. -/
theorem depth_eq_add_countP (hsorted : bs.Pairwise fun b c ↦ b.offset < c.offset) {level : Nat}
    (hlevel : relevel level bs = bs) {r : Region} (hr : r ∈ (ofBraces bs).regions) :
    r.depth = level - (ofBraces bs).unbalanced.countP (· < r.opening)
      + (ofBraces bs).regions.countP fun s ↦ decide (r.Inside s) := by
  induction bs generalizing level with
  | nil => cases hr
  | cons b bs ih =>
    have hrest := (List.pairwise_cons.mp hsorted).2
    obtain ⟨hdepth, hlevel⟩ := List.cons.inj hlevel
    cases hopens : b.opens with
    | false =>
      rw [hopens, levelBehind_false] at hlevel
      rw [ofBraces_cons, add_of_closes hopens] at hr ⊢
      -- the brace is left over before every region behind it, and closes one level
      have hold := ih hrest hlevel hr
      rw [List.countP_cons_of_pos (by simpa using offset_lt_opening hsorted hr)]
      dsimp only
      omega
    | true =>
      rw [hopens, levelBehind_true] at hlevel
      obtain ⟨front, hopening, hfront, hclosing, hcons⟩ := exists_front hopens bs
      rw [hcons] at hr ⊢
      dsimp only at hr ⊢
      rcases List.mem_cons.mp hr with rfl | hr
      · -- nothing is left over before the region in front, and it lies inside none
        have hout : (ofBraces bs).unbalanced.tail.countP (· < r.opening) = 0 := by
          refine countP_lt_eq_zero fun c hc ↦ ?_
          exact hopening ▸ (offset_lt_of_mem_unbalanced hsorted (List.mem_of_mem_tail hc)).le
        rw [hout, countP_inside_front hsorted hopening, hfront]
        exact (congrArg Brace.depth hdepth).symm
      · have hold := ih hrest hlevel hr
        rcases inside_or_disjoint_of_front hsorted hopening hclosing hr with
          ⟨hinside, hbefore⟩ | ⟨hinside, -, c, hc, hlt⟩
        · -- nothing is left over before `r`, and the region in front is one more around it
          rw [countP_lt_eq_zero fun c hc ↦ (hbefore c hc).le] at hold
          rw [countP_lt_eq_zero fun c hc ↦ (hbefore c (List.mem_of_mem_tail hc)).le,
            List.countP_cons_of_pos (by simpa using hinside)]
          omega
        · -- the brace that the region in front takes no longer closes a level
          obtain ⟨waiting, hu⟩ := List.head?_eq_some_iff.mp hc
          rw [hu, List.countP_cons_of_pos (by simpa using hlt)] at hold
          rw [hu, List.tail_cons, List.countP_cons_of_neg (by simpa using hinside)]
          omega

/-- **The regions without an end take one level each**, from the first that no closing brace which
is left over closes. -/
theorem map_depth_openRegions_eq {level : Nat} (hlevel : relevel level bs = bs) :
    (ofBraces bs).openRegions.map (·.depth)
      = List.range' (level - (ofBraces bs).unbalanced.length)
          (ofBraces bs).openRegions.length := by
  induction bs generalizing level with
  | nil => rfl
  | cons b bs ih =>
    obtain ⟨hdepth, hlevel⟩ := List.cons.inj hlevel
    cases hopens : b.opens with
    | false =>
      rw [hopens, levelBehind_false] at hlevel
      have hold := ih hlevel
      rw [ofBraces_cons, add_of_closes hopens]
      rw [Nat.sub_sub, Nat.add_comm] at hold
      exact hold
    | true =>
      rw [hopens, levelBehind_true] at hlevel
      have hold := ih hlevel
      obtain ⟨front, -, hfront, hclosing, hcons⟩ := exists_front hopens bs
      have hlevelb : front.depth = level := hfront.trans (congrArg Brace.depth hdepth).symm
      rw [hcons]
      cases hu : (ofBraces bs).unbalanced with
      | nil =>
        -- nothing waits, so the region in front stays open and takes a level of its own
        rw [hu, List.head?_nil] at hclosing
        rw [hu, List.length_nil, Nat.sub_zero] at hold
        have hopen : openRegions ⟨front :: (ofBraces bs).regions, []⟩
            = front :: (ofBraces bs).openRegions := by
          simp [openRegions, Region.isClosed, hclosing]
        rw [List.tail_nil, hopen, List.map_cons, List.length_cons, List.range'_succ, hold, hlevelb]
        rfl
      | cons u waiting =>
        -- the region in front takes the brace that would have closed the level around it
        rw [hu, List.head?_cons] at hclosing
        rw [hu, List.length_cons, Nat.add_sub_add_right] at hold
        have hclosed : openRegions ⟨front :: (ofBraces bs).regions, waiting⟩
            = (ofBraces bs).openRegions := by
          simp [openRegions, Region.isClosed, hclosing]
        rw [List.tail_cons, hclosed, hold]

/-! ## Nesting -/

/-- Braces in document order whose depths are counted from level zero are nested. -/
theorem nested_ofBraces (hsorted : bs.Pairwise fun b c ↦ b.offset < c.offset)
    (hlevel : relevel 0 bs = bs) : Nested (ofBraces bs) where
  pairwise_regions := pairwise_inside_or_disjoint hsorted
  depth_eq_countP r hr := by
    rw [depth_eq_add_countP hsorted hlevel hr, Nat.zero_sub, Nat.zero_add]
  pairwise_openRegions := by
    have hsub : (ofBraces bs).openRegions.Sublist (ofBraces bs).regions := List.filter_sublist
    refine ((pairwise_inside_or_disjoint hsorted).sublist hsub).imp_of_mem fun hr hs h ↦ ?_
    refine h.resolve_right (Region.not_disjoint_of_open ?_ ?_)
    · exact (mem_openRegions_iff.mp hr).2
    · exact (mem_openRegions_iff.mp hs).2
  map_depth_openRegions := by
    rw [map_depth_openRegions_eq hlevel, Nat.zero_sub, List.range_eq_range']
  contains_unbalanced c hc r hr := contains_eq_false_of_mem_unbalanced hsorted hc hr
  lt_opening c hc r hr := by
    obtain ⟨hr, hopen⟩ := mem_openRegions_iff.mp hr
    rcases Region.contains_eq_false_iff.mp (contains_eq_false_of_mem_unbalanced hsorted hc hr) with
      hlt | ⟨d, hd, -⟩
    · exact hlt
    · cases hopen.symm.trans hd

end Folds

/-- **The regions of a text are nested.** Whatever the choices of the user are, any two regions are
disjoint or one lies inside the other, depth is the number of regions around, and closing braces
without a partner lie outside of all regions. -/
theorem nested_fold (p : FoldPreferences) (text : Text) : Nested (p.fold text).value :=
  Folds.nested_ofBraces (pairwise_braces _ text) (relevel_braces _ text)

end DumpMode.Folding
