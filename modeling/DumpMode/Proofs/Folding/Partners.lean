import DumpMode.Folding.Scanner
import DumpMode.Proofs.Folding.Pairing
import Mathlib.Data.Nat.Find
import Mathlib.Order.Interval.Finset.Nat

/-!
# Partners of braces

What the regions of a text are, said by counting its braces and without pairing them: a region for
each opening brace, closed by the first closing brace up to which one more brace has been closed
than opened since. `PairsBraces` is that description, and folding a text meets it whatever the
choices of the user are.
-/

namespace DumpMode.Folding

/-! ## The description -/

/-- The number of braces of a text that open, or that close, behind one offset and up to another. -/
def braceCount (skipQuoted : Bool) (text : Text) (opens : Bool) (start stop : Nat) : Nat :=
  ((Finset.Ioc start stop).filter (BraceAt skipQuoted text opens)).card

/-- The regions and the closing braces without a partner are those of a text. -/
structure PairsBraces (skipQuoted : Bool) (text : Text) (f : Folds) : Prop where
  /-- Regions come in the order in which they begin, and no two begin at one place. -/
  pairwise_opening : f.regions.Pairwise fun r s ↦ r.opening < s.opening
  exists_opening_iff : ∀ o, (∃ r ∈ f.regions, r.opening = o) ↔ BraceAt skipQuoted text true o
  /-- A region ends at the first place up to which, since its beginning, one more brace has been
  closed than opened. -/
  closing_eq_some_iff : ∀ r ∈ f.regions, ∀ c, r.closing = some c ↔
    IsLeast {x | r.opening < x ∧ braceCount skipQuoted text false r.opening x
      = braceCount skipQuoted text true r.opening x + 1} c
  /-- It has no end exactly if there is no such place. -/
  closing_eq_none_iff : ∀ r ∈ f.regions, r.closing = none ↔
    ∀ x, r.opening < x → braceCount skipQuoted text false r.opening x
      ≠ braceCount skipQuoted text true r.opening x + 1
  braceAt_closing : ∀ r ∈ f.regions, ∀ c, r.closing = some c → BraceAt skipQuoted text false c
  closing_injective : ∀ r ∈ f.regions, ∀ s ∈ f.regions, ∀ c,
    r.closing = some c → s.closing = some c → r = s
  pairwise_unbalanced : f.unbalanced.Pairwise (· < ·)
  /-- They are the closing braces at which no region ends. -/
  mem_unbalanced_iff : ∀ c, c ∈ f.unbalanced ↔
    BraceAt skipQuoted text false c ∧ ∀ r ∈ f.regions, r.closing ≠ some c

/-! ## Counts over a text and over its braces -/

section Braces

variable {skipQuoted : Bool} {text : Text}

private theorem mem_offsets_iff {opens : Bool} {o : Nat} {p : Brace → Bool}
    (hp : ∀ b, p b = true ↔ b.opens = opens) :
    o ∈ ((braces skipQuoted text).filter p).map (·.offset) ↔ BraceAt skipQuoted text opens o := by
  rw [← exists_mem_braces_iff]
  simp only [List.mem_map, List.mem_filter, hp, and_assoc]

private theorem pairwise_offsets (p : Brace → Bool) :
    (((braces skipQuoted text).filter p).map (·.offset)).Pairwise (· < ·) :=
  List.pairwise_map.mpr ((pairwise_braces skipQuoted text).filter p)

private theorem braceCount_eq (opens : Bool) (start stop : Nat) :
    braceCount skipQuoted text opens start stop
      = countBetween (braces skipQuoted text) opens start stop := by
  rw [braceCount, countBetween, List.countP_eq_length_filter,
    ← List.length_map (·.offset), ← List.toFinset_card_of_nodup]
  -- no two braces share an offset, so counting braces is counting offsets
  · congr 1
    ext o
    simp only [Finset.mem_filter, Finset.mem_Ioc, List.mem_toFinset, List.mem_map, List.mem_filter,
      ← exists_mem_braces_iff, Bool.and_eq_true, beq_iff_eq, decide_eq_true_eq]
    constructor
    · rintro ⟨⟨hstart, hstop⟩, b, hb, hopens, rfl⟩
      exact ⟨b, ⟨hb, hopens, hstart, hstop⟩, rfl⟩
    · rintro ⟨b, ⟨hb, hopens, hstart, hstop⟩, rfl⟩
      exact ⟨⟨hstart, hstop⟩, b, hb, hopens, rfl⟩
  · exact (pairwise_offsets _).imp fun h ↦ h.ne

end Braces

/-! ## Folding meets the description -/

variable (skipQuoted : Bool) (text : Text)

private theorem nodup_closings :
    ((Folds.ofText skipQuoted text).regions.filterMap (·.closing)
      ++ (Folds.ofText skipQuoted text).unbalanced).Nodup := by
  rw [Folds.ofText, (Folds.perm_closings _).nodup_iff]
  exact (pairwise_offsets _).imp fun h ↦ h.ne

theorem mem_closings_iff {c : Nat} :
    (c ∈ (Folds.ofText skipQuoted text).regions.filterMap (·.closing) ∨
      c ∈ (Folds.ofText skipQuoted text).unbalanced) ↔ BraceAt skipQuoted text false c := by
  rw [← List.mem_append, Folds.ofText, (Folds.perm_closings _).mem_iff]
  exact mem_offsets_iff (by simp)

private theorem isLeast_of_closing {r : Region} (hr : r ∈ (Folds.ofText skipQuoted text).regions)
    {c : Nat} : r.closing = some c ↔
      IsLeast {x | r.opening < x ∧ braceCount skipQuoted text false r.opening x
        = braceCount skipQuoted text true r.opening x + 1} c := by
  rw [Folds.closing_eq_some_iff (pairwise_braces skipQuoted text) hr]
  simp only [excessAt, braceCount_eq]

theorem pairsBraces_ofText : PairsBraces skipQuoted text (.ofText skipQuoted text) where
  pairwise_opening := by
    rw [← List.pairwise_map, Folds.ofText, Folds.map_opening_regions]
    exact pairwise_offsets _
  exists_opening_iff o := by
    rw [← List.mem_map, Folds.ofText, Folds.map_opening_regions]
    exact mem_offsets_iff (by simp)
  closing_eq_some_iff r hr c := isLeast_of_closing skipQuoted text hr
  closing_eq_none_iff r hr := by
    rw [Option.eq_none_iff_forall_ne_some]
    constructor
    · intro hnone x hx hcount
      classical
      -- the least of such places would be the end of the region
      have hex : ∃ x, r.opening < x ∧ braceCount skipQuoted text false r.opening x
          = braceCount skipQuoted text true r.opening x + 1 := ⟨x, hx, hcount⟩
      refine hnone (Nat.find hex) ((isLeast_of_closing skipQuoted text hr).mpr ?_)
      exact ⟨Nat.find_spec hex, fun y hy ↦ Nat.find_min' hex hy⟩
    · intro hnone c hc
      obtain ⟨⟨hlt, hcount⟩, -⟩ := (isLeast_of_closing skipQuoted text hr).mp hc
      exact hnone c hlt hcount
  braceAt_closing r hr c hc :=
    (mem_closings_iff skipQuoted text).mp (Or.inl (List.mem_filterMap.mpr ⟨r, hr, hc⟩))
  closing_injective r hr s hs c hrc hsc := by
    have hnodup := (List.nodup_append.mp (nodup_closings skipQuoted text)).1
    have hsymm : Std.Symm fun r s : Region ↦
        ∀ b, r.closing = some b → ∀ b', s.closing = some b' → b ≠ b' :=
      ⟨fun r s h b hb b' hb' ↦ (h b' hb' b hb).symm⟩
    by_contra hne
    exact (List.pairwise_filterMap.mp hnodup).forall hr hs hne c hrc c hsc rfl
  pairwise_unbalanced := (pairwise_offsets _).sublist (Folds.unbalanced_sublist _)
  mem_unbalanced_iff c := by
    have hdisjoint := (List.nodup_append.mp (nodup_closings skipQuoted text)).2.2
    rw [← mem_closings_iff, List.mem_filterMap]
    constructor
    · intro hc
      exact ⟨Or.inr hc, fun r hr hrc ↦
        hdisjoint c (List.mem_filterMap.mpr ⟨r, hr, hrc⟩) c hc rfl⟩
    · rintro ⟨⟨r, hr, hrc⟩ | hc, hnot⟩
      · exact absurd hrc (hnot r hr)
      · exact hc

/-- **Folding pairs the braces of a text.** Whatever the choices of the user are, the regions are
one for each opening brace that counts, each with its partner, and what is left over are the
closing braces that are nobody's partner. -/
theorem pairsBraces_fold (p : FoldPreferences) (text : Text) :
    PairsBraces p.skipQuotedStrings text (p.fold text).value :=
  pairsBraces_ofText p.skipQuotedStrings text

end DumpMode.Folding
