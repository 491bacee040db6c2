import DumpMode.Folding.Balance
import DumpMode.Proofs.Folding.Masking
import DumpMode.Proofs.Folding.Pairing
import Mathlib.Data.Set.Image

/-!
# Balance and counts

How many braces of a text are left without a partner depends only on which way its braces open, one
after the other. `tally` computes both numbers from that sequence, from right to left as braces are
paired, and everything here is an induction over it. The closing braces that are left over are as
many as closing braces ever outnumber the opening ones from the start of the text on
(`isGreatest_excess`); the regions without an end make up the difference to the totals; and nothing
is left over exactly in the words of the grammar of `Balanced` (`balanced_iff_tally`).
-/

namespace DumpMode.Folding

/-! ## The braces that count -/

def side? (c : Char) : Option Bool :=
  if c = '\x7b' then some true else if c = '\x7d' then some false else none

/-- The ways in which the braces of a text open, in order. With `skipQuoted`, quoted strings are
masked first. -/
def sides (skipQuoted : Bool) (text : Text) : List Bool :=
  (if skipQuoted then mask text else text).filterMap side?

private theorem Reading.map_opens_bracesAhead (r : Reading) (text : Text) :
    (r.bracesAhead false text).map (·.opens) = text.filterMap side? := by
  induction text generalizing r with
  | nil => rfl
  | cons c text ih =>
    have hopens : r.quoting.opens? false c = side? c := rfl
    rw [bracesAhead, List.map_append, ih, hopens]
    cases hside : side? c with
    | none => rw [List.filterMap_cons_none hside]; rfl
    | some opens => rw [List.filterMap_cons_some hside]; rfl

private theorem shape_eq_sides (skipQuoted : Bool) (text : Text) :
    shape skipQuoted text = sides skipQuoted text := by
  rw [shape, braces_eq]
  cases skipQuoted with
  | false => exact Reading.map_opens_bracesAhead .start text
  | true =>
    have hmask : Reading.start.bracesAhead true text
        = Reading.start.bracesAhead false (mask text) :=
      Reading.bracesAhead_eq_of_masked (masked_iff.mpr rfl) rfl rfl rfl
    rw [hmask]
    exact Reading.map_opens_bracesAhead .start (mask text)

/-! ## Tallies -/

/-- How many closing braces of a sequence are left over, and how many opening ones. The braces are
paired from right to left. -/
def tally : List Bool → Nat × Nat
  | [] => (0, 0)
  | true :: s =>
    match tally s with
    | (0, opened) => (0, opened + 1)
    | (waiting + 1, opened) => (waiting, opened)
  | false :: s => ((tally s).1 + 1, (tally s).2)

private theorem tally_false_cons (s : List Bool) :
    tally (false :: s) = ((tally s).1 + 1, (tally s).2) := rfl

private theorem tally_true_cons_of_eq_zero {s : List Bool} (h : (tally s).1 = 0) :
    tally (true :: s) = (0, (tally s).2 + 1) := by
  cases ht : tally s with
  | mk waiting opened =>
    obtain rfl : waiting = 0 := by rw [ht] at h; exact h
    rw [tally, ht]

private theorem tally_true_cons_of_eq_succ {s : List Bool} {n : Nat} (h : (tally s).1 = n + 1) :
    tally (true :: s) = (n, (tally s).2) := by
  cases ht : tally s with
  | mk waiting opened =>
    obtain rfl : waiting = n + 1 := by rw [ht] at h; exact h
    rw [tally, ht]

/-- **Pairing braces leaves over what the tally says.** -/
theorem tally_map_opens (bs : List Brace) :
    tally (bs.map (·.opens))
      = ((Folds.ofBraces bs).unbalanced.length, (Folds.ofBraces bs).openRegions.length) := by
  induction bs with
  | nil => rfl
  | cons b bs ih =>
    rw [List.map_cons, Folds.ofBraces_cons]
    generalize Folds.ofBraces bs = f at ih
    obtain ⟨rs, cs⟩ := f
    cases hopens : b.opens with
    | false => rw [Folds.add_of_closes hopens, tally_false_cons, ih]; rfl
    | true =>
      rw [Folds.add_of_opens hopens]
      cases cs with
      | nil => rw [tally_true_cons_of_eq_zero (by rw [ih]; rfl), ih]; rfl
      | cons c cs => rw [tally_true_cons_of_eq_succ (by rw [ih]; rfl), ih]; rfl

private theorem tally_add_count (s : List Bool) :
    (tally s).2 + s.count false = (tally s).1 + s.count true := by
  induction s with
  | nil => rfl
  | cons b s ih =>
    cases b with
    | false =>
      rw [tally_false_cons, List.count_cons_self, List.count_cons_of_ne (by decide)]
      omega
    | true =>
      rw [List.count_cons_self, List.count_cons_of_ne (by decide)]
      cases hwaiting : (tally s).1 with
      | zero => rw [tally_true_cons_of_eq_zero hwaiting]; omega
      | succ n => rw [tally_true_cons_of_eq_succ hwaiting]; omega

/-! ## The greatest excess -/

/-- How many more braces of a sequence close than open. -/
def excess (s : List Bool) : Int := s.count false - s.count true

private theorem excess_cons_false (s : List Bool) : excess (false :: s) = excess s + 1 := by
  rw [excess, excess, List.count_cons_self, List.count_cons_of_ne (by decide)]
  omega

private theorem excess_cons_true (s : List Bool) : excess (true :: s) = excess s - 1 := by
  rw [excess, excess, List.count_cons_self, List.count_cons_of_ne (by decide)]
  omega

/-- One more brace on the left moves the excess of all beginnings but the empty one, which has
none. -/
private theorem isGreatest_excess_cons {b : Bool} {s : List Bool} {n m step : Int}
    (h : IsGreatest (excess '' {p | p <+: s}) n)
    (hstep : ∀ p, excess (b :: p) = excess p + step) (hle : n + step ≤ m)
    (hm : m = n + step ∧ 0 ≤ m ∨ m = 0) : IsGreatest (excess '' {p | p <+: b :: s}) m := by
  obtain ⟨⟨q, hq, rfl⟩, hupper⟩ := h
  have hpos : 0 ≤ m := by omega
  constructor
  · rcases hm with ⟨rfl, -⟩ | rfl
    · exact ⟨b :: q, List.cons_prefix_cons.mpr ⟨rfl, hq⟩, hstep q⟩
    · exact ⟨[], List.nil_prefix, rfl⟩
  · rintro _ ⟨p, hp, rfl⟩
    rcases List.prefix_cons_iff.mp hp with rfl | ⟨t, rfl, ht⟩
    · exact hpos
    · have := hupper ⟨t, ht, rfl⟩
      rw [hstep]
      omega

/-- **The closing braces that are left over** are as many as any beginning of the sequence has more
closing than opening braces. -/
theorem isGreatest_excess (s : List Bool) :
    IsGreatest (excess '' {p | p <+: s}) (tally s).1 := by
  induction s with
  | nil =>
    refine ⟨⟨[], List.nil_prefix, rfl⟩, ?_⟩
    rintro _ ⟨p, hp, rfl⟩
    obtain rfl := List.prefix_nil.mp hp
    exact le_rfl
  | cons b s ih =>
    cases b with
    | false =>
      rw [tally_false_cons]
      exact isGreatest_excess_cons ih excess_cons_false (by omega) (by omega)
    | true =>
      cases hwaiting : (tally s).1 with
      | zero =>
        rw [hwaiting] at ih
        rw [tally_true_cons_of_eq_zero hwaiting]
        exact isGreatest_excess_cons ih excess_cons_true (by omega) (by omega)
      | succ n =>
        rw [hwaiting] at ih
        rw [tally_true_cons_of_eq_succ hwaiting]
        exact isGreatest_excess_cons ih excess_cons_true (by omega) (by omega)

/-! ## Balanced sequences -/

private theorem Balanced.tally_append {s : List Bool} (h : Balanced s) (t : List Bool) :
    tally (s ++ t) = tally t := by
  induction h generalizing t with
  | nil => rfl
  | @pair inner behind _ _ hinner hbehind =>
    have hwaiting : tally (inner ++ false :: (behind ++ t)) = ((tally t).1 + 1, (tally t).2) := by
      rw [hinner, tally_false_cons, hbehind]
    rw [List.cons_append, List.append_assoc, List.cons_append,
      tally_true_cons_of_eq_succ (congrArg Prod.fst hwaiting), hwaiting]

/-- Balanced sequences with a number of closing braces between them. -/
def BalancedBetween : Nat → List Bool → Prop
  | 0, s => Balanced s
  | n + 1, s => ∃ front back, s = front ++ false :: back ∧ Balanced front ∧ BalancedBetween n back

private theorem BalancedBetween.cons_true {n : Nat} {s : List Bool}
    (h : BalancedBetween (n + 1) s) : BalancedBetween n (true :: s) := by
  obtain ⟨front, back, rfl, hfront, hback⟩ := h
  cases n with
  | zero => exact hfront.pair hback
  | succ n =>
    obtain ⟨middle, back, rfl, hmiddle, hback⟩ := hback
    refine ⟨true :: (front ++ false :: middle), back, ?_, hfront.pair hmiddle, hback⟩
    rw [List.cons_append, List.append_assoc, List.cons_append]

/-- If no opening brace is left over, the closing ones that are stand between balanced sequences. -/
private theorem balancedBetween_of_tally {s : List Bool} (h : (tally s).2 = 0) :
    BalancedBetween (tally s).1 s := by
  induction s with
  | nil => exact .nil
  | cons b s ih =>
    cases b with
    | false => exact ⟨[], s, rfl, .nil, ih h⟩
    | true =>
      cases hwaiting : (tally s).1 with
      | zero =>
        rw [tally_true_cons_of_eq_zero hwaiting] at h
        cases h
      | succ n =>
        rw [tally_true_cons_of_eq_succ hwaiting] at h ⊢
        exact (hwaiting ▸ ih h).cons_true

/-- **Nothing is left over exactly in balanced sequences.** -/
theorem balanced_iff_tally {s : List Bool} : Balanced s ↔ tally s = (0, 0) := by
  constructor
  · intro h
    have hnil := h.tally_append []
    rwa [List.append_nil] at hnil
  · intro h
    have hbetween := balancedBetween_of_tally (s := s) (by rw [h])
    rw [h] at hbetween
    exact hbetween

/-! ## Folding -/

/-- The numbers of braces with and without partners, from the ways in which the braces open. -/
structure Folds.Counts (f : Folds) (s : List Bool) : Prop where
  /-- Every brace has its partner exactly if the sequence is a word of the grammar. -/
  isBalanced_iff : f.isBalanced = true ↔ Balanced s
  /-- The closing braces without a partner are as many as closing braces outnumber opening ones at
  most in a beginning of the sequence; in the empty one they do not. -/
  isGreatest_unbalanced : IsGreatest (excess '' {p | p <+: s}) f.unbalanced.length
  /-- The regions without an end make up for the difference of the totals. -/
  length_openRegions :
    (f.openRegions.length : Int) = f.unbalanced.length + (s.count true - s.count false)
  /-- Every closing brace closes a region or has no partner. -/
  length_closedRegions : f.closedRegions.length + f.unbalanced.length = s.count false

namespace Folds

variable (f : Folds)

private theorem length_closedRegions_add :
    f.closedRegions.length + f.openRegions.length = f.regions.length := by
  rw [closedRegions, openRegions, ← List.countP_eq_length_filter, ← List.countP_eq_length_filter]
  simpa using (List.length_eq_countP_add_countP Region.isClosed (l := f.regions)).symm

private theorem isBalanced_iff_length :
    f.isBalanced = true ↔ f.unbalanced.length = 0 ∧ f.openRegions.length = 0 := by
  rw [isBalanced, Bool.and_eq_true, List.isEmpty_iff, List.length_eq_zero_iff,
    List.length_eq_zero_iff, openRegions, List.filter_eq_nil_iff, List.all_eq_true]
  simp

private theorem length_regions (bs : List Brace) :
    (ofBraces bs).regions.length = (bs.map (·.opens)).count true := by
  have hlength := congrArg List.length (map_opening_regions bs)
  rw [List.length_map, List.length_map, ← List.countP_eq_length_filter] at hlength
  rw [hlength, List.count, List.countP_map]
  congr 1
  funext b
  simp

private theorem counts_ofBraces (bs : List Brace) : (ofBraces bs).Counts (bs.map (·.opens)) := by
  have htally := tally_map_opens bs
  obtain ⟨hunbalanced, hopen⟩ := Prod.mk.inj htally
  have htotal := tally_add_count (bs.map (·.opens))
  have hgreatest := isGreatest_excess (bs.map (·.opens))
  rw [htally] at htotal hgreatest
  have hregions := length_closedRegions_add (ofBraces bs)
  rw [length_regions] at hregions
  refine ⟨?_, hgreatest, by omega, by omega⟩
  rw [isBalanced_iff_length, balanced_iff_tally, htally, Prod.mk.injEq]

end Folds

/-- **Balance and counts in closed form.** Whatever the choices of the user are, folding a text
leaves as many braces without partners as their order says, and none exactly if they are
balanced. -/
theorem counts_fold (p : FoldPreferences) (text : Text) :
    (p.fold text).value.Counts (sides p.skipQuotedStrings text) := by
  rw [← shape_eq_sides]
  exact Folds.counts_ofBraces (braces p.skipQuotedStrings text)

/-- Of three closing braces two come too early, and one that opens comes too late. -/
example : tally (sides true "\x7d\"\x7b\"\x7d\x7b\x7d\x7b".toList) = (2, 1) := by
  decide +kernel

end DumpMode.Folding
