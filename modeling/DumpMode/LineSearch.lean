import DumpMode.LineMap

/-!
# Searching for a line

The line of an offset is found by bisection of the row of line starts. An offset that is itself
the start of a line is found there; any other one belongs in front of some place of the row, and
its line is the one before. That step back is below zero for an offset in front of the first line.

`LineMap.lineOf` counts line starts instead. `lineBySearch?_eq` says that in a row that grows, and
begins no later than the offset, the two are the same: the step back is never below zero.

With the row of line starts alone, the text of a line is cut out of the whole text: from where the
line begins to one byte in front of the next line, or to the end of the text. That byte has to be
there, and both ends of the cut have to lie between characters.
-/

namespace DumpMode

/-! ## Bisection -/

/-- Looks for a number in a growing row, from the place `low` on and before the place `high`:
`ok` with the place where it stands, or `error` with the place where it would have to be put. -/
def bisect (row : Array Nat) (x low high : Nat) (h : high ≤ row.size) : Except Nat Nat :=
  if hlow : low < high then
    let middle := low + (high - low) / 2
    if row[middle] = x then .ok middle
    else if row[middle] < x then bisect row x (middle + 1) high h
    else bisect row x low middle (by omega)
  else .error low
termination_by high - low

/-- How many numbers of the row are at most the one that was looked for. -/
def atMost : Except Nat Nat → Nat
  | .ok place => place + 1
  | .error place => place

/-- A place divides a row at a number: what stands before the place is at most the number, what
stands there or behind is larger. -/
structure Divides (row : Array Nat) (x place : Nat) : Prop where
  le_size : place ≤ row.size
  le_iff : ∀ (i : Nat) (h : i < row.size), row[i] ≤ x ↔ i < place

/-- The place that divides a row at a number is how many numbers of the row are at most that. -/
private theorem Divides.countP_eq {row : Array Nat} {x place : Nat} (h : Divides row x place) :
    row.toList.countP (fun n ↦ decide (n ≤ x)) = place := by
  have hfront : ∀ n ∈ row.toList.take place, decide (n ≤ x) = true := by
    intro n hn
    obtain ⟨i, hi, rfl⟩ := List.mem_take_iff_getElem.mp hn
    rw [Array.length_toList] at hi
    exact decide_eq_true ((h.le_iff i (by omega)).mpr (by omega))
  have hback : ∀ n ∈ row.toList.drop place, ¬ decide (n ≤ x) = true := by
    intro n hn hle
    obtain ⟨i, hi, rfl⟩ := List.mem_drop_iff_getElem.mp hn
    rw [Array.length_toList, Nat.add_comm] at hi
    exact absurd ((h.le_iff _ hi).mp (of_decide_eq_true hle)) (by omega)
  have hsize := h.le_size
  rw [← List.take_append_drop place row.toList, List.countP_append,
    List.countP_eq_length.mpr hfront, List.countP_eq_zero.mpr hback, List.length_take,
    Array.length_toList]
  omega

/-- **Bisection divides the row**, if what stands before the window is small and what stands
behind it is large. -/
theorem divides_bisect {row : Array Nat} {x low high : Nat} (h : high ≤ row.size)
    (hrow : ∀ (i j : Nat) (hj : j < row.size) (hij : i < j), row[i] < row[j])
    (hwindow : low ≤ high) (hlow : ∀ (i : Nat) (hi : i < row.size), i < low → row[i] < x)
    (hhigh : ∀ (i : Nat) (hi : i < row.size), high ≤ i → x < row[i]) :
    Divides row x (atMost (bisect row x low high h)) := by
  fun_induction bisect row x low high h with
  | case1 low high h hlt middle hfound =>
    refine ⟨by simp only [atMost]; omega, fun i hi ↦ ?_⟩
    -- the number stands in the row, and those before and behind it follow by the order
    obtain hbefore | rfl | hbehind := Nat.lt_trichotomy i middle
    · have := hrow i middle (by omega) hbefore
      simp only [atMost]
      omega
    · simp only [atMost]
      omega
    · have := hrow middle i hi hbehind
      simp only [atMost]
      omega
  | case2 low high h hlt middle hne hless ih =>
    refine ih hrow (by omega) (fun i hi hbefore ↦ ?_) hhigh
    obtain hi' | rfl := Nat.lt_or_eq_of_le (Nat.le_of_lt_succ hbefore)
    · exact Nat.lt_trans (hrow i middle (by omega) hi') hless
    · exact hless
  | case3 low high h hlt middle hne hless ih =>
    have hlarge : x < row[middle] := by omega
    refine ih hrow (by omega) hlow (fun i hi hbehind ↦ ?_)
    obtain hi' | rfl := Nat.lt_or_eq_of_le hbehind
    · exact Nat.lt_trans hlarge (hrow middle i hi hi')
    · exact hlarge
  | case4 low high h hempty =>
    refine ⟨by simp only [atMost]; omega, fun i hi ↦ ?_⟩
    simp only [atMost]
    -- the window is empty, so every place lies before it or behind it
    by_cases hbefore : i < low
    · have := hlow i hi hbefore
      omega
    · have := hhigh i hi (by omega)
      omega

namespace LineMap

/-! ## Lines by bisection -/

def starts (map : LineMap) : Array Nat := (map.lines.map (·.offset)).toArray

/-- The number of the line that an offset falls on, by a search for the offset among the line
starts. -/
def lineBySearch? (map : LineMap) (offset : Nat) : Except Breach Nat :=
  match bisect map.starts offset 0 map.starts.size (Nat.le_refl _) with
  | .ok index => .ok ((index + 1) % lineBound)
  | .error 0 => .error .negativeDifference
  | .error (index + 1) => .ok ((index + 1) % lineBound)

/-- The search gives the line in every map whose line starts grow, for every offset that does not
lie before the first of them. -/
theorem lineBySearch?_eq {map : LineMap} {offset : Nat}
    (hlines : map.lines.Pairwise (·.offset < ·.offset))
    (hfirst : ∃ l ∈ map.lines, l.offset ≤ offset) :
    map.lineBySearch? offset = .ok (map.lineOf offset) := by
  have hrow : ∀ (i j : Nat) (hj : j < map.starts.size) (hij : i < j),
      map.starts[i] < map.starts[j] := by
    intro i j hj hij
    have := List.pairwise_iff_getElem.mp hlines
    simp only [starts, List.getElem_toArray, List.getElem_map]
    exact this i j _ _ hij
  have hdivides := divides_bisect (x := offset) (Nat.le_refl map.starts.size) hrow (Nat.zero_le _)
    (fun i _ hi ↦ absurd hi (Nat.not_lt_zero i)) (fun i hi hle ↦ absurd hi (Nat.not_lt.mpr hle))
  have hcount : map.lines.countP (fun l ↦ decide (l.offset ≤ offset))
      = atMost (bisect map.starts offset 0 map.starts.size (Nat.le_refl _)) := by
    rw [← hdivides.countP_eq, starts, List.countP_map]
    rfl
  have hpos : 0 < map.lines.countP (fun l ↦ decide (l.offset ≤ offset)) := by
    obtain ⟨l, hl, hle⟩ := hfirst
    exact List.countP_pos_iff.mpr ⟨l, hl, decide_eq_true hle⟩
  rw [hcount] at hpos
  rw [lineBySearch?, lineOf, hcount]
  split
  · rename_i hfound
    rw [hfound]
    rfl
  · -- no line begins so early, against the assumption
    rename_i hfound
    rw [hfound] at hpos
    exact absurd hpos (Nat.lt_irrefl 0)
  · rename_i hfound
    rw [hfound]
    rfl

/-! ## Lines by cutting -/

/-- The offset where a line ends, from that of the next line. -/
def stopBefore? (text : Text) : Option Nat → Except Breach Nat
  | none => .ok text.byteLength
  | some 0 => .error .negativeDifference
  | some (stop + 1) => .ok stop

/-- The text of a line, counted from one, without its line end; it is cut out of the whole text
between the offsets of two lines. -/
def lineBySlice? (map : LineMap) (text : Text) : Nat → Except Breach (Option Text)
  | 0 => .ok none
  | index + 1 =>
    match map.starts[index]? with
    | none => .ok none
    | some start => do
      let stop ← stopBefore? text map.starts[index + 1]?
      match Text.slice? text start stop with
      | some line => .ok (some (dropReturns line))
      | none => .error .badSlice

end LineMap

end DumpMode
