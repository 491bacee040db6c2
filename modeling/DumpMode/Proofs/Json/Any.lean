import DumpMode.Json.Any
import DumpMode.Proofs.Json.Values
import DumpMode.Proofs.Lookup

/-!
# Any value is read back

A value whose numbers fit into 64 bits is read back from its text if its brackets are not nested
too deeply (`Readable`, `readsBack_nested`). The proof follows the value; objects take their members
from a loop of their own, which is dealt with as the loops of lists and records are. The text itself
is of printable characters only (`printable_render`), so it stands on one line whatever its strings
hold.
-/

namespace DumpMode.Json

/-! ## Objects -/

section Pairs

variable {α : Type} {value : Reader α} {found : List (Text × α)} {text tail rest : Text}

private theorem readPairs_first (htext : skipBlank text = '"' :: rest) (fuel : Nat) :
    readPairs value (fuel + 1) [] text =
      (readPair value rest >>= fun p ↦ readPairs value fuel [p.1] p.2) := by
  rw [readPairs, htext]
  rfl

private theorem readPairs_next (htext : skipBlank text = ',' :: tail)
    (htail : skipBlank tail = '"' :: rest) (hfound : found ≠ []) (fuel : Nat) :
    readPairs value (fuel + 1) found text =
      (readPair value rest >>= fun p ↦ readPairs value fuel (p.1 :: found) p.2) := by
  rw [readPairs, htext]
  simp [hfound, htail]

private theorem readPairs_end (htext : skipBlank text = '\x7d' :: rest) (fuel : Nat) :
    readPairs value (fuel + 1) found text = .ok (found.reverse, rest) := by
  rw [readPairs, htext]
  rfl

private theorem readPair_eq (name : Text) {v : Value} {a : α} (h : ReadsBack value v a)
    (hrest : EndsNumber rest) :
    readPair value (name.flatMap escape ++ '"' :: ':' :: (render v ++ rest))
      = .ok ((name, a), rest) := by
  have hcolon : readColon (':' :: (render v ++ rest)) = .ok (render v ++ rest) := rfl
  simp [readPair, readString_flatMap_escape, hcolon, h rest hrest, bind, Except.bind, pure,
    Except.pure]

end Pairs

section Members

variable {value : Reader Value} {members : List (Text × Value)} {name : Text}

private theorem readPairs_renderMembers (h : ∀ m ∈ members, ReadsBack value m.2 m.2)
    {found : List (Text × Value)} (hfound : found ≠ []) {fuel : Nat}
    (hfuel : members.length < fuel) (rest : Text) :
    readPairs value fuel found (renderMembers members ++ rest)
      = .ok (found.reverse ++ members, rest) := by
  obtain ⟨fuel, rfl⟩ := Nat.exists_eq_succ_of_ne_zero (Nat.ne_of_gt (Nat.zero_lt_of_lt hfuel))
  induction members generalizing found fuel with
  | nil =>
    rw [renderMembers, List.append_nil]
    exact readPairs_end rfl fuel
  | cons m members ih =>
    obtain ⟨name, a⟩ := m
    obtain ⟨fuel, rfl⟩ := Nat.exists_eq_succ_of_ne_zero (n := fuel) (by
      simp only [List.length_cons] at hfuel
      omega)
    have hmember := readPair_eq name (h _ List.mem_cons_self)
      (endsNumber_renderMembers members rest)
    have htail := ih (fun m hm ↦ h m (List.mem_cons_of_mem _ hm))
      (List.cons_ne_nil (name, a) found) fuel (Nat.lt_of_succ_lt_succ hfuel)
    rw [List.reverse_cons, List.append_assoc] at htail
    rw [renderMembers, List.cons_append, List.append_assoc, List.cons_append,
      List.append_assoc, quote_append,
      readPairs_next (skipBlank_cons (by decide) _) (skipBlank_quote _) hfound, hmember]
    exact htail

/-- **An object is read back** if its members are. -/
theorem readsBack_map (h : ∀ m ∈ members, ReadsBack value m.2 m.2) :
    ReadsBack (readMap value) (.object members) members := by
  intro rest _
  cases members with
  | nil => rfl
  | cons m members =>
    obtain ⟨name, a⟩ := m
    have hmember := readPair_eq name (h _ List.mem_cons_self)
      (endsNumber_renderMembers members rest)
    have hlength := length_lt_renderMembers members
    rw [render, List.cons_append, List.append_assoc, List.cons_append,
      List.append_assoc, quote_append, readMap, skipBlank_cons (by decide)]
    simp only [readPairs_first (skipBlank_quote _), hmember]
    refine readPairs_renderMembers (fun m hm ↦ h m (List.mem_cons_of_mem _ hm))
      (List.cons_ne_nil (name, a) []) ?_ rest
    simp only [List.length_append, List.length_cons]
    omega

theorem member?_object_eq_some_iff (h : (members.map Prod.fst).Nodup) {v : Value} :
    (Value.object members).member? name = some v ↔ (name, v) ∈ members := by
  rw [Value.member?, lookup_reverse h, lookup_eq_some_iff_mem h]

theorem member?_object_eq_none (h : name ∉ members.map Prod.fst) :
    (Value.object members).member? name = none := by
  rw [Value.member?]
  refine lookup_eq_none ?_
  rwa [List.map_reverse, List.mem_reverse]

end Members

/-! ## Values -/

/-- A value whose numbers fit into 64 bits and whose brackets are nested up to a depth. -/
inductive Readable : Nat → Value → Prop
  | null (depth : Nat) : Readable depth .null
  | boolean (depth : Nat) (b : Bool) : Readable depth (.boolean b)
  | number (depth : Nat) {n : Nat} (h : n < integerBound) : Readable depth (.number n)
  | string (depth : Nat) (s : Text) : Readable depth (.string s)
  | array {depth : Nat} {items : List Value} (h : ∀ v ∈ items, Readable depth v) :
    Readable (depth + 1) (.array items)
  | object {depth : Nat} {members : List (Text × Value)} (h : ∀ m ∈ members, Readable depth m.2) :
    Readable (depth + 1) (.object members)

private theorem readNested_of_readScalar {c : Char} {tail rest : Text} {v : Value}
    (harray : c ≠ '[') (hobject : c ≠ '\x7b') (hblank : isBlank c = false)
    (h : readScalar (c :: tail) = .ok (v, rest)) (depth : Nat) :
    readNested depth (c :: tail) = .ok (v, rest) := by
  cases depth with
  | zero => exact h
  | succ depth =>
    rw [readNested, skipBlank_cons hblank]
    split
    · rename_i heq
      exact absurd (List.cons.inj heq).1 harray
    · rename_i heq
      exact absurd (List.cons.inj heq).1 hobject
    · exact h

private theorem readScalar_number {n : Nat} (h : n < integerBound) {rest : Text}
    (hrest : EndsNumber rest) :
    readScalar (Text.decimal n ++ rest) = .ok (.number n, rest) := by
  have hread := readsBack_natural (Nat.le_refl _) h "u64" rest hrest
  obtain ⟨c, digits, hn, hc⟩ := Text.exists_decimal_eq_cons n
  rw [render, hn, List.cons_append] at hread
  rw [hn, List.cons_append, readScalar, skipBlank_cons (isBlank_of_isDigit hc), hread]
  split
  case h_5 => rfl
  all_goals
    rename_i heq
    obtain ⟨rfl, -⟩ := List.cons.inj heq
    cases hc

/-- **Every readable value is read back from its text**, by induction on the value. -/
theorem readsBack_nested {depth : Nat} {v : Value} (h : Readable depth v) :
    ReadsBack (readNested depth) v v := by
  induction h with
  | null depth =>
    intro rest _
    exact readNested_of_readScalar (by decide) (by decide) (by decide) rfl depth
  | boolean depth b =>
    intro rest _
    cases b <;> exact readNested_of_readScalar (by decide) (by decide) (by decide) rfl depth
  | @number depth n h =>
    intro rest hrest
    have hread := readScalar_number h hrest
    obtain ⟨c, digits, hn, hc⟩ := Text.exists_decimal_eq_cons n
    rw [hn, List.cons_append] at hread
    rw [render, hn, List.cons_append]
    refine readNested_of_readScalar ?_ ?_ (isBlank_of_isDigit hc) hread depth <;>
      (rintro rfl; cases hc)
  | string depth s =>
    intro rest _
    have hread : readScalar ('"' :: (s.flatMap escape ++ '"' :: rest)) = .ok (.string s, rest) := by
      rw [readScalar, skipBlank_quote]
      simp only [readString_flatMap_escape]
      rfl
    rw [render, quote_append]
    exact readNested_of_readScalar (by decide) (by decide) (by decide) hread depth
  | @array depth items _ ih =>
    intro rest hrest
    have hitems : ReadsBack (readList (readNested depth)) (.array (items.map id)) items :=
      readsBack_list ih
    have hread := hitems rest hrest
    rw [List.map_id] at hread
    rw [readNested, skipBlank_render]
    -- only the bracket in front is looked at before the list is read
    obtain ⟨tail, htail⟩ : ∃ tail, render (.array items) = '[' :: tail := by
      cases items <;> exact ⟨_, by rw [render]⟩
    rw [hread, htail]
    rfl
  | @object depth members _ ih =>
    intro rest hrest
    have hread := readsBack_map ih rest hrest
    rw [readNested, skipBlank_render]
    obtain ⟨tail, htail⟩ : ∃ tail, render (.object members) = '\x7b' :: tail := by
      rcases members with _ | ⟨⟨name, v⟩, members⟩ <;> exact ⟨_, by rw [render]⟩
    rw [hread, htail]
    rfl

/-! ## Printable texts -/

/-- A text without control characters, and so without an end of line. -/
def Printable (text : Text) : Prop := ∀ c ∈ text, 32 ≤ c.toNat

instance (text : Text) : Decidable (Printable text) := List.decidableBAll _ text

private theorem Printable.append {front back : Text} (hfront : Printable front)
    (hback : Printable back) : Printable (front ++ back) := by
  intro c hc
  exact (List.mem_append.mp hc).elim (hfront c) (hback c)

private theorem Printable.cons {c : Char} {text : Text} (hc : 32 ≤ c.toNat) (h : Printable text) :
    Printable (c :: text) := List.forall_mem_cons.mpr ⟨hc, h⟩

private theorem printable_escape (c : Char) : Printable (escape c) := by
  have hdigit : ∀ d : Fin 16, 32 ≤ (Text.digit d).toNat := by decide
  unfold escape
  iterate 7
    split
    · exact .cons (by decide) (.cons (by decide) nofun)
  split
  · rename_i hcontrol
    have hhigh := hdigit ⟨c.toNat / 16, by omega⟩
    have hlow := hdigit ⟨c.toNat % 16, by omega⟩
    exact .cons (by decide) (.cons (by decide) (.cons (by decide) (.cons (by decide)
      (.cons hhigh (.cons hlow nofun)))))
  · rename_i hcontrol
    exact .cons (by omega) nofun

private theorem printable_quote (s : Text) : Printable (quote s) := by
  have hletters : Printable (s.flatMap escape) := by
    intro c hc
    obtain ⟨d, -, hd⟩ := List.mem_flatMap.mp hc
    exact printable_escape d c hd
  exact .cons (by decide) (hletters.append (.cons (by decide) nofun))

private theorem printable_decimal (n : Nat) : Printable (Text.decimal n) := by
  intro c hc
  have hdigit := Text.isDigit_of_mem_decimal hc
  rw [Char.isDigit, Bool.and_eq_true, decide_eq_true_iff, decide_eq_true_iff] at hdigit
  exact Nat.le_trans (by decide) (UInt32.le_iff_toNat_le.mp hdigit.1)

mutual

/-- **The text of a value has no control characters**: those of its strings are escaped. -/
theorem printable_render (v : Value) : Printable (render v) := by
  match v with
  | .null => rw [render]; decide
  | .boolean true => rw [render]; decide
  | .boolean false => rw [render]; decide
  | .number n => rw [render]; exact printable_decimal n
  | .string s => rw [render]; exact printable_quote s
  | .array [] => rw [render]; decide
  | .array (v :: items) =>
    rw [render]
    exact .cons (by decide) ((printable_render v).append (printable_renderItems items))
  | .object [] => rw [render]; decide
  | .object ((name, v) :: members) =>
    rw [render]
    exact .cons (by decide) ((printable_quote name).append
      (.cons (by decide) ((printable_render v).append (printable_renderMembers members))))

private theorem printable_renderItems (items : List Value) : Printable (renderItems items) := by
  match items with
  | [] => rw [renderItems]; decide
  | v :: items =>
    rw [renderItems]
    exact .cons (by decide) ((printable_render v).append (printable_renderItems items))

private theorem printable_renderMembers (members : List (Text × Value)) :
    Printable (renderMembers members) := by
  match members with
  | [] => rw [renderMembers]; decide
  | (name, v) :: members =>
    rw [renderMembers]
    exact .cons (by decide) ((printable_quote name).append
      (.cons (by decide) ((printable_render v).append (printable_renderMembers members))))

end

end DumpMode.Json
