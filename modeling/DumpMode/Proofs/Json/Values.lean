import DumpMode.Proofs.Json.Steps

/-!
# Reading back values

`ReadsBack read v a` says that a reader takes the text of a JSON value as `a`, whatever stands
behind it, and stops right behind it. It is stated for a text in the middle of another one, so that
it goes through lists and records: what stands behind an item is a comma or a bracket, and these end
a number (`endsNumber_renderItems`, `endsNumber_renderMembers`).

A record is read back if its members, one after the other, fill its draft (`Record.Fills`): each has
the name of a field that is not set yet, and its value is read back into that field.
-/

namespace DumpMode.Json

variable {α σ : Type}

/-- A reader takes the text of a value as `a` and leaves what stands behind it. -/
def ReadsBack (read : Reader α) (v : Value) (a : α) : Prop :=
  ∀ rest, EndsNumber rest → read (render v ++ rest) = .ok (a, rest)

/-- What is read back in front of any text is read back alone. -/
theorem ReadsBack.decode {read : Reader α} {v : Value} {a : α} (h : ReadsBack read v a) :
    decode read (render v) = .ok a := by
  have hread := h [] endsNumber_nil
  rw [List.append_nil] at hread
  rw [Json.decode, hread]
  rfl

theorem skipBlank_quote (rest : Text) : skipBlank ('"' :: rest) = '"' :: rest :=
  skipBlank_cons (by decide) rest

/-! ## How texts of values begin -/

/-- The text of a value begins with a character that is neither blank nor the end of an array. -/
private theorem exists_render_eq_cons (v : Value) :
    ∃ c tail, render v = c :: tail ∧ isBlank c = false ∧ c ≠ ']' := by
  cases v with
  | null => exact ⟨_, _, by rw [render], by decide, by decide⟩
  | boolean b => cases b <;> exact ⟨_, _, by rw [render], by decide, by decide⟩
  | number n =>
    obtain ⟨c, digits, hn, hc⟩ := Text.exists_decimal_eq_cons n
    refine ⟨c, digits, by rw [render, hn], isBlank_of_isDigit hc, ?_⟩
    rintro rfl
    cases hc
  | string s => exact ⟨_, _, by rw [render, quote], by decide, by decide⟩
  | array items => cases items <;> exact ⟨_, _, by rw [render], by decide, by decide⟩
  | object members => rcases members with _ | ⟨⟨name, v⟩, members⟩ <;>
      exact ⟨_, _, by rw [render], by decide, by decide⟩

theorem skipBlank_render (v : Value) (rest : Text) :
    skipBlank (render v ++ rest) = render v ++ rest := by
  obtain ⟨c, tail, hv, hc, -⟩ := exists_render_eq_cons v
  rw [hv, List.cons_append, skipBlank_cons hc]

private theorem startsValue_render (v : Value) (rest : Text) : StartsValue (render v ++ rest) := by
  obtain ⟨c, tail, hv, -, hc⟩ := exists_render_eq_cons v
  exact ⟨c, tail ++ rest, by rw [hv, List.cons_append], hc⟩

private theorem endsNumber_renderItems (items : List Value) (rest : Text) :
    EndsNumber (renderItems items ++ rest) := by
  cases items with
  | nil => exact endsNumber_cons (Or.inr (Or.inl rfl)) _
  | cons v items => exact endsNumber_cons (Or.inl rfl) _

theorem endsNumber_renderMembers (members : List (Text × Value)) (rest : Text) :
    EndsNumber (renderMembers members ++ rest) := by
  cases members with
  | nil => exact endsNumber_cons (Or.inr (Or.inr rfl)) _
  | cons e members => exact endsNumber_cons (Or.inl rfl) _

private theorem length_lt_renderItems (items : List Value) :
    items.length < (renderItems items).length := by
  induction items with
  | nil => simp [renderItems]
  | cons v items ih =>
    simp only [renderItems, List.length_cons, List.length_append]
    omega

theorem length_lt_renderMembers (members : List (Text × Value)) :
    members.length < (renderMembers members).length := by
  induction members with
  | nil => simp [renderMembers]
  | cons e members ih =>
    simp only [renderMembers, List.length_cons, List.length_append]
    omega

/-! ## Simple values -/

theorem readsBack_natural {bound n : Nat} (hbound : bound ≤ integerBound) (h : n < bound)
    (expected : String) : ReadsBack (readNatural bound expected) (.number n) n := by
  intro rest hrest
  have hread := readNumber_decimal (Nat.lt_of_lt_of_le h hbound) hrest
  obtain ⟨c, digits, hn, hc⟩ := Text.exists_decimal_eq_cons n
  rw [render, readNatural]
  rw [hn, List.cons_append] at hread ⊢
  simp [skipBlank_cons (isBlank_of_isDigit hc), hc, hread, h]

theorem readsBack_boolean (b : Bool) : ReadsBack readBoolean (.boolean b) b := by
  intro rest _
  cases b <;> rfl

private theorem readsBack_optional_none (read : Reader α) :
    ReadsBack (readOptional read) .null none :=
  fun _ _ ↦ rfl

private theorem readsBack_optional_some {read : Reader α} {n : Nat} {a : α}
    (h : ReadsBack read (.number n) a) : ReadsBack (readOptional read) (.number n) (some a) := by
  intro rest hrest
  have hread := h rest hrest
  obtain ⟨c, digits, hn, hc⟩ := Text.exists_decimal_eq_cons n
  rw [render, hn, List.cons_append] at hread ⊢
  rw [readOptional, skipBlank_cons (isBlank_of_isDigit hc)]
  split
  · rename_i heq
    obtain ⟨rfl, -⟩ := List.cons.inj heq
    cases hc
  · rw [hread]
    rfl

theorem readsBack_optional {read : Reader Nat} {o : Option Nat}
    (h : ∀ n ∈ o, ReadsBack read (.number n) n) :
    ReadsBack (readOptional read) (.optional (o.map .number)) o := by
  cases o with
  | none => exact readsBack_optional_none read
  | some n => exact readsBack_optional_some (h n rfl)

theorem readsBack_choice {choices : List (String × α)} {name : String} {a : α}
    (h : Document.choose choices name.toList = .ok a) :
    ReadsBack (readChoice choices) (.word name) a := by
  intro rest _
  rw [Value.word, render, quote_append, readChoice, skipBlank_cons (by decide)]
  have hchoose : choose choices name.toList = .ok a := by
    rw [choose, h]
    rfl
  simp only [readString_flatMap_escape, bind, Except.bind, hchoose]
  rfl

/-! ## Lists -/

private theorem readItems_renderItems {item : Reader α} {json : α → Value} {as : List α}
    (h : ∀ a ∈ as, ReadsBack item (json a) a) {found : List α} (hfound : found ≠ []) {fuel : Nat}
    (hfuel : as.length < fuel) (rest : Text) :
    readItems item fuel found (renderItems (as.map json) ++ rest)
      = .ok (found.reverse ++ as, rest) := by
  obtain ⟨fuel, rfl⟩ := Nat.exists_eq_succ_of_ne_zero (Nat.ne_of_gt (Nat.zero_lt_of_lt hfuel))
  induction as generalizing found fuel with
  | nil =>
    rw [List.map_nil, renderItems, List.append_nil]
    exact readItems_end rfl fuel
  | cons a as ih =>
    obtain ⟨fuel, rfl⟩ := Nat.exists_eq_succ_of_ne_zero (n := fuel) (by
      simp only [List.length_cons] at hfuel
      omega)
    have hitem := h a List.mem_cons_self _ (endsNumber_renderItems (as.map json) rest)
    have htail := ih (fun b hb ↦ h b (List.mem_cons_of_mem _ hb)) (List.cons_ne_nil a found) fuel
      (Nat.lt_of_succ_lt_succ hfuel)
    rw [List.reverse_cons, List.append_assoc] at htail
    rw [List.map_cons, renderItems, List.cons_append, List.append_assoc,
      readItems_next (skipBlank_cons (by decide) _) (skipBlank_render _ _)
        (startsValue_render _ _) hfound, hitem]
    exact htail

/-- **A list is read back** if its items are. -/
theorem readsBack_list {item : Reader α} {json : α → Value} {as : List α}
    (h : ∀ a ∈ as, ReadsBack item (json a) a) :
    ReadsBack (readList item) (.array (as.map json)) as := by
  intro rest _
  cases as with
  | nil => rfl
  | cons a as =>
    have hitem := h a List.mem_cons_self _ (endsNumber_renderItems (as.map json) rest)
    have hlength := length_lt_renderItems (as.map json)
    rw [List.length_map] at hlength
    rw [List.map_cons, render, List.cons_append, List.append_assoc, readList,
      skipBlank_cons (by decide)]
    simp only [readItems_first (skipBlank_render _ _) (startsValue_render _ _), hitem]
    refine readItems_renderItems (fun b hb ↦ h b (List.mem_cons_of_mem _ hb))
      (List.cons_ne_nil a []) ?_ rest
    simp only [List.length_append]
    omega

/-! ## Records -/

/-- Members, one after the other, fill a draft: each has the name of a field that the draft does not
have yet, and its value is read back into that field. -/
inductive Record.Fills (r : Record σ α) : σ → List (Text × Value) → σ → Prop
  | nil (draft : σ) : r.Fills draft [] draft
  | cons {f : Field σ} {name : Text} {v : Value} {draft next last : σ}
    {members : List (Text × Value)}
    (hfind : r.fields.find? (·.name.toList == name) = some f)
    (hset : f.isSet draft = false)
    (hread : ReadsBack (f.read draft) v next)
    (htail : r.Fills next members last) :
    r.Fills draft ((name, v) :: members) last

namespace Record

variable {r : Record σ α}

theorem Fills.field {β : Type} {name : String} {value : Reader β} {get : σ → Option β}
    {set : σ → β → σ} {v : Value} {b : β} {draft last : σ} {members : List (Text × Value)}
    (hfind : r.fields.find? (·.name == name) = some (.of name value get set))
    (hget : get draft = none) (hread : ReadsBack value v b)
    (htail : r.Fills (set draft b) members last) :
    r.Fills draft (member name v :: members) last := by
  have hname : (fun f : Field σ ↦ f.name.toList == name.toList) = fun f ↦ f.name == name := by
    funext f
    rw [Bool.eq_iff_iff, beq_iff_eq, beq_iff_eq, String.toList_inj]
  refine .cons (hname ▸ hfind) ?_ ?_ htail
  · simp only [Field.of, hget, Option.isSome_none]
  · intro rest hrest
    simp only [Field.of, hread rest hrest, Except.map]

private theorem readMember_eq {f : Field σ} {name : Text} {v : Value} {draft next : σ}
    (hfind : r.fields.find? (·.name.toList == name) = some f) (hset : f.isSet draft = false)
    (hread : ReadsBack (f.read draft) v next) {rest : Text} (hrest : EndsNumber rest) :
    r.readMember draft (name.flatMap escape ++ '"' :: ':' :: (render v ++ rest))
      = .ok (next, rest) := by
  have hcolon : readColon (':' :: (render v ++ rest)) = .ok (render v ++ rest) := rfl
  simp [readMember, readString_flatMap_escape, hfind, hset, hcolon, hread rest hrest, bind,
    Except.bind]

/-- The members of an object behind the first are read into the draft, by induction on how they
fill it. -/
private theorem readMembers_renderMembers {draft last : σ} {members : List (Text × Value)}
    (h : r.Fills draft members last) {a : α} (ha : r.finish last = .ok a) {fuel : Nat}
    (hfuel : members.length < fuel) (rest : Text) :
    r.readMembers fuel false draft (renderMembers members ++ rest) = .ok (a, rest) := by
  obtain ⟨fuel, rfl⟩ := Nat.exists_eq_succ_of_ne_zero (Nat.ne_of_gt (Nat.zero_lt_of_lt hfuel))
  induction h generalizing fuel with
  | nil draft => exact (readMembers_end rfl false fuel draft a rest).mpr ⟨ha, rfl⟩
  | @cons f name v draft next last members hfind hset hread _ ih =>
    obtain ⟨fuel, rfl⟩ := Nat.exists_eq_succ_of_ne_zero (n := fuel) (by
      simp only [List.length_cons] at hfuel
      omega)
    have hmember := readMember_eq hfind hset hread (endsNumber_renderMembers members rest)
    rw [renderMembers, List.cons_append, List.append_assoc, List.cons_append, List.append_assoc,
      quote_append, readMembers_next (skipBlank_cons (by decide) _) (skipBlank_quote _), hmember]
    exact ih ha fuel (Nat.lt_of_succ_lt_succ hfuel)

/-- **A record is read back** if its members fill a draft that makes up the record. -/
theorem readsBack_object (last : σ) {members : List (Text × Value)}
    (h : r.Fills r.blank members last) {a : α} (ha : r.finish last = .ok a) :
    ReadsBack r.read (.object members) a := by
  intro rest _
  cases h with
  | nil =>
    have hend : skipBlank ('\x7d' :: rest) = '\x7d' :: rest := skipBlank_cons (by decide) rest
    exact (readMembers_end hend true ('\x7d' :: rest).length r.blank a rest).mpr ⟨ha, rfl⟩
  | @cons f name v _ next _ members hfind hset hread htail =>
    have hmember := readMember_eq hfind hset hread (endsNumber_renderMembers members rest)
    have hlength := length_lt_renderMembers members
    rw [render, List.cons_append, List.append_assoc, List.cons_append, List.append_assoc,
      quote_append, read, skipBlank_cons (by decide)]
    simp only [readMembers_first (skipBlank_quote _), hmember]
    refine readMembers_renderMembers htail ha ?_ rest
    simp only [List.length_append, List.length_cons]
    omega

end Record

end DumpMode.Json
