import Mathlib.Data.List.Forall2
import DumpMode.Proofs.Json.Literals
import DumpMode.Proofs.Json.Steps

/-!
# What readers take trees for

A reader is exact if it takes the text of a tree for what the tree spells and for nothing else
(`Decodes`). It is said of a tree in the middle of a text, with blanks in front of it and anything
behind it that a number ends at; so it is carried from the items of a list to the list. Both
directions go by the first character behind the blanks, which tells the kind of the tree.
-/

namespace DumpMode.Json

/-! ## Readers -/

variable {α : Type}

/-- A reader takes the text of a tree for the values that the tree spells and for no others. There
may be blanks in front of it, and the reader stops right behind it. -/
def Decodes (read : Reader α) (spells : Tree → α → Prop) : Prop :=
  ∀ (g : Gap) (t : Tree) {rest : Text}, EndsNumber rest → ∀ (a : α) (r : Text),
    read (g.text ++ (t.text ++ rest)) = .ok (a, r) ↔ spells t a ∧ r = rest

theorem Decodes.of_iff {read : Reader α} {spells spells' : Tree → α → Prop}
    (h : Decodes read spells) (hiff : ∀ t a, spells t a ↔ spells' t a) : Decodes read spells' := by
  intro g t rest hrest a r
  rw [h g t hrest a r, hiff]

private theorem exists_text_array (gap : Gap) (items : List (Padded Tree)) :
    ∃ tail, (Tree.array gap items).text = '[' :: tail := by
  rcases items with _ | ⟨⟨before, v, after⟩, items⟩ <;> exact ⟨_, by rw [Tree.text]⟩

private theorem exists_text_object (gap : Gap) (members : List (Member Tree)) :
    ∃ tail, (Tree.object gap members).text = '\x7b' :: tail := by
  rcases members with _ | ⟨⟨name, ⟨before, v, after⟩⟩, members⟩ <;> exact ⟨_, by rw [Tree.text]⟩

/-- **A whole text is read** as what its tree spells. -/
theorem Decodes.decode {read : Reader α} {spells : Tree → α → Prop} (h : Decodes read spells)
    (d : Padded Tree) (a : α) : decode read d.text = .ok a ↔ spells d.value a := by
  have hblank := skipBlank_gap d.after []
  have hends := endsNumber_gap d.after endsNumber_nil
  rw [List.append_nil] at hblank hends
  have hread := h d.before d.value hends
  rw [Json.decode, Padded.text]
  constructor
  · intro hdecode
    cases heq : read (d.before.text ++ (d.value.text ++ d.after.text)) with
    | error f =>
      rw [heq] at hdecode
      cases hdecode
    | ok p =>
      obtain ⟨hspells, hrest⟩ := (hread p.1 p.2).mp heq
      simp only [heq, hrest, hblank, bind, Except.bind] at hdecode
      cases hdecode
      exact hspells
  · intro hspells
    rw [(hread a d.after.text).mpr ⟨hspells, rfl⟩]
    simp only [bind, Except.bind, hblank]
    rfl

/-! ## Simple values -/

/-- A number is taken for a natural one below a bound in its plain form alone. -/
private theorem readNatural_number {bound : Nat} (hbound : bound ≤ integerBound) (expected : String)
    (g : Gap) (m : Numeral) {rest : Text} (hrest : EndsNumber rest) (n : Nat) (r : Text) :
    readNatural bound expected (g.text ++ (m.text ++ rest)) = .ok (n, r) ↔
      (m = .natural n ∧ n < bound) ∧ r = rest := by
  have hread := fun n r ↦ readNumber_natural (m := m) (n := n) (r := r) hrest
  have hblank : skipBlank (m.text ++ rest) = m.text ++ rest := by
    have hblank := skipBlank_tree (.number m) rest
    rwa [Tree.text] at hblank
  have hhead : (m.text ++ rest).head?.any (fun c ↦ c == '-' || c.isDigit) = true := by
    obtain ⟨c, tail, hm, hc⟩ := m.exists_text_eq_cons
    rw [hm]
    simpa using hc
  simp only [readNatural, skipBlank_gap, hblank, if_pos hhead]
  -- a number in its plain form can still be out of the bound of the reader
  constructor
  · intro h
    split at h
    · cases h
    · rename_i n' rest' heq
      obtain ⟨⟨rfl, -⟩, rfl⟩ := (hread n' rest').mp heq
      by_cases hn : n' < bound
      · rw [if_pos hn] at h
        cases h
        exact ⟨⟨rfl, hn⟩, rfl⟩
      · rw [if_neg hn] at h
        cases h
    · cases h
    · cases h
  · rintro ⟨⟨hm, hn⟩, rfl⟩
    rw [(hread n r).mpr ⟨⟨hm, Nat.lt_of_lt_of_le hn hbound⟩, rfl⟩]
    simp only [if_pos hn]

theorem decodes_natural {bound : Nat} (hbound : bound ≤ integerBound) (expected : String) :
    Decodes (readNatural bound expected) (SpellsNatural bound) := by
  intro g t rest hrest n r
  cases t
  case number m =>
    rw [Tree.text, readNatural_number hbound expected g m hrest, SpellsNatural, Tree.number.injEq]
  -- no other kind of value begins like a number
  all_goals simp only [readNatural, skipBlank_gap, skipBlank_tree]
  case null => simp [Tree.text, SpellsNatural]
  case boolean b => cases b <;> simp [Tree.text, SpellsNatural]
  case string letters => simp [Tree.text, quoted, SpellsNatural]
  case array gap items =>
    obtain ⟨tail, htail⟩ := exists_text_array gap items
    simp [htail, SpellsNatural]
  case object gap members =>
    obtain ⟨tail, htail⟩ := exists_text_object gap members
    simp [htail, SpellsNatural]

theorem Tree.startsValue (t : Tree) (rest : Text) : StartsValue (t.text ++ rest) := by
  obtain ⟨c, tail, ht, -, hc⟩ := t.exists_text_eq_cons
  exact ⟨c, tail ++ rest, by rw [ht, List.cons_append], hc⟩

private theorem Tree.text_append_ne_null {t : Tree} (h : t ≠ .null) (rest tail : Text) :
    t.text ++ rest ≠ 'n' :: tail := by
  cases t with
  | null => exact absurd rfl h
  | boolean b => cases b <;> simp [Tree.text]
  | number m => exact m.text_append_ne_cons (by decide) rest tail
  | string letters => simp [Tree.text, quoted]
  | array gap items =>
    obtain ⟨tail, htail⟩ := exists_text_array gap items
    simp [htail]
  | object gap members =>
    obtain ⟨tail, htail⟩ := exists_text_object gap members
    simp [htail]

/-- A value that may be missing is null or what its reader takes, if the reader takes no null. -/
theorem decodes_optional {read : Reader α} {spells : Tree → α → Prop} (h : Decodes read spells)
    (hnull : ∀ a, ¬spells .null a) : Decodes (readOptional read) (SpellsOptional spells) := by
  intro g t rest hrest o r
  rw [readOptional, skipBlank_gap, skipBlank_tree]
  by_cases ht : t = .null
  · subst ht
    rw [Tree.text]
    show (Except.ok (none, rest) : Except Fault (Option α × Text)) = .ok (o, r) ↔ _
    cases o <;> simp [SpellsOptional, hnull, eq_comm]
  · have hread := fun a r ↦ h [] t hrest a r
    split
    · rename_i heq
      exact absurd heq (Tree.text_append_ne_null ht rest _)
    · rw [map_eq_ok_iff]
      constructor
      · rintro ⟨⟨a, r'⟩, ha, hr⟩
        cases hr
        obtain ⟨hspells, rfl⟩ := (hread a _).mp ha
        exact ⟨hspells, rfl⟩
      · rintro ⟨hspells, rfl⟩
        cases o with
        | none => exact absurd hspells ht
        | some a => exact ⟨(a, r), (hread a r).mpr ⟨hspells, rfl⟩, rfl⟩

/-! ## Choices -/

theorem readColon_colon (g : Gap) (rest : Text) :
    readColon (g.text ++ ':' :: rest) = .ok rest := by
  rw [readColon, skipBlank_gap]
  rfl

private theorem readNull_tree (g : Gap) (t : Tree) (rest r : Text) :
    readNull (g.text ++ (t.text ++ rest)) = .ok r ↔ t = .null ∧ r = rest := by
  rw [readNull, skipBlank_gap, skipBlank_tree]
  by_cases ht : t = .null
  · subst ht
    rw [Tree.text]
    show (Except.ok rest : Except Fault Text) = .ok r ↔ _
    simp [eq_comm]
  · split
    · rename_i heq
      exact absurd heq (Tree.text_append_ne_null ht rest _)
    · simp [ht]

private theorem readObjectEnd_members (g : Gap) (members : List (Member Tree)) (rest r : Text) :
    readObjectEnd (g.text ++ (membersText members ++ rest)) = .ok r ↔ members = [] ∧ r = rest := by
  rw [readObjectEnd, skipBlank_gap]
  rcases members with _ | ⟨⟨name, ⟨before, v, after⟩⟩, members⟩
  · rw [membersText]
    show (Except.ok rest : Except Fault Text) = .ok r ↔ _
    simp [eq_comm]
  · rw [membersText_cons_append, skipBlank_cons (by decide)]
    simp

section Choices

variable {choices : List (String × α)}

private theorem readChoice_string (g : Gap) (letters : List Letter) (rest : Text) (a : α)
    (r : Text) :
    readChoice choices (g.text ++ (quoted letters ++ rest)) = .ok (a, r) ↔
      (∃ s, SpellsName (.string letters) s ∧ choose choices s = .ok a) ∧ r = rest := by
  rw [readChoice]
  simp only [skipBlank_gap, quoted_append, skipBlank_cons (rfl : isBlank '"' = false),
    bind_eq_ok_iff]
  constructor
  · rintro ⟨⟨s, _⟩, hs, b, hb, hr⟩
    obtain ⟨hspelled, rfl⟩ := (readString_letters letters rest s _).mp hs
    cases hr
    exact ⟨⟨s, hspelled, hb⟩, rfl⟩
  · rintro ⟨⟨s, hspelled, hb⟩, rfl⟩
    exact ⟨(s, r), (readString_letters letters r s r).mpr ⟨hspelled, rfl⟩, a, hb, rfl⟩

private theorem readChoice_object (g gap : Gap) (members : List (Member Tree)) (rest : Text) (a : α)
    (r : Text) :
    readChoice choices (g.text ++ ((Tree.object gap members).text ++ rest)) = .ok (a, r) ↔
      (∃ s, SpellsName (.object gap members) s ∧ choose choices s = .ok a) ∧ r = rest := by
  rw [readChoice, skipBlank_gap, skipBlank_tree]
  rcases members with _ | ⟨⟨name, ⟨before, v, after⟩⟩, members⟩
  · rw [text_object_nil_append]
    simp [skipBlank_cons (show isBlank '\x7d' = false by decide), SpellsName]
  · rw [text_object_cons_append]
    simp only [skipBlank_gap, quoted_append, skipBlank_cons (rfl : isBlank '"' = false),
      bind_eq_ok_iff]
    constructor
    · rintro ⟨⟨s, _⟩, hs, b, hb, _, hcolon, _, hnull, _, hend, hr⟩
      obtain ⟨hspelled, rfl⟩ := (readString_letters _ _ _ _).mp hs
      cases (readColon_colon name.after _).symm.trans hcolon
      obtain ⟨rfl, rfl⟩ := (readNull_tree before v _ _).mp hnull
      obtain ⟨rfl, rfl⟩ := (readObjectEnd_members after members rest _).mp hend
      cases hr
      exact ⟨⟨s, ⟨hspelled, rfl⟩, hb⟩, rfl⟩
    · rintro ⟨⟨s, hname, hb⟩, rfl⟩
      cases members with
      | nil =>
        obtain ⟨hspelled, hv⟩ := hname
        cases hv
        exact ⟨(s, _), (readString_letters _ _ _ _).mpr ⟨hspelled, rfl⟩, a, hb, _,
          readColon_colon name.after _, _, (readNull_tree before .null _ _).mpr ⟨rfl, rfl⟩, _,
          (readObjectEnd_members after [] r _).mpr ⟨rfl, rfl⟩, rfl⟩
      -- a second member makes it no spelling of a name
      | cons m members => cases hname

/-- **A choice is read** from its name, and from an object with nothing but its name. -/
theorem decodes_choice (choices : List (String × α)) :
    Decodes (readChoice choices) fun t a ↦ ∃ s, SpellsName t s ∧ choose choices s = .ok a := by
  intro g t rest hrest a r
  cases t
  case string letters =>
    rw [Tree.text]
    exact readChoice_string g letters rest a r
  case object gap members => exact readChoice_object g gap members rest a r
  -- no other kind of value begins like a name or an object
  all_goals
    rw [readChoice]
    simp only [skipBlank_gap, skipBlank_tree]
  case null => simp [Tree.text, SpellsName]
  case boolean b => cases b <;> simp [Tree.text, SpellsName]
  case number m =>
    rw [Tree.text]
    split
    · simp [SpellsName]
    · exact absurd ‹_› (m.text_append_ne_cons (by decide) rest _)
    · exact absurd ‹_› (m.text_append_ne_cons (by decide) rest _)
    · simp [SpellsName]
  case array gap items =>
    obtain ⟨tail, htail⟩ := exists_text_array gap items
    simp [htail, SpellsName]

end Choices

/-! ## Lists -/

section Lists

variable {item : Reader α} {spells : Tree → α → Prop}

private theorem readItems_itemsText (h : Decodes item spells) (items : List (Padded Tree)) (g : Gap)
    {fuel : Nat} (hfuel : items.length < fuel) {found : List α} (hfound : found ≠ [])
    (rest : Text) (as : List α) (r : Text) :
    readItems item fuel found (g.text ++ (itemsText items ++ rest)) = .ok (as, r) ↔
      (∃ bs, List.Forall₂ (fun p a ↦ spells p.value a) items bs ∧ as = found.reverse ++ bs) ∧
        r = rest := by
  obtain ⟨fuel, rfl⟩ := Nat.exists_eq_succ_of_ne_zero (Nat.ne_of_gt (Nat.zero_lt_of_lt hfuel))
  induction items generalizing g found fuel with
  | nil =>
    have hend : skipBlank (g.text ++ (itemsText [] ++ rest)) = ']' :: rest := by
      rw [skipBlank_gap, itemsText]
      rfl
    rw [readItems_end hend]
    simp [List.forall₂_nil_left_iff, eq_comm]
  | cons p items ih =>
    obtain ⟨before, v, after⟩ := p
    obtain ⟨fuel, rfl⟩ := Nat.exists_eq_succ_of_ne_zero (n := fuel) (by
      simp only [List.length_cons] at hfuel
      omega)
    have hread := h [] v (endsNumber_gap after (endsNumber_itemsText items rest))
    -- some item has been found now, whichever it is
    have ih := fun a ↦ ih after (List.cons_ne_nil a found) fuel (Nat.lt_of_succ_lt_succ hfuel)
    rw [itemsText_cons_append, readItems_next (by rw [skipBlank_gap]; rfl)
      (by rw [skipBlank_gap, skipBlank_tree]) (v.startsValue _) hfound, bind_eq_ok_iff]
    constructor
    · rintro ⟨⟨a, _⟩, ha, hrest⟩
      obtain ⟨hspells, rfl⟩ := (hread a _).mp ha
      obtain ⟨⟨bs, hbs, rfl⟩, rfl⟩ := (ih a).mp hrest
      exact ⟨⟨a :: bs, .cons hspells hbs, by simp⟩, rfl⟩
    · rintro ⟨⟨bs, hbs, rfl⟩, rfl⟩
      obtain _ | ⟨hspells, hbs⟩ := hbs
      exact ⟨(_, _), (hread _ _).mpr ⟨hspells, rfl⟩, (ih _).mpr ⟨⟨_, hbs, by simp⟩, rfl⟩⟩

private theorem length_lt_itemsText (items : List (Padded Tree)) :
    items.length < (itemsText items).length := by
  induction items with
  | nil => simp [itemsText]
  | cons p items ih =>
    obtain ⟨before, v, after⟩ := p
    simp only [itemsText, List.length_cons, List.length_append]
    omega

private theorem readItems_array (h : Decodes item spells) (gap : Gap) (items : List (Padded Tree))
    (rest : Text) (as : List α) (r : Text) :
    ∃ tail, (Tree.array gap items).text ++ rest = '[' :: tail ∧
      (readItems item (tail.length + 1) [] tail = .ok (as, r) ↔
        List.Forall₂ (fun p a ↦ spells p.value a) items as ∧ r = rest) := by
  rcases items with _ | ⟨⟨before, v, after⟩, items⟩
  · refine ⟨_, text_array_nil_append gap rest, ?_⟩
    have hend : skipBlank (gap.text ++ ']' :: rest) = ']' :: rest := by
      rw [skipBlank_gap]
      rfl
    rw [readItems_end hend, List.forall₂_nil_left_iff]
    simp [eq_comm]
  · refine ⟨_, text_array_cons_append gap before after v rest items, ?_⟩
    have hread := h [] v (endsNumber_gap after (endsNumber_itemsText items rest))
    have hfuel : items.length < (gap.text ++ (before.text ++ (v.text ++ (after.text ++
        (itemsText items ++ rest))))).length := by
      have := length_lt_itemsText items
      simp only [List.length_append]
      omega
    have hitems := fun a ↦ readItems_itemsText h items after hfuel (List.cons_ne_nil a []) rest
    rw [readItems_first (by rw [skipBlank_gap, skipBlank_gap, skipBlank_tree])
      (v.startsValue _), bind_eq_ok_iff]
    constructor
    · rintro ⟨⟨a, _⟩, ha, htail⟩
      obtain ⟨hspells, rfl⟩ := (hread a _).mp ha
      obtain ⟨⟨bs, hbs, rfl⟩, rfl⟩ := (hitems a as r).mp htail
      exact ⟨.cons hspells hbs, rfl⟩
    · rintro ⟨has, rfl⟩
      obtain _ | ⟨hspells, hbs⟩ := has
      exact ⟨(_, _), (hread _ _).mpr ⟨hspells, rfl⟩, (hitems _ _ _).mpr ⟨⟨_, hbs, rfl⟩, rfl⟩⟩

/-- **A list is read** item by item. -/
theorem decodes_list (h : Decodes item spells) : Decodes (readList item) (SpellsList spells) := by
  intro g t rest hrest as r
  rw [readList, skipBlank_gap, skipBlank_tree]
  cases t with
  | array gap items =>
    obtain ⟨tail, htext, hread⟩ := readItems_array h gap items rest as r
    rw [htext]
    simpa [SpellsList] using hread
  | number m =>
    rw [Tree.text]
    split
    · exact absurd ‹_› (m.text_append_ne_cons (by decide) rest _)
    · simp [SpellsList]
  | null => simp [Tree.text, SpellsList]
  | boolean b => cases b <;> simp [Tree.text, SpellsList]
  | string letters => simp [Tree.text, quoted, SpellsList]
  | object gap members =>
    obtain ⟨tail, htail⟩ := exists_text_object gap members
    simp [htail, SpellsList]

end Lists

end DumpMode.Json
