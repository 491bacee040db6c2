import Mathlib.Data.List.Nodup
import DumpMode.Proofs.Json.Decodes

/-!
# Records from trees

A record is read into a draft, one field after the other. A `Slot` is a field with all there is to
know of it: which values it takes, and what of a draft it is. If the slots of a record are `Apart`,
setting one leaves the others alone, so the order of the members of an object does not matter: a
draft is filled if each slot is, on its own, by the members of its name (`fills_cons` for one
member, `readMembers_membersText` for all). The members that have no slot are passed. An array gives
the slots their values in order.
-/

namespace DumpMode.Json

open Record (conclude_eq_ok_iff readArrayEnd readElements_first readElements_next readElements_short
  readMembers_end readMembers_first readMembers_next)

variable {σ α : Type}

/-! ## Members by name -/

section Members

variable {m : Member Tree} {members : List (Member Tree)} {name : String}
  {spells : Tree → α → Prop} {a : α}

private theorem valuesOf_cons_self (h : m.name? = some name.toList) :
    valuesOf (m :: members) name = m.value.value :: valuesOf members name := by
  simp [valuesOf, h]

private theorem valuesOf_cons_of_ne (h : m.name? ≠ some name.toList) :
    valuesOf (m :: members) name = valuesOf members name := by
  simp [valuesOf, h]

private theorem named_cons : Named (m :: members) ↔ m.name? ≠ none ∧ Named members :=
  List.forall_mem_cons

theorem Has.exists_valuesOf (h : Has members name spells a) : ∃ t, valuesOf members name = [t] := by
  obtain ⟨t, hvalues, -⟩ := h
  exact ⟨t, hvalues⟩

theorem Has.forall_valuesOf (h : Has members name spells a) {P : Tree → Prop}
    (hspells : ∀ t, spells t a → P t) : ∀ t ∈ valuesOf members name, P t := by
  obtain ⟨t, hvalues, ht⟩ := h
  rw [hvalues]
  rintro _ (- | ⟨_, hmem⟩)
  · exact hspells t ht
  · cases hmem

end Members

/-! ## Slots -/

/-- A field of a draft. -/
structure Slot (σ : Type) where
  {β : Type}
  name : String
  value : Reader β
  spells : Tree → β → Prop
  /-- What a draft has there. -/
  get : σ → Option β
  /-- The draft with a value put there. -/
  set : σ → β → σ

namespace Slot

def field (s : Slot σ) : Field σ := .of s.name s.value s.get s.set

/-- The values of the members of its name take a slot from `before` to `after`: there are none, or
there is one and the slot was empty. -/
def Takes (s : Slot σ) (before after : Option s.β) : List Tree → Prop
  | [] => after = before
  | [t] => before = none ∧ ∃ b, s.spells t b ∧ after = some b
  | _ => False

private theorem takes_cons (s : Slot σ) (before after : Option s.β) (t : Tree) (ts : List Tree) :
    s.Takes before after (t :: ts) ↔
      before = none ∧ ∃ b, s.spells t b ∧ s.Takes (some b) after ts := by
  rcases ts with _ | ⟨t', _ | ⟨t'', ts⟩⟩ <;> simp [Takes]

section Empty

variable {β : Type} (name : String) (value : Reader β) (spells : Tree → β → Prop)
  (get : σ → Option β) (set : σ → β → σ) (members : List (Member Tree))

theorem takes_none_some (b : β) :
    Takes ⟨name, value, spells, get, set⟩ none (some b) (valuesOf members name)
      ↔ Has members name spells b := by
  rw [Has]
  rcases valuesOf members name with _ | ⟨t, _ | ⟨t', ts⟩⟩ <;> simp [Takes]

theorem takes_none_none :
    Takes ⟨name, value, spells, get, set⟩ none none (valuesOf members name)
      ↔ valuesOf members name = [] := by
  rcases valuesOf members name with _ | ⟨t, _ | ⟨t', ts⟩⟩ <;> simp [Takes]

end Empty

end Slot

/-- Slots that make up a draft and are independent of each other. -/
structure Apart (slots : List (Slot σ)) : Prop where
  decodes : ∀ s ∈ slots, Decodes s.value s.spells
  nodup : (slots.map (·.name)).Nodup
  get_set : ∀ s ∈ slots, ∀ d b, s.get (s.set d b) = some b
  get_set_of_ne : ∀ s ∈ slots, ∀ t ∈ slots, t.name ≠ s.name → ∀ d b, t.get (s.set d b) = t.get d
  ext : ∀ d d', (∀ s ∈ slots, s.get d = s.get d') → d = d'

/-- The members of an object fill a draft: each has a name, and each slot takes the values of the
members of its own name. -/
def Fills (slots : List (Slot σ)) (members : List (Member Tree)) (draft last : σ) : Prop :=
  Named members ∧ ∀ s ∈ slots, s.Takes (s.get draft) (s.get last) (valuesOf members s.name)

/-- A single member fills a draft: it goes to the slot of its name, which must be empty, or nowhere
if there is none. -/
def Puts (slots : List (Slot σ)) (name : Text) (t : Tree) (draft next : σ) : Prop :=
  match slots.find? (·.name.toList == name) with
  | none => next = draft
  | some s => s.get draft = none ∧ ∃ b, s.spells t b ∧ next = s.set draft b

variable {slots : List (Slot σ)}

private theorem fills_nil (h : Apart slots) (draft last : σ) :
    Fills slots [] draft last ↔ last = draft := by
  constructor
  · rintro ⟨-, hlast⟩
    exact h.ext _ _ hlast
  · rintro rfl
    exact ⟨fun _ hm ↦ (nomatch hm), fun _ _ ↦ rfl⟩

/-- **One step**: a member is put into its slot, and the others fill what is left. -/
private theorem fills_cons (h : Apart slots) {m : Member Tree} {members : List (Member Tree)}
    {name : Text} (hname : m.name? = some name) (draft last : σ) :
    Fills slots (m :: members) draft last ↔
      ∃ next, Puts slots name m.value.value draft next ∧ Fills slots members next last := by
  have hm : m.name? ≠ none := by simp [hname]
  rw [Fills, named_cons]
  cases hfind : slots.find? (·.name.toList == name) with
  | none =>
    -- the member has no slot, and each slot has the members that it had
    have hvalues : ∀ s ∈ slots, valuesOf (m :: members) s.name = valuesOf members s.name := by
      intro s hs
      refine valuesOf_cons_of_ne fun heq ↦ ?_
      rw [hname, Option.some.injEq] at heq
      have := List.find?_eq_none.mp hfind s hs
      simp [heq] at this
    simp only [Puts, hfind, exists_eq_left]
    constructor
    · rintro ⟨⟨-, hnamed⟩, htakes⟩
      exact ⟨hnamed, fun s hs ↦ hvalues s hs ▸ htakes s hs⟩
    · rintro ⟨hnamed, htakes⟩
      exact ⟨⟨hm, hnamed⟩, fun s hs ↦ (hvalues s hs).symm ▸ htakes s hs⟩
  | some s =>
    have hs : s ∈ slots := List.mem_of_find?_eq_some hfind
    have hsname : s.name.toList = name := by simpa using List.find?_some hfind
    have hself : valuesOf (m :: members) s.name = m.value.value :: valuesOf members s.name :=
      valuesOf_cons_self (hname.trans (congrArg some hsname.symm))
    have hother : ∀ t ∈ slots, t.name ≠ s.name →
        valuesOf (m :: members) t.name = valuesOf members t.name := by
      intro t _ hne
      refine valuesOf_cons_of_ne fun heq ↦ hne ?_
      rw [hname, Option.some.injEq, ← hsname] at heq
      exact (String.toList_inj.mp heq).symm
    have hunique : ∀ t ∈ slots, t.name = s.name → t = s := fun t ht ↦
      List.inj_on_of_nodup_map h.nodup ht hs
    simp only [Puts, hfind]
    constructor
    · rintro ⟨⟨-, hnamed⟩, htakes⟩
      have hslot := htakes s hs
      rw [hself, s.takes_cons] at hslot
      obtain ⟨hempty, b, hb, htail⟩ := hslot
      refine ⟨s.set draft b, ⟨hempty, b, hb, rfl⟩, hnamed, fun t ht ↦ ?_⟩
      by_cases hts : t.name = s.name
      · obtain rfl := hunique t ht hts
        rw [h.get_set t ht]
        exact htail
      · rw [h.get_set_of_ne s hs t ht hts, ← hother t ht hts]
        exact htakes t ht
    · rintro ⟨_, ⟨hempty, b, hb, rfl⟩, hnamed, htakes⟩
      refine ⟨⟨hm, hnamed⟩, fun t ht ↦ ?_⟩
      have hslot := htakes t ht
      by_cases hts : t.name = s.name
      · obtain rfl := hunique t ht hts
        rw [h.get_set t ht] at hslot
        rw [hself, t.takes_cons]
        exact ⟨hempty, b, hb, hslot⟩
      · rw [h.get_set_of_ne s hs t ht hts] at hslot
        rw [hother t ht hts]
        exact hslot

/-! ## Objects -/

section Objects

variable {r : Record σ α}

private theorem read_field {s : Slot σ} (h : Decodes s.value s.spells) (g : Gap) (v : Tree)
    {rest : Text} (hrest : EndsNumber rest) (draft next : σ) (text : Text) :
    s.field.read draft (g.text ++ (v.text ++ rest)) = .ok (next, text) ↔
      (∃ b, s.spells v b ∧ next = s.set draft b) ∧ text = rest := by
  have hread := h g v hrest
  simp only [Slot.field, Field.of, map_eq_ok_iff]
  constructor
  · rintro ⟨⟨b, _⟩, hb, hnext⟩
    obtain ⟨hspells, rfl⟩ := (hread b _).mp hb
    cases hnext
    exact ⟨⟨b, hspells, rfl⟩, rfl⟩
  · rintro ⟨⟨b, hspells, rfl⟩, rfl⟩
    exact ⟨(b, text), (hread b text).mpr ⟨hspells, rfl⟩, rfl⟩

private theorem readMember_member (hr : r.fields = slots.map Slot.field) (h : Apart slots)
    (letters : List Letter) (after before : Gap) (v : Tree) {rest : Text} (hrest : EndsNumber rest)
    (draft next : σ) (text : Text) :
    r.readMember draft (letters.flatMap Letter.text ++ '"' :: (after.text ++ ':' ::
        (before.text ++ (v.text ++ rest)))) = .ok (next, text) ↔
      (∃ name, Letter.spelled? letters = some name ∧ Puts slots name v draft next) ∧
        text = rest := by
  cases hspelled : Letter.spelled? letters with
  | none =>
    rw [Record.readMember, bind_eq_ok_iff]
    constructor
    · rintro ⟨⟨name, _⟩, hname, -⟩
      have := ((readString_letters _ _ _ _).mp hname).1
      rw [hspelled] at this
      cases this
    · rintro ⟨⟨name, hname, -⟩, -⟩
      cases hname
  | some name =>
    have hname := fun rest ↦ (readString_letters letters rest name rest).mpr ⟨hspelled, rfl⟩
    have hfind : r.fields.find? (·.name.toList == name)
        = (slots.find? (·.name.toList == name)).map Slot.field := by
      rw [hr, List.find?_map]
      rfl
    simp only [Record.readMember, hname, hfind, bind, Except.bind, readColon_colon,
      Option.some.injEq, exists_eq_left', Puts]
    cases hslot : slots.find? (·.name.toList == name) with
    | none =>
      simp only [Option.map_none, skipValue_tree before v hrest]
      show (Except.ok (draft, rest) : Except Fault (σ × Text)) = .ok (next, text) ↔ _
      simp [eq_comm]
    | some s =>
      have hread := read_field (h.decodes s (List.mem_of_find?_eq_some hslot)) before v hrest draft
        next text
      have hset : s.field.isSet draft = (s.get draft).isSome := rfl
      simp only [Option.map_some, hset]
      cases s.get draft with
      | none =>
        rw [if_neg (by simp), hread]
        simp
      | some b => simp

private theorem length_lt_membersText (members : List (Member Tree)) :
    members.length < (membersText members).length := by
  induction members with
  | nil => simp [membersText]
  | cons m members ih =>
    obtain ⟨name, before, v, after⟩ := m
    simp only [membersText, List.length_cons, List.length_append]
    omega

private theorem fills_step (h : Apart slots) {m : Member Tree} {members : List (Member Tree)}
    {draft : σ} {rest rest' text : Text} {a : α} {x : Except Fault (σ × Text)}
    {tail : σ → Text → Except Fault (α × Text)}
    (hmember : ∀ next text, x = .ok (next, text) ↔
      (∃ name, m.name? = some name ∧ Puts slots name m.value.value draft next) ∧ text = rest')
    (htail : ∀ next, tail next rest' = .ok (a, text) ↔
      (∃ last, Fills slots members next last ∧ r.finish last = .ok a) ∧ text = rest) :
    (∃ p, x = .ok p ∧ tail p.1 p.2 = .ok (a, text)) ↔
      (∃ last, Fills slots (m :: members) draft last ∧ r.finish last = .ok a) ∧ text = rest := by
  constructor
  · rintro ⟨⟨next, _⟩, hx, hread⟩
    obtain ⟨⟨name, hname, hput⟩, rfl⟩ := (hmember next _).mp hx
    obtain ⟨⟨last, hfills, hfinish⟩, rfl⟩ := (htail next).mp hread
    exact ⟨⟨last, (fills_cons h hname draft last).mpr ⟨next, hput, hfills⟩, hfinish⟩, rfl⟩
  · rintro ⟨⟨last, hfills, hfinish⟩, rfl⟩
    obtain ⟨name, hname⟩ := Option.ne_none_iff_exists'.mp (hfills.1 m List.mem_cons_self)
    obtain ⟨next, hput, hfills⟩ := (fills_cons h hname draft last).mp hfills
    exact ⟨(next, rest'), (hmember next rest').mpr ⟨⟨name, hname, hput⟩, rfl⟩,
      (htail next).mpr ⟨⟨last, hfills, hfinish⟩, rfl⟩⟩

/-- Members behind the first fill the draft, by induction on them. -/
private theorem readMembers_membersText (hr : r.fields = slots.map Slot.field) (h : Apart slots)
    (members : List (Member Tree)) (g : Gap) {fuel : Nat} (hfuel : members.length < fuel)
    (draft : σ) (rest : Text) (a : α) (text : Text) :
    r.readMembers fuel false draft (g.text ++ (membersText members ++ rest)) = .ok (a, text) ↔
      (∃ last, Fills slots members draft last ∧ r.finish last = .ok a) ∧ text = rest := by
  obtain ⟨fuel, rfl⟩ := Nat.exists_eq_succ_of_ne_zero (Nat.ne_of_gt (Nat.zero_lt_of_lt hfuel))
  induction members generalizing g draft fuel with
  | nil =>
    have hend : skipBlank (g.text ++ (membersText [] ++ rest)) = '\x7d' :: rest := by
      rw [skipBlank_gap, membersText]
      rfl
    rw [readMembers_end hend]
    simp only [fills_nil h, exists_eq_left]
  | cons m members ih =>
    obtain ⟨name, before, v, after⟩ := m
    obtain ⟨fuel, rfl⟩ := Nat.exists_eq_succ_of_ne_zero (n := fuel) (by
      simp only [List.length_cons] at hfuel
      omega)
    have hmember := readMember_member hr h name.value name.after before v
      (endsNumber_gap after (endsNumber_membersText members rest)) draft
    have htail := fun next ↦ ih after next fuel (Nat.lt_of_succ_lt_succ hfuel)
    rw [membersText_cons_append, quoted_append, readMembers_next (by rw [skipBlank_gap]; rfl)
      (by rw [skipBlank_gap]; rfl), bind_eq_ok_iff]
    exact fills_step h hmember htail

private theorem readMembers_object (hr : r.fields = slots.map Slot.field) (h : Apart slots)
    (gap : Gap) (members : List (Member Tree)) (rest : Text) (a : α) (text : Text) :
    ∃ tail, (Tree.object gap members).text ++ rest = '\x7b' :: tail ∧
      (r.readMembers (tail.length + 1) true r.blank tail = .ok (a, text) ↔
        (∃ last, Fills slots members r.blank last ∧ r.finish last = .ok a) ∧ text = rest) := by
  rcases members with _ | ⟨⟨name, ⟨before, v, after⟩⟩, members⟩
  · refine ⟨_, text_object_nil_append gap rest, ?_⟩
    have hend : skipBlank (gap.text ++ '\x7d' :: rest) = '\x7d' :: rest := by
      rw [skipBlank_gap]
      rfl
    rw [readMembers_end hend]
    simp only [fills_nil h, exists_eq_left]
  · refine ⟨_, text_object_cons_append gap before after v name rest members, ?_⟩
    have hmember := readMember_member hr h name.value name.after before v
      (endsNumber_gap after (endsNumber_membersText members rest)) r.blank
    rw [readMembers_first (by rw [skipBlank_gap, skipBlank_gap, quoted_append]; rfl),
      bind_eq_ok_iff]
    refine fills_step h hmember fun next ↦
      readMembers_membersText hr h members after ?_ next rest a text
    have := length_lt_membersText members
    simp only [List.length_append, List.length_cons]
    omega

end Objects

/-! ## Arrays -/

/-- The items of an array give the slots their values in order, as many as there are. -/
def Stores : List (Slot σ) → List (Padded Tree) → σ → σ → Prop
  | [], [], draft, last => last = draft
  | s :: slots, item :: items, draft, last =>
    ∃ b, s.spells item.value b ∧ Stores slots items (s.set draft b) last
  | _, _, _, _ => False

section Arrays

variable {r : Record σ α}

private theorem readArrayEnd_items (g : Gap) (items : List (Padded Tree)) (rest text : Text) :
    readArrayEnd (g.text ++ (itemsText items ++ rest)) = .ok text ↔
      items = [] ∧ text = rest := by
  rw [readArrayEnd, skipBlank_gap]
  rcases items with _ | ⟨⟨before, v, after⟩, items⟩
  · rw [itemsText]
    show (Except.ok rest : Except Fault Text) = .ok text ↔ _
    simp [eq_comm]
  · rw [itemsText_cons_append, skipBlank_cons (by decide)]
    simp

private theorem stores_step {s : Slot σ} (hs : Decodes s.value s.spells) {v : Tree}
    {rest rest' text : Text} (hrest' : EndsNumber rest') {before after : Gap}
    {items : List (Padded Tree)} {draft : σ} {a : α} {tail : σ → Text → Except Fault (α × Text)}
    (htail : ∀ next, tail next rest' = .ok (a, text) ↔
      (∃ last, Stores slots items next last ∧ r.finish last = .ok a) ∧ text = rest) :
    (∃ p, s.field.read draft (v.text ++ rest') = .ok p ∧ tail p.1 p.2 = .ok (a, text)) ↔
      (∃ last, Stores (s :: slots) (⟨before, v, after⟩ :: items) draft last ∧
        r.finish last = .ok a) ∧ text = rest := by
  have hread := read_field hs [] v hrest' draft
  constructor
  · rintro ⟨⟨next, _⟩, hx, hitems⟩
    obtain ⟨⟨b, hb, rfl⟩, rfl⟩ := (hread next _).mp hx
    obtain ⟨⟨last, hstores, hfinish⟩, rfl⟩ := (htail _).mp hitems
    exact ⟨⟨last, ⟨b, hb, hstores⟩, hfinish⟩, rfl⟩
  · rintro ⟨⟨last, ⟨b, hb, hstores⟩, hfinish⟩, rfl⟩
    exact ⟨(_, rest'), (hread _ rest').mpr ⟨⟨b, hb, rfl⟩, rfl⟩,
      (htail _).mpr ⟨⟨last, hstores, hfinish⟩, rfl⟩⟩

private theorem readElements_nil {items : List (Padded Tree)} {text rest : Text}
    (hend : ∀ tail, readArrayEnd text = .ok tail ↔ items = [] ∧ tail = rest) (index : Nat)
    (draft : σ) (a : α) (r' : Text) :
    r.readElements index draft [] text = .ok (a, r') ↔
      (∃ last, Stores [] items draft last ∧ r.finish last = .ok a) ∧ r' = rest := by
  rw [Record.readElements]
  simp only [bind_eq_ok_iff, conclude_eq_ok_iff, hend]
  constructor
  · rintro ⟨b, hb, _, ⟨rfl, rfl⟩, heq⟩
    cases heq
    exact ⟨⟨draft, rfl, hb⟩, rfl⟩
  · rintro ⟨⟨last, hstores, ha⟩, rfl⟩
    cases items with
    | nil =>
      cases hstores
      exact ⟨a, ha, r', ⟨rfl, rfl⟩, rfl⟩
    | cons item items => cases hstores

/-- Items behind the first are stored in the slots that are left, by induction on these. -/
private theorem readElements_itemsText (hshort : r.allowsShort = false)
    (hs : ∀ s ∈ slots, Decodes s.value s.spells) (items : List (Padded Tree)) (g : Gap)
    (index : Nat) (draft : σ) (rest : Text) (a : α) (text : Text) :
    r.readElements (index + 1) draft (slots.map Slot.field)
        (g.text ++ (itemsText items ++ rest)) = .ok (a, text) ↔
      (∃ last, Stores slots items draft last ∧ r.finish last = .ok a) ∧ text = rest := by
  induction slots generalizing items g index draft with
  | nil => exact readElements_nil (readArrayEnd_items g items rest) _ draft a text
  | cons s slots ih =>
    rcases items with _ | ⟨⟨before, v, after⟩, items⟩
    · have hend : skipBlank (g.text ++ (itemsText [] ++ rest)) = ']' :: rest := by
        rw [skipBlank_gap, itemsText]
        rfl
      obtain ⟨f, hf⟩ := readElements_short hshort hend (index + 1) draft s.field
        (slots.map Slot.field)
      rw [List.map_cons, hf]
      simp [Stores]
    · have hends := endsNumber_gap after (endsNumber_itemsText items rest)
      rw [List.map_cons, itemsText_cons_append, readElements_next (by rw [skipBlank_gap]; rfl)
        (by rw [skipBlank_gap, skipBlank_tree]) (v.startsValue _), bind_eq_ok_iff]
      exact stores_step (hs s List.mem_cons_self) hends fun next ↦
        ih (fun t ht ↦ hs t (List.mem_cons_of_mem _ ht)) items after (index + 1) next

private theorem readElements_array (hshort : r.allowsShort = false)
    (hs : ∀ s ∈ slots, Decodes s.value s.spells) (gap : Gap) (items : List (Padded Tree))
    (rest : Text) (a : α) (text : Text) :
    ∃ tail, (Tree.array gap items).text ++ rest = '[' :: tail ∧
      (r.readElements 0 r.blank (slots.map Slot.field) tail = .ok (a, text) ↔
        (∃ last, Stores slots items r.blank last ∧ r.finish last = .ok a) ∧ text = rest) := by
  rcases items with _ | ⟨⟨before, v, after⟩, items⟩
  · refine ⟨_, text_array_nil_append gap rest, ?_⟩
    have hclose : skipBlank (gap.text ++ ']' :: rest) = ']' :: rest := by
      rw [skipBlank_gap]
      rfl
    cases slots with
    | nil =>
      have hend := readArrayEnd_items gap [] rest
      rw [itemsText] at hend
      exact readElements_nil hend 0 r.blank a text
    | cons s slots =>
      obtain ⟨f, hf⟩ := readElements_short hshort hclose 0 r.blank s.field
        (slots.map Slot.field)
      rw [List.map_cons, hf]
      simp [Stores]
  · refine ⟨_, text_array_cons_append gap before after v rest items, ?_⟩
    have hfirst : skipBlank (gap.text ++ (before.text ++ (v.text ++ (after.text ++
        (itemsText items ++ rest))))) = v.text ++ (after.text ++ (itemsText items ++ rest)) := by
      rw [skipBlank_gap, skipBlank_gap, skipBlank_tree]
    cases slots with
    | nil =>
      -- there is an item where the array has to end
      obtain ⟨c, tail, hv, -, hc⟩ := v.exists_text_eq_cons
      refine readElements_nil (fun tail ↦ ?_) 0 r.blank a text
      rw [readArrayEnd, hfirst, hv]
      simp [hc]
    | cons s slots =>
      rw [List.map_cons, readElements_first hfirst (v.startsValue _), bind_eq_ok_iff]
      exact stores_step (hs s List.mem_cons_self)
        (endsNumber_gap after (endsNumber_itemsText items rest)) fun next ↦
          readElements_itemsText hshort (fun t ht ↦ hs t (List.mem_cons_of_mem _ ht)) items
            after 0 next rest a text

end Arrays

/-! ## Records -/

/-- What the slots of a record make of a tree. -/
def Makes (r : Record σ α) (slots : List (Slot σ)) (t : Tree) (a : α) : Prop :=
  match t with
  | .object _ members => ∃ last, Fills slots members r.blank last ∧ r.finish last = .ok a
  | .array _ items => ∃ last, Stores slots items r.blank last ∧ r.finish last = .ok a
  | _ => False

/-- **A record is read** from the members of an object, in any order, or from the items of an
array. -/
theorem decodes_record {r : Record σ α} (hr : r.fields = slots.map Slot.field) (h : Apart slots)
    (hshort : r.allowsShort = false) : Decodes r.read (Makes r slots) := by
  intro g t rest hrest a text
  rw [Record.read, skipBlank_gap, skipBlank_tree]
  cases t with
  | object gap members =>
    obtain ⟨tail, htext, hread⟩ := readMembers_object hr h gap members rest a text
    rw [htext]
    exact hread
  | array gap items =>
    obtain ⟨tail, htext, hread⟩ := readElements_array hshort h.decodes gap items rest a text
    rw [htext]
    rw [← hr] at hread
    exact hread
  | number m =>
    rw [Tree.text]
    split
    · exact absurd ‹_› (m.text_append_ne_cons (by decide) rest _)
    · exact absurd ‹_› (m.text_append_ne_cons (by decide) rest _)
    · simp [Makes]
  | null => simp [Tree.text, Makes]
  | boolean b => cases b <;> simp [Tree.text, Makes]
  | string letters => simp [Tree.text, quoted, Makes]

end DumpMode.Json
