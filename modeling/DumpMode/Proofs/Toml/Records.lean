import DumpMode.Proofs.Results
import DumpMode.Proofs.Toml.Distinct
import DumpMode.Toml.Decode

/-!
# Records from tables

A record is filled entry by entry, in the order in which they were written. Each part of its draft
is set by one field alone (`Record.Sets`), so in a table without a name twice the order does not
matter: a part is what the entry of its field holds, and untouched if there is none
(`Record.take_table`).
-/

namespace DumpMode.Toml

open Document (Misfit)

private theorem Table.value?_cons (e : Text × Value) (t : Table) (name : Text) :
    value? (e :: t) name = if e.1 = name then some e.2 else value? t name := by
  obtain ⟨n, v⟩ := e
  rw [value?, List.lookup_cons]
  by_cases h : n = name
  · simp [h]
  · have hbeq : (name == n) = false := beq_false_of_ne (Ne.symm h)
    rw [hbeq, if_neg h]
    rfl

private theorem Table.Distinct.value?_eq_some {t : Table} (ht : t.Distinct) {e : Text × Value}
    (he : e ∈ t) : t.value? e.1 = some e.2 := by
  obtain ⟨front, back, rfl⟩ := List.append_of_mem he
  refine List.lookup_eq_some_iff.mpr ⟨front, back, rfl, ?_⟩
  intro e' he'
  have hnames := ht.nodup_names
  rw [List.map_append, List.nodup_append] at hnames
  rw [bne_iff_ne]
  exact (hnames.2.2 _ (List.mem_map_of_mem he') _ List.mem_cons_self).symm

private theorem Table.Distinct.of_cons {t : Table} {e : Text × Value} (h : Distinct (e :: t)) :
    t.Distinct ∧ e.1 ∉ t.map Prod.fst := by
  obtain ⟨hnames, hvalues⟩ := h
  rw [List.map_cons, List.nodup_cons] at hnames
  exact ⟨⟨hnames.2, fun e he ↦ hvalues e (List.mem_cons_of_mem _ he)⟩, hnames.1⟩

namespace Record

variable {σ α : Type} {r : Record σ} {name : String} {value : Decoder α} {get : σ → Option α}

/-- One field alone sets a part of a draft, to the value of its entry. -/
structure Sets (r : Record σ) (name : String) (value : Decoder α) (get : σ → Option α) : Prop where
  taken : ∀ draft v next, r.takeEntry draft (name.toList, v) = .ok next →
    ∃ a, value v = .ok a ∧ get next = some a
  kept : ∀ draft e next, e.1 ≠ name.toList → r.takeEntry draft e = .ok next → get next = get draft

private theorem exists_of_takeEntry {draft next : σ} {e : Text × Value}
    (h : r.takeEntry draft e = .ok next) :
    (∃ f ∈ r.fields, f.name.toList = e.1 ∧ f.take draft e.2 = .ok next) ∨
      (∀ f ∈ r.fields, f.name.toList ≠ e.1) ∧ next = draft := by
  rw [takeEntry] at h
  split at h
  · rename_i f hf
    exact Or.inl ⟨f, List.mem_of_find?_eq_some hf, by simpa using List.find?_some hf, h⟩
  · rename_i hnone
    exact Or.inr ⟨by simpa using hnone, (Except.ok.inj h).symm⟩

/-- A field sets a part if it puts its value there, and no other field has its name or touches the
part. -/
theorem Sets.of {β : Type} {field : Decoder β} {set : σ → β → σ} {g : β → α}
    (before after : List (Field σ)) (hfields : r.fields = before ++ .of name field set :: after)
    (hget : ∀ draft b, get (set draft b) = some (g b))
    (hother : ∀ f ∈ before ++ after, f.name ≠ name ∧
      ∀ draft v next, f.take draft v = .ok next → get next = get draft) :
    r.Sets name (fun v ↦ (field v).map g) get where
  taken := by
    intro draft v next h
    rcases exists_of_takeEntry h with ⟨f, hf, hname, htake⟩ | ⟨hnone, -⟩
    · rw [hfields, List.mem_append, List.mem_cons, or_left_comm, ← List.mem_append] at hf
      rcases hf with rfl | hf
      · obtain ⟨b, hb, rfl⟩ := map_eq_ok_iff.mp htake
        exact ⟨g b, map_eq_ok_iff.mpr ⟨b, hb, rfl⟩, hget draft b⟩
      · exact absurd (String.toList_inj.mp hname) (hother f hf).1
    · exact absurd rfl (hnone _ (hfields ▸ List.mem_append_right _ List.mem_cons_self))
  kept := by
    intro draft e next hne h
    rcases exists_of_takeEntry h with ⟨f, hf, hname, htake⟩ | ⟨-, rfl⟩
    · rw [hfields, List.mem_append, List.mem_cons, or_left_comm, ← List.mem_append] at hf
      rcases hf with rfl | hf
      · exact absurd hname.symm hne
      · exact (hother f hf).2 draft e.2 next htake
    · rfl

theorem keeps_of {β : Type} {other : String} {field : Decoder β} {set : σ → β → σ}
    (hname : other ≠ name) (hset : ∀ draft b, get (set draft b) = get draft) :
    (Field.of other field set).name ≠ name ∧
      ∀ draft v next, (Field.of other field set).take draft v = .ok next →
        get next = get draft := by
  refine ⟨hname, fun draft v next h ↦ ?_⟩
  obtain ⟨b, -, rfl⟩ := map_eq_ok_iff.mp h
  exact hset draft b

private theorem Sets.of_self {field : Decoder α} {set : σ → α → σ} (before after : List (Field σ))
    (hfields : r.fields = before ++ .of name field set :: after)
    (hget : ∀ draft b, get (set draft b) = some b)
    (hother : ∀ f ∈ before ++ after, f.name ≠ name ∧
      ∀ draft v next, f.take draft v = .ok next → get next = get draft) :
    r.Sets name field get := by
  have h : r.Sets name (fun v ↦ (field v).map id) get := .of before after hfields hget hother
  simpa only [Except.map_id, id_eq] using h

/-- **What entries set**, by induction on the entries. Behind the entry of a field the part is not
touched, since the name does not come again. -/
theorem Sets.get_foldlM (h : r.Sets name value get) {entries : Table} (hentries : entries.Distinct)
    {draft last : σ} (hfold : entries.foldlM r.takeEntry draft = .ok last) :
    get last = (entries.value? name.toList).elim (get draft) fun v ↦ (value v).toOption := by
  induction entries generalizing draft with
  | nil =>
    obtain rfl := Except.ok.inj hfold
    rfl
  | cons e entries ih =>
    obtain ⟨hdistinct, hname⟩ := hentries.of_cons
    rw [List.foldlM_cons] at hfold
    cases hnext : r.takeEntry draft e with
    | error m =>
      rw [hnext] at hfold
      cases hfold
    | ok next =>
      rw [hnext] at hfold
      have hlast := ih hdistinct hfold
      by_cases he : e.1 = name.toList
      · obtain ⟨a, ha, hget⟩ := h.taken draft e.2 next (he ▸ hnext)
        rw [Table.value?_eq_none_iff.mpr (he ▸ hname)] at hlast
        rw [hlast, Table.value?_cons, if_pos he, Option.elim_none, Option.elim_some, hget, ha]
        rfl
      · rw [hlast, Table.value?_cons, if_neg he, h.kept draft e next he hnext]

private theorem exists_foldlM_eq_ok {entries : Table}
    (h : ∀ e ∈ entries, ∀ draft, ∃ next, r.takeEntry draft e = .ok next) (draft : σ) :
    ∃ last, entries.foldlM r.takeEntry draft = .ok last := by
  induction entries generalizing draft with
  | nil => exact ⟨draft, rfl⟩
  | cons e entries ih =>
    obtain ⟨next, hnext⟩ := h e List.mem_cons_self draft
    obtain ⟨last, hlast⟩ := ih (fun e he ↦ h e (List.mem_cons_of_mem _ he)) next
    refine ⟨last, ?_⟩
    rw [List.foldlM_cons, hnext]
    exact hlast

/-- **A table is taken as a record** if the entries of its fields fit. Each part of the draft is
then what the entry of its field holds, if there is one. -/
theorem take_table (form : Form) {entries : Table} (hentries : entries.Distinct)
    (hfits : ∀ f ∈ r.fields, ∀ v, entries.value? f.name.toList = some v →
      ∀ draft, ∃ next, f.take draft v = .ok next) (draft : σ) :
    ∃ last, r.take draft (.table form entries) = .ok last ∧
      ∀ {α : Type} {name : String} {value : Decoder α} {get : σ → Option α},
        r.Sets name value get → get draft = none →
          get last = (entries.value? name.toList).bind fun v ↦ (value v).toOption := by
  have haccepts : ∀ e ∈ entries, ∀ draft, ∃ next, r.takeEntry draft e = .ok next := by
    intro e he draft
    rw [takeEntry]
    split
    · rename_i f hf
      have hname : f.name.toList = e.1 := by simpa using List.find?_some hf
      exact hfits f (List.mem_of_find?_eq_some hf) e.2
        (hname ▸ hentries.value?_eq_some he) draft
    · exact ⟨draft, rfl⟩
  obtain ⟨last, hlast⟩ := exists_foldlM_eq_ok haccepts draft
  refine ⟨last, hlast, fun h hnone ↦ ?_⟩
  rw [h.get_foldlM hentries hlast, hnone]
  cases entries.value? _ <;> rfl

private theorem exists_take_of_isSome {β : Type} {field : Decoder β} {set : σ → β → σ} {v : Value}
    (h : (field v).toOption.isSome) (draft : σ) :
    ∃ next, (Field.of name field set).take draft v = .ok next := by
  cases hfield : field v with
  | error m =>
    rw [hfield] at h
    cases h
  | ok b => exact ⟨set draft b, map_eq_ok_iff.mpr ⟨b, hfield, rfl⟩⟩

/-- A record of two fields is taken from a table if its entries for them fit. -/
theorem take_pair {β : Type} {first second : String} {a : Decoder α} {b : Decoder β}
    {setFirst : σ → α → σ} {setSecond : σ → β → σ} (getFirst : σ → Option α)
    (getSecond : σ → Option β) {valueFirst : Value → Option α} {valueSecond : Value → Option β}
    (hfields : r.fields = [.of first a setFirst, .of second b setSecond]) (hne : first ≠ second)
    (hget : ∀ draft x, getFirst (setFirst draft x) = some x ∧
      getSecond (setFirst draft x) = getSecond draft)
    (hget' : ∀ draft y, getFirst (setSecond draft y) = getFirst draft ∧
      getSecond (setSecond draft y) = some y)
    (hvalue : ∀ v, (a v).toOption = valueFirst v) (hvalue' : ∀ v, (b v).toOption = valueSecond v)
    (draft : σ) (hdraft : getFirst draft = none ∧ getSecond draft = none)
    (form : Form) {entries : Table} (hentries : entries.Distinct)
    (hfits : ∀ v, entries.value? first.toList = some v → (valueFirst v).isSome)
    (hfits' : ∀ v, entries.value? second.toList = some v → (valueSecond v).isSome) :
    ∃ last, r.take draft (.table form entries) = .ok last ∧
      getFirst last = (entries.value? first.toList).bind valueFirst ∧
      getSecond last = (entries.value? second.toList).bind valueSecond := by
  obtain ⟨last, htake, hlast⟩ := r.take_table form hentries (by
    intro f hf v hv
    rw [hfields, List.mem_pair] at hf
    rcases hf with rfl | rfl
    · exact exists_take_of_isSome (hvalue v ▸ hfits v hv)
    · exact exists_take_of_isSome (hvalue' v ▸ hfits' v hv)) draft
  have hfirst : r.Sets first a getFirst := .of_self [] _ hfields (fun d x ↦ (hget d x).1)
    (List.forall_mem_singleton.mpr (keeps_of hne.symm fun d y ↦ (hget' d y).1))
  have hsecond : r.Sets second b getSecond := .of_self [_] [] hfields (fun d y ↦ (hget' d y).2)
    (List.forall_mem_singleton.mpr (keeps_of hne fun d x ↦ (hget d x).2))
  refine ⟨last, htake, ?_, ?_⟩
  · rw [hlast hfirst hdraft.1, funext hvalue]
  · rw [hlast hsecond hdraft.2, funext hvalue']

end Record

end DumpMode.Toml
