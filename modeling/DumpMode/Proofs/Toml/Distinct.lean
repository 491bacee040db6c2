import DumpMode.Toml.Document
import Mathlib.Data.List.Nodup

/-!
# Names in documents

No table of a document has a name twice, at any depth. Tables grow in few ways: a value is added
for a name that has none, a value takes the place of another of the same name, and a table moves to
the end of the one it is in. `Table.alter` carries each of these along a path, so there is one
lemma about it (`Table.Distinct.alter`), and the readers follow by their recursion.
-/

namespace DumpMode.Toml

inductive Value.Distinct : Value → Prop
  | string (s : Text) : Distinct (.string s)
  | integer (n : Int) : Distinct (.integer n)
  | real (x : Float) : Distinct (.real x)
  | boolean (b : Bool) : Distinct (.boolean b)
  | moment : Distinct .moment
  | array {items : List Value} (h : ∀ v ∈ items, Distinct v) : Distinct (.array items)
  | table {form : Form} {t : Table} (hnames : (t.map Prod.fst).Nodup)
    (hvalues : ∀ e ∈ t, Distinct e.2) : Distinct (.table form t)
  | tables {earlier : List Table} {latest : Table}
    (h : ∀ t ∈ earlier ++ [latest], Distinct (.table .headed t)) : Distinct (.tables earlier latest)

namespace Table

/-- A table does not have a name twice, and neither has a table in it. -/
structure Distinct (t : Table) : Prop where
  nodup_names : (t.map Prod.fst).Nodup
  values : ∀ e ∈ t, e.2.Distinct

variable {t u : Table} {name : Text} {v : Value}

theorem distinct_nil : Distinct [] where
  nodup_names := List.nodup_nil
  values := by
    intro e he
    cases he

private theorem mem_of_value?_eq_some (h : t.value? name = some v) : (name, v) ∈ t := by
  obtain ⟨front, back, rfl, -⟩ := List.lookup_eq_some_iff.mp h
  exact List.mem_append_right _ List.mem_cons_self

theorem value?_eq_none_iff : t.value? name = none ↔ name ∉ t.map Prod.fst := by
  rw [value?, List.lookup_eq_none_iff]
  simp only [List.mem_map, not_exists, not_and, bne_iff_ne, ne_eq]
  exact ⟨fun h e he heq ↦ h e he heq.symm, fun h e he heq ↦ h e he heq.symm⟩

end Table

variable {t u : Table} {name : Text} {v : Value}

theorem Value.distinct_table_iff {form : Form} : (Value.table form t).Distinct ↔ t.Distinct := by
  constructor
  · rintro (_ | _ | _ | _ | _ | _ | ⟨hnames, hvalues⟩)
    exact ⟨hnames, hvalues⟩
  · intro h
    exact .table h.nodup_names h.values

private theorem Value.distinct_tables_iff {earlier : List Table} :
    (Value.tables earlier t).Distinct ↔ (∀ u ∈ earlier, u.Distinct) ∧ t.Distinct := by
  constructor
  · rintro (_ | _ | _ | _ | _ | _ | _ | h)
    refine ⟨fun u hu ↦ ?_, distinct_table_iff.mp (h t (by simp))⟩
    exact distinct_table_iff.mp (h u (List.mem_append_left _ hu))
  · rintro ⟨hearlier, ht⟩
    refine .tables fun u hu ↦ ?_
    rcases List.mem_append.mp hu with hu | hu
    · exact distinct_table_iff.mpr (hearlier u hu)
    · rw [List.mem_singleton.mp hu]
      exact distinct_table_iff.mpr ht

namespace Table.Distinct

/-! ## Changes of a table -/

theorem value? (ht : t.Distinct) (h : t.value? name = some v) : v.Distinct :=
  ht.values _ (mem_of_value?_eq_some h)

private theorem append (ht : t.Distinct) (hname : name ∉ t.map Prod.fst) (hv : v.Distinct) :
    Distinct (t ++ [(name, v)]) where
  nodup_names := by
    rw [List.map_append, List.nodup_append]
    refine ⟨ht.nodup_names, List.nodup_singleton _, ?_⟩
    rintro n hn m hm rfl
    rw [List.mem_singleton.mp hm] at hn
    exact hname hn
  values := by
    intro e he
    rcases List.mem_append.mp he with he | he
    · exact ht.values e he
    · rw [List.mem_singleton.mp he]
      exact hv

private theorem replace (ht : t.Distinct) (name : Text) (hv : v.Distinct) :
    (t.replace name v).Distinct where
  nodup_names := by
    have hnames : (t.replace name v).map Prod.fst = t.map Prod.fst := by
      rw [Table.replace, List.map_map]
      refine List.map_congr_left fun e _ ↦ ?_
      by_cases h : e.1 = name <;> simp [h]
    rw [hnames]
    exact ht.nodup_names
  values := by
    intro e he
    obtain ⟨e', he', rfl⟩ := List.mem_map.mp he
    by_cases h : e'.1 = name
    · rw [if_pos h]
      exact hv
    · rw [if_neg h]
      exact ht.values e' he'

private theorem filter (ht : t.Distinct) (p : Text × Value → Bool) : Distinct (t.filter p) where
  nodup_names := ht.nodup_names.sublist (List.filter_sublist.map _)
  values e he := ht.values e (List.mem_of_mem_filter he)

private theorem add? (ht : t.Distinct) (hv : v.Distinct) (h : t.add? name v = some u) :
    u.Distinct := by
  obtain ⟨hname, rfl⟩ := add?_eq_some_iff.mp h
  exact ht.append (value?_eq_none_iff.mp hname) hv

/-- **A change at the end of a path** that keeps names apart keeps them apart in the whole table, by
induction on the path. -/
theorem alter {w : Walk} {change : Form → Table → Option Table}
    (hchange : ∀ form t u, Distinct t → change form t = some u → Distinct u) {path : List Text}
    {form : Form} (ht : t.Distinct) (h : alter w change path form t = some u) : u.Distinct := by
  induction path generalizing form t u with
  | nil => exact hchange form t u ht h
  | cons name path ih =>
    rw [Table.alter] at h
    split at h
    · -- a table is made on the way
      rename_i hvalue
      obtain ⟨inner, hinner, rfl⟩ := Option.map_eq_some_iff.mp h
      exact ht.append (value?_eq_none_iff.mp hvalue)
        (Value.distinct_table_iff.mpr (ih distinct_nil hinner))
    · -- the path leads through a table
      rename_i form' inner hvalue
      obtain ⟨-, h⟩ := Option.ite_none_right_eq_some.mp h
      obtain ⟨inner', hinner, rfl⟩ := Option.map_eq_some_iff.mp h
      have hdistinct := Value.distinct_table_iff.mp (ht.value? hvalue)
      exact ht.replace name (Value.distinct_table_iff.mpr (ih hdistinct hinner))
    · -- the path leads through the latest of several tables
      rename_i earlier latest hvalue
      obtain ⟨inner, hinner, rfl⟩ := Option.map_eq_some_iff.mp h
      obtain ⟨hearlier, hlatest⟩ := Value.distinct_tables_iff.mp (ht.value? hvalue)
      exact ht.replace name (Value.distinct_tables_iff.mpr ⟨hearlier, ih hlatest hinner⟩)
    · cases h

private theorem insert? {made : Form} {key : Key} (ht : t.Distinct) (hv : v.Distinct)
    (h : t.insert? made key v = some u) : u.Distinct := by
  refine ht.alter ?_ h
  intro form t u ht h
  obtain ⟨-, h⟩ := Option.ite_none_right_eq_some.mp h
  exact ht.add? hv h

private theorem insertAt? {place : List Text} {key : Key} (ht : t.Distinct) (hv : v.Distinct)
    (h : t.insertAt? place key v = some u) : u.Distinct :=
  ht.alter (fun _ _ _ ht h ↦ ht.insert? hv h) h

private theorem openTable? {key : Key} (ht : t.Distinct) (h : t.openTable? key = some u) :
    u.Distinct := by
  refine ht.alter ?_ h
  intro form t u ht h
  split at h
  · rename_i hvalue
    obtain rfl := Option.some.inj h
    exact ht.append (value?_eq_none_iff.mp hvalue) (Value.distinct_table_iff.mpr distinct_nil)
  · rename_i inner hvalue
    obtain rfl := Option.some.inj h
    have hinner := Value.distinct_table_iff.mp (ht.value? hvalue)
    refine (ht.filter _).append ?_ (Value.distinct_table_iff.mpr hinner)
    simp
  · cases h

private theorem openNext? {key : Key} (ht : t.Distinct) (h : t.openNext? key = some u) :
    u.Distinct := by
  refine ht.alter ?_ h
  intro form t u ht h
  split at h
  · rename_i hvalue
    obtain rfl := Option.some.inj h
    refine ht.append (value?_eq_none_iff.mp hvalue)
      (Value.distinct_tables_iff.mpr ⟨?_, distinct_nil⟩)
    intro t ht
    cases ht
  · rename_i earlier latest hvalue
    obtain rfl := Option.some.inj h
    obtain ⟨hearlier, hlatest⟩ := Value.distinct_tables_iff.mp (ht.value? hvalue)
    refine ht.replace _ (Value.distinct_tables_iff.mpr ⟨?_, distinct_nil⟩)
    intro t ht
    rcases List.mem_append.mp ht with ht | ht
    · exact hearlier t ht
    · rw [List.mem_singleton.mp ht]
      exact hlatest
  · cases h

end Table.Distinct

/-! ## Values that are read -/

/-- A reader only yields values in which no table has a name twice. -/
def ReadsDistinct (read : Reader Value) : Prop :=
  ∀ text v rest, read text = some (v, rest) → v.Distinct

private theorem distinct_of_integer? {negative : Bool} {base : Nat} {digits : Text}
    (h : integer? negative base digits = some v) : v.Distinct := by
  obtain ⟨n, -, h⟩ := Option.bind_eq_some_iff.mp h
  split at h
  · obtain rfl := Option.some.inj h
    exact .integer _
  · obtain ⟨-, h⟩ := Option.ite_none_right_eq_some.mp h
    obtain rfl := Option.some.inj h
    exact .integer _

private theorem distinct_of_real? {negative : Bool} {digits : Text} {exponent : Int}
    (h : real? negative digits exponent = some v) : v.Distinct := by
  unfold real? at h
  dsimp only at h
  split at h
  · obtain rfl := Option.some.inj h
    exact .real _
  · obtain ⟨-, h⟩ := Option.ite_none_left_eq_some.mp h
    obtain rfl := Option.some.inj h
    exact .real _

private theorem distinct_of_bind_pure {value : Option Value} {behind rest : Text}
    (hvalue : ∀ w, value = some w → w.Distinct)
    (h : (value.bind fun w ↦ pure (w, behind)) = some (v, rest)) : v.Distinct := by
  obtain ⟨w, hw, h⟩ := Option.bind_eq_some_iff.mp h
  cases h
  exact hvalue _ hw

private theorem readsDistinct_readInBase (base : Nat) (isDigit : Char → Bool) :
    ReadsDistinct (readInBase base isDigit) := by
  intro text v rest h
  obtain ⟨⟨digits, behind⟩, -, h⟩ := Option.bind_eq_some_iff.mp h
  exact distinct_of_bind_pure (fun _ ↦ distinct_of_integer?) h

private theorem readsDistinct_readDecimal (negative : Bool) :
    ReadsDistinct (readDecimal negative) := by
  intro text v rest h
  obtain ⟨⟨whole, behind⟩, -, h⟩ := Option.bind_eq_some_iff.mp h
  dsimp only at h
  split at h
  -- a point, and perhaps a power behind the digits
  · obtain ⟨⟨fraction, behind⟩, -, h⟩ := Option.bind_eq_some_iff.mp h
    dsimp only at h
    split at h
    · obtain ⟨⟨power, behind⟩, -, h⟩ := Option.bind_eq_some_iff.mp h
      exact distinct_of_bind_pure (fun _ ↦ distinct_of_real?) h
    · obtain ⟨⟨power, behind⟩, -, h⟩ := Option.bind_eq_some_iff.mp h
      exact distinct_of_bind_pure (fun _ ↦ distinct_of_real?) h
    · exact distinct_of_bind_pure (fun _ ↦ distinct_of_real?) h
  -- a power right behind the whole number
  · obtain ⟨⟨power, behind⟩, -, h⟩ := Option.bind_eq_some_iff.mp h
    exact distinct_of_bind_pure (fun _ ↦ distinct_of_real?) h
  · obtain ⟨⟨power, behind⟩, -, h⟩ := Option.bind_eq_some_iff.mp h
    exact distinct_of_bind_pure (fun _ ↦ distinct_of_real?) h
  · exact distinct_of_bind_pure (fun _ ↦ distinct_of_integer?) h

private theorem readsDistinct_readSigned (negative : Bool) :
    ReadsDistinct (readSigned negative) := by
  intro text v rest h
  unfold readSigned at h
  split at h
  · cases h
    exact .real _
  · cases h
    exact .real _
  · exact readsDistinct_readDecimal negative text v rest h

private theorem readsDistinct_readNumber : ReadsDistinct readNumber := by
  intro text v rest h
  unfold readNumber at h
  split at h
  · exact readsDistinct_readSigned _ _ v rest h
  · exact readsDistinct_readSigned _ _ v rest h
  · exact readsDistinct_readInBase _ _ _ v rest h
  · exact readsDistinct_readInBase _ _ _ v rest h
  · exact readsDistinct_readInBase _ _ _ v rest h
  · exact readsDistinct_readSigned _ _ v rest h

private theorem distinct_of_readItems {item : Reader Value} (hitem : ReadsDistinct item)
    {fuel : Nat} {found vs : List Value} {text rest : Text} (hfound : ∀ v ∈ found, v.Distinct)
    (h : readItems item fuel found text = some (vs, rest)) : ∀ v ∈ vs, v.Distinct := by
  induction fuel generalizing found text with
  | zero => cases h
  | succ fuel ih =>
    rw [readItems] at h
    split at h
    · cases h
      intro v hv
      exact hfound v (List.mem_reverse.mp hv)
    · obtain ⟨⟨v, behind⟩, hread, h⟩ := Option.bind_eq_some_iff.mp h
      have hfound' : ∀ w ∈ v :: found, w.Distinct := by
        intro w hw
        rcases List.mem_cons.mp hw with rfl | hw
        · exact hitem _ _ _ hread
        · exact hfound w hw
      dsimp only at h
      split at h
      · cases h
        intro w hw
        exact hfound' w (List.mem_reverse.mp hw)
      · exact ih hfound' h
      · cases h

private theorem distinct_of_readEntries {value : Reader Value} (hvalue : ReadsDistinct value)
    {fuel : Nat} {found : Table} {text rest : Text} (hfound : found.Distinct)
    (h : readEntries value fuel found text = some (t, rest)) : t.Distinct := by
  induction fuel generalizing found text with
  | zero => cases h
  | succ fuel ih =>
    simp only [readEntries, readEntry, bind, Option.bind_eq_some_iff] at h
    obtain ⟨⟨⟨key, v⟩, behind⟩, ⟨_, -, _, -, ⟨v', _⟩, hread, hentry⟩, found', hinsert, h⟩ := h
    cases hentry
    have hfound' := hfound.insert? (hvalue _ _ _ hread) hinsert
    split at h
    · cases h
      exact hfound'
    · exact ih hfound' h
    · cases h

/-- **Values**, by induction on how deep brackets and braces may nest. -/
theorem readsDistinct_readValue (depth : Nat) : ReadsDistinct (readValue depth) := by
  induction depth using Nat.strongRecOn with
  | _ depth ih =>
    intro text v rest h
    unfold readValue at h
    split at h
    case h_1 | h_6 | h_7 => cases h
    case h_2 | h_3 | h_4 | h_5 =>
      obtain ⟨_, -, h⟩ := Option.map_eq_some_iff.mp h
      cases h
      constructor
    case h_8 inner behind =>
      obtain ⟨⟨vs, _⟩, hread, h⟩ := Option.map_eq_some_iff.mp h
      cases h
      refine .array (distinct_of_readItems (ih inner (Nat.lt_succ_self _)) ?_ hread)
      intro v hv
      cases hv
    case h_9 inner behind =>
      split at h
      · cases h
        exact Value.distinct_table_iff.mpr Table.distinct_nil
      · obtain ⟨⟨t, _⟩, hread, h⟩ := Option.map_eq_some_iff.mp h
        cases h
        exact Value.distinct_table_iff.mpr
          (distinct_of_readEntries (ih inner (Nat.lt_succ_self _)) Table.distinct_nil hread)
    case h_10 =>
      split at h
      · cases h
        exact .moment
      · exact readsDistinct_readNumber _ v rest h

/-! ## Documents -/

/-- **One step**: a line keeps the names of a document apart. -/
private theorem distinct_of_readLine {draft next : Draft} {text rest : Text}
    (hdraft : draft.root.Distinct) (h : readLine draft text = some (next, rest)) :
    next.root.Distinct := by
  unfold readLine at h
  split at h <;> simp only [bind, Option.bind_eq_some_iff] at h
  · obtain ⟨⟨key, _⟩, -, _, -, _, -, root, hroot, h⟩ := h
    cases h
    exact hdraft.openNext? hroot
  · obtain ⟨⟨key, _⟩, -, _, -, _, -, root, hroot, h⟩ := h
    cases h
    exact hdraft.openTable? hroot
  · obtain ⟨⟨⟨key, v⟩, _⟩, hentry, root, hroot, _, -, h⟩ := h
    cases h
    simp only [readEntry, bind, Option.bind_eq_some_iff] at hentry
    obtain ⟨_, -, _, -, ⟨v', _⟩, hread, hentry⟩ := hentry
    cases hentry
    exact hdraft.insertAt? (readsDistinct_readValue _ _ _ _ hread) hroot

/-- **A whole reading** keeps names apart, by induction on the steps left. -/
theorem distinct_of_readLines {fuel : Nat} {draft : Draft} {text : Text}
    (hdraft : draft.root.Distinct) (h : readLines fuel draft text = some t) : t.Distinct := by
  induction fuel generalizing draft text with
  | zero => cases h
  | succ fuel ih =>
    rw [readLines] at h
    split at h
    · cases h
      exact hdraft
    · obtain ⟨⟨next, behind⟩, hline, h⟩ := Option.bind_eq_some_iff.mp h
      exact ih (distinct_of_readLine hdraft hline) h

/-- **No table of a document has a name twice.** -/
theorem Table.distinct_of_ofText? {text : Text} (h : ofText? text = some t) : t.Distinct :=
  distinct_of_readLines distinct_nil h

end DumpMode.Toml
