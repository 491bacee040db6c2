import Mathlib.Data.List.Nodup

/-!
# Values in lists

Values are kept in lists next to their names. Where no name occurs twice, the order of such a list
does not matter for what is found in it.
-/

namespace DumpMode

variable {α β : Type} [BEq α] [LawfulBEq α] {values : List (α × β)}

theorem lookup_eq_none {n : α} (h : n ∉ values.map Prod.fst) : values.lookup n = none := by
  refine List.lookup_eq_none_iff.mpr fun v hv ↦ bne_iff_ne.mpr ?_
  rintro rfl
  exact h (List.mem_map_of_mem hv)

variable [DecidableEq α]

theorem lookup_cons_eq_ite (e : α × β) (entries : List (α × β)) (n : α) :
    (e :: entries).lookup n = if n = e.1 then some e.2 else entries.lookup n := by
  obtain ⟨name, value⟩ := e
  by_cases h : n = name
  · rw [h, List.lookup_cons_self, if_pos rfl]
  · rw [List.lookup_cons, beq_false_of_ne h, if_neg h]

theorem lookup_eq_some_iff_mem (h : (values.map Prod.fst).Nodup) {n : α} {value : β} :
    values.lookup n = some value ↔ (n, value) ∈ values := by
  induction values with
  | nil => simp
  | cons v values ih =>
    obtain ⟨hv, hvalues⟩ := List.nodup_cons.mp h
    rw [lookup_cons_eq_ite, List.mem_cons, Prod.ext_iff]
    by_cases hn : n = v.1
    · have hnot : (n, value) ∉ values := fun hmem ↦ hv (hn ▸ List.mem_map_of_mem hmem)
      rw [if_pos hn, Option.some.injEq, or_iff_left hnot]
      exact ⟨fun heq ↦ ⟨hn, heq.symm⟩, fun heq ↦ heq.2.symm⟩
    · rw [if_neg hn, ih hvalues, or_iff_right fun heq ↦ hn heq.1]

/-- Values of different names may be listed in any order, also in the opposite one. -/
theorem lookup_reverse (h : (values.map Prod.fst).Nodup) (n : α) :
    values.reverse.lookup n = values.lookup n := by
  have hreverse : (values.reverse.map Prod.fst).Nodup := by
    rw [List.map_reverse]
    exact List.pairwise_reverse.mpr (h.imp Ne.symm)
  refine Option.ext fun value ↦ ?_
  rw [lookup_eq_some_iff_mem hreverse, lookup_eq_some_iff_mem h, List.mem_reverse]

end DumpMode
