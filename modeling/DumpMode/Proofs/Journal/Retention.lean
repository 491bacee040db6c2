import DumpMode.Journal.Requests

/-!
# What a memory holds

A memory makes room before it keeps an event, and by that it always holds the end of what it was
given: the last events, as many as there is room for (`Memory.events_record`). Taking the end of a
list is not disturbed by what was cut off before (`rtake_rtake_concat`), so the same is true of
whole runs. A service gives its memory the events it admits and no others, and clearing starts the
count anew; so after any run the memory holds the end of the admitted events behind the last
clearing.
-/

namespace DumpMode.Journal

/-! ## Ends of lists -/

section Ends

variable {α : Type}

/-- What was cut off before a further item does not matter, if there is room for that item. -/
private theorem rtake_rtake_concat {n : Nat} (hn : 0 < n) (l : List α) (x : α) :
    (l.rtake n ++ [x]).rtake n = (l ++ [x]).rtake n := by
  obtain ⟨n, rfl⟩ := Nat.exists_eq_succ_of_ne_zero (Nat.ne_of_gt hn)
  rw [List.rtake_concat_succ, List.rtake_concat_succ, List.rtake, List.rtake, List.rtake,
    List.drop_drop, List.length_drop]
  congr 2
  omega

private theorem length_rtake (l : List α) (n : Nat) : (l.rtake n).length = min l.length n := by
  rw [List.rtake, List.length_drop]
  omega

end Ends

/-! ## One event -/

/-- **A memory holds the end of what it was given.** -/
theorem Memory.events_record (m : Memory) (e : Event) :
    (m.record e).events = (m.events ++ [e]).rtake capacity := by
  have hcapacity : 0 < capacity := by decide
  rw [record, List.rtake, List.length_append, List.length_singleton,
    List.drop_append_of_le_length (by omega)]

namespace Service

private theorem log_of_not_admits {s : Service} {e : Event} (h : ¬s.admits e.level = true)
    (m : Memory) :
    s.log m e = m := if_neg h

private theorem log_of_admits {s : Service} {e : Event} (h : s.admits e.level = true) (m : Memory) :
    s.log m e = m.record e := if_pos h

private theorem passed_concat (s : Service) (es : List Event) (e : Event) :
    s.passed (es ++ [e]) = s.passed es ++ if s.admits e.level then [e] else [] := by
  rw [passed, passed, List.filter_append, List.filter_singleton, Bool.cond_eq_ite]

/-- **One step**: logging one event more, a memory that holds the end of the admitted events goes on
to hold it. -/
private theorem events_log {s : Service} {m : Memory} {es : List Event}
    (h : m.events = (s.passed es).rtake capacity) (e : Event) :
    (s.log m e).events = (s.passed (es ++ [e])).rtake capacity := by
  rw [passed_concat]
  by_cases hadmits : s.admits e.level = true
  · rw [log_of_admits hadmits, if_pos hadmits, Memory.events_record, h,
      rtake_rtake_concat (by decide)]
  · rw [log_of_not_admits hadmits, if_neg hadmits, List.append_nil, h]

end Service

/-! ## Whole runs -/

private theorem Service.serve_of_event? (s : Service) (m : Memory) {r : Request} {e : Event}
    (h : r.event? = some e) : s.serve m r = s.log m e := by
  cases r with
  | clear => cases h
  | log | error | success =>
    obtain rfl := Option.some.inj h
    rfl

private theorem Service.serve_of_event?_eq_none (s : Service) (m : Memory) {r : Request}
    (h : r.event? = none) : s.serve m r = .empty := by
  cases r with
  | clear => rfl
  | log | error | success => cases h

namespace Request

private theorem loggedSinceClear_concat (rs : List Request) (r : Request) :
    loggedSinceClear (rs ++ [r]) = r.event?.elim [] fun e ↦ loggedSinceClear rs ++ [e] := by
  rw [loggedSinceClear, List.rtakeWhile_concat]
  cases h : r.event? with
  | none => simp
  | some e => simp [loggedSinceClear, h]

end Request

namespace Service

private theorem serveAll_concat (s : Service) (m : Memory) (rs : List Request) (r : Request) :
    s.serveAll m (rs ++ [r]) = s.serve (s.serveAll m rs) r := by
  rw [serveAll, serveAll, List.foldl_concat]

/-- **A whole run**: the memory holds the end of the admitted events behind the last clearing, by
induction on the run from its end. -/
theorem events_serveAll (s : Service) (rs : List Request) :
    (s.serveAll .empty rs).events
      = (s.passed (Request.loggedSinceClear rs)).rtake capacity := by
  induction rs using List.reverseRecOn with
  | nil => exact (List.rtake_nil _).symm
  | append_singleton rs r ih =>
    rw [serveAll_concat, Request.loggedSinceClear_concat]
    cases h : r.event? with
    | none =>
      rw [serve_of_event?_eq_none s _ h]
      exact (List.rtake_nil _).symm
    | some e =>
      rw [serve_of_event? s _ h]
      exact events_log ih e

private theorem serve_of_not_matters {s : Service} {r : Request} (h : ¬r.matters s.minLevel = true)
    (m : Memory) : s.serve m r = m := by
  rw [Request.matters] at h
  cases hevent : r.event? with
  | none =>
    rw [hevent] at h
    exact absurd rfl h
  | some e =>
    rw [hevent, Option.all_some] at h
    rw [serve_of_event? s m hevent, log_of_not_admits h]

private theorem serveAll_filter_matters (s : Service) (m : Memory) (rs : List Request) :
    s.serveAll m (rs.filter (·.matters s.minLevel)) = s.serveAll m rs := by
  induction rs generalizing m with
  | nil => rfl
  | cons r rs ih =>
    by_cases h : r.matters s.minLevel = true
    · rw [List.filter_cons_of_pos h]
      exact ih (s.serve m r)
    · have hserve : s.serveAll m (r :: rs) = s.serveAll (s.serve m r) rs := rfl
      rw [List.filter_cons_of_neg h, ih m, hserve, serve_of_not_matters h]

end Service

/-- What a memory holds of some events that it was given. -/
structure Memory.Retains (m : Memory) (given : List Event) : Prop where
  /-- The events kept are the last ones, in order. -/
  suffix : m.events <:+ given
  /-- There are as many of them as were given, or as there is room for. -/
  count_eq : m.count = min given.length capacity
  warnings_eq : m.warnings = m.events.filter fun e ↦ e.level = .warning
  withCode_eq : ∀ c, m.withCode c = m.events.filter fun e ↦ e.code = c

private theorem Memory.retains_of_events_eq {m : Memory} {given : List Event}
    (h : m.events = given.rtake capacity) : m.Retains given where
  suffix := h ▸ List.drop_suffix _ given
  count_eq := by rw [count, h, length_rtake]
  warnings_eq := rfl
  withCode_eq _ := rfl

/-- **A memory keeps the last admitted events.** Whatever is asked of a service over a memory that
was empty, and in whatever order: the memory then holds the last of the events that were logged
behind the last clearing and are of a level that is admitted, as many as it has room for. An event
that is not admitted is never held, and a run without it would have led to the same memory. -/
theorem retains_serveAll (least : Level) (rs : List Request) :
    let s : Service := ⟨.memory, least⟩
    let m := s.serveAll .empty rs
    m.Retains ((Request.loggedSinceClear rs).filter fun e ↦ e.level.rank ≤ least.rank) ∧
      (∀ e ∈ m.events, e.level.rank ≤ least.rank) ∧
      s.serveAll .empty (rs.filter (·.matters least)) = m := by
  intro s m
  have hretains : m.Retains (s.passed (Request.loggedSinceClear rs)) :=
    Memory.retains_of_events_eq (s.events_serveAll rs)
  refine ⟨hretains, ?_, s.serveAll_filter_matters .empty rs⟩
  intro e he
  have hadmits := List.of_mem_filter (hretains.suffix.mem he)
  exact Level.admits_iff.mp hadmits

end DumpMode.Journal
