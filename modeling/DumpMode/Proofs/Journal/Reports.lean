import DumpMode.Journal.Logged
import DumpMode.Proofs.Journal.Installation

/-!
# What is reported

What an event says is its level, its code, the place it points at and the values that it carries
(`Event.report`); its message is for readers. A journal that admits every level passes on every
event (`Installation.AdmitsAll.passed_eq`), so what such a journal is sent in the course of an
operation is all that the operation reports.
-/

namespace DumpMode.Journal

/-! ## Values by their names -/

/-- Listed values, each under its name. -/
def named (values : List (String × String)) : String → Option String := (values.lookup ·)

/-! ## What an event says -/

/-- What is said by an event, its message aside. -/
@[ext]
structure Report where
  level : Level
  code : Code
  span : Option Span
  /-- The values that belong to it, by their names. -/
  values : String → Option String

def Event.report (e : Event) : Report := ⟨e.level, e.code, e.span, e.context.find?⟩

/-- An event without values that is given some of different names says these. -/
theorem Event.report_havingAll {e : Event} (he : e.context = .empty)
    {values : List (String × String)} (h : (values.map Prod.fst).Nodup) :
    (e.havingAll values).report = ⟨e.level, e.code, e.span, named values⟩ := by
  have hvalues : (e.havingAll values).context.find? = named values := by
    funext n
    rw [find?_havingAll, he, lookup_reverse h]
    exact Option.or_none
  rw [report, hvalues, havingAll_eq]

theorem Event.report_having {e : Event} (he : e.context = .empty) (name value : String) :
    (e.having name value).report = ⟨e.level, e.code, e.span, named [(name, value)]⟩ := by
  have hnodup : ([(name, value)].map Prod.fst).Nodup := List.pairwise_singleton _ name
  exact report_havingAll he hnodup

theorem Event.report_having_having {e : Event} (he : e.context = .empty) {name name' : String}
    (hne : name ≠ name') (value value' : String) :
    ((e.having name value).having name' value').report
      = ⟨e.level, e.code, e.span, named [(name, value), (name', value')]⟩ := by
  have hnodup : ([(name, value), (name', value')].map Prod.fst).Nodup := by simpa using hne
  exact report_havingAll he hnodup

/-! ## What a journal is sent -/

/-- The journal has a service that admits events of every level. -/
def Installation.AdmitsAll (i : Installation) : Prop := ∀ level, i.admits level = true

/-- **A journal that admits every level is sent every event**, in order. -/
theorem Installation.AdmitsAll.passed_eq {i : Installation} (h : i.AdmitsAll)
    (events : List Event) : i.passed events = events := by
  obtain ⟨s, hs, -⟩ := Option.any_eq_true _ _ |>.mp (h .debug)
  rw [passed, hs]
  refine List.filter_eq_self.mpr fun e _ ↦ ?_
  have hlevel := h e.level
  rwa [admits, hs, Option.any_some] at hlevel

theorem admitsAll_memory (m : Memory) : Installation.AdmitsAll ⟨some ⟨.memory, .debug⟩, m⟩ := by
  intro level
  cases level <;> rfl

end DumpMode.Journal
