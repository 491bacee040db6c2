import DumpMode.Journal.Event

/-!
# Results with a report

An operation of the library that reports on its work returns a `Logged` value: the result, and the
events in the order in which they happened. Where the events go, and which of them are admitted,
is decided by the journal that is installed, and never changes a result.
-/

namespace DumpMode

/-- A result together with the events reported on the way to it. -/
structure Logged (α : Type) where
  value : α
  /-- The events, in the order in which they happened. -/
  events : List Journal.Event

namespace Logged

def silent {α : Type} (a : α) : Logged α := ⟨a, []⟩

def report (e : Journal.Event) : Logged Unit := ⟨(), [e]⟩

def reportIf (condition : Bool) (e : Journal.Event) : Logged Unit :=
  ⟨(), if condition then [e] else []⟩

/-- Goes on with a result; the events of the second operation come behind those of the first. -/
def andThen {α β : Type} (x : Logged α) (f : α → Logged β) : Logged β :=
  let y := f x.value
  ⟨y.value, x.events ++ y.events⟩

instance : Monad Logged where
  pure := silent
  bind := andThen

instance : LawfulMonad Logged :=
  LawfulMonad.mk' Logged
    (fun x ↦ by simp [Functor.map, andThen, silent])
    (fun a f ↦ by simp [bind, pure, andThen, silent])
    (fun x f g ↦ by simp [bind, andThen])

variable {α β : Type}

@[simp] theorem value_bind (x : Logged α) (f : α → Logged β) :
    (x >>= f).value = (f x.value).value := rfl

theorem mk_bind (a : α) (events : List Journal.Event) (f : α → Logged β) :
    (⟨a, events⟩ >>= f : Logged β) = ⟨(f a).value, events ++ (f a).events⟩ := rfl

theorem bind_pure_eq (x : Logged α) (f : α → β) :
    (x >>= fun a ↦ pure (f a)) = ⟨f x.value, x.events⟩ :=
  congrArg (Logged.mk (f x.value)) (List.append_nil x.events)

@[simp] theorem events_reportIf (condition : Bool) (e : Journal.Event) :
    (reportIf condition e).events = if condition then [e] else [] := rfl

end Logged

end DumpMode
