import DumpMode.Journal.Requests
import DumpMode.Proofs.Lookup

/-!
# The first service stays

A process has a service as soon as one of its calls has asked for one, and that service never
changes again (`Installation.service_after`). What is sent follows from it: nothing before that
call, at most the news that the journal is ready by it, and every admitted event behind it. All
this is said of the calls alone, through the first service that they ask for (`firstService?`).
-/

namespace DumpMode.Journal

/-! ## The values of an event -/

private theorem Context.lookup_insertEntry (name value : String) (entries : List (String × String))
    (n : String) :
    (insertEntry name value entries).lookup n
      = if n = name then some value else entries.lookup n := by
  induction entries with
  | nil => exact lookup_cons_eq_ite (name, value) [] n
  | cons e entries ih =>
    rw [insertEntry]
    split
    · exact lookup_cons_eq_ite (name, value) (e :: entries) n
    · -- the entry that is replaced has the same name
      rename_i heq
      obtain rfl : name = e.1 := Std.LawfulEqCmp.eq_of_compare heq
      rw [lookup_cons_eq_ite, lookup_cons_eq_ite]
      by_cases h : n = e.1
      · rw [if_pos h, if_pos h]
      · rw [if_neg h, if_neg h, if_neg h]
    · -- the entry that is passed has another name
      rename_i hgt
      have hne : e.1 ≠ name := by
        rintro rfl
        exact absurd (Std.ReflCmp.compare_self.symm.trans hgt) (by decide)
      rw [lookup_cons_eq_ite, lookup_cons_eq_ite, ih]
      by_cases h : n = e.1
      · rw [if_pos h, if_pos h, if_neg (h ▸ hne)]
      · rw [if_neg h, if_neg h]

/-- A value that is put into a context is found under its name, and others are not disturbed. -/
private theorem Context.find?_insert (c : Context) (name value n : String) :
    (c.insert name value).find? n = if n = name then some value else c.find? n :=
  lookup_insertEntry name value c.entries n

/-- **Of several values of one name the last one counts**; a name that is not among them keeps what
it had. -/
theorem Event.find?_havingAll (e : Event) (values : List (String × String)) (n : String) :
    (e.havingAll values).context.find? n
      = (values.reverse.lookup n).or (e.context.find? n) := by
  induction values using List.reverseRecOn with
  | nil => rfl
  | append_singleton values v ih =>
    have hlast : e.havingAll (values ++ [v]) = (e.havingAll values).having v.1 v.2 :=
      List.foldl_concat ..
    rw [hlast, having, Context.find?_insert, ih, List.reverse_concat, lookup_cons_eq_ite]
    by_cases h : n = v.1
    · rw [if_pos h, if_pos h]
      rfl
    · rw [if_neg h, if_neg h]

theorem Event.havingAll_eq (e : Event) (values : List (String × String)) :
    e.havingAll values = { e with context := (e.havingAll values).context } := by
  induction values using List.reverseRecOn with
  | nil => rfl
  | append_singleton values v ih =>
    have hlast : e.havingAll (values ++ [v]) = (e.havingAll values).having v.1 v.2 :=
      List.foldl_concat ..
    rw [hlast, ih]
    rfl

/-- An event to which a place and values have been attached, in order. -/
structure Event.Attached (e : Event) (span : Option Span) (values : List (String × String))
    (e' : Event) : Prop where
  level_eq : e'.level = e.level
  code_eq : e'.code = e.code
  message_eq : e'.message = e.message
  /-- A place that is given takes the place of one that the event has. -/
  span_eq : e'.span = span.or e.span
  /-- A value that is given takes the place of an earlier one of its name. -/
  find?_eq : ∀ n, e'.context.find? n = (values.reverse.lookup n).or (e.context.find? n)

theorem Event.attached_attached (e : Event) (span : Option Span)
    (values : List (String × String)) : e.Attached span values (e.attached span values) := by
  have hlevel : ∀ d : Event, (d.havingAll values).level = d.level := by
    intro d
    rw [havingAll_eq]
  have hcode : ∀ d : Event, (d.havingAll values).code = d.code := by
    intro d
    rw [havingAll_eq]
  have hmessage : ∀ d : Event, (d.havingAll values).message = d.message := by
    intro d
    rw [havingAll_eq]
  have hspan : ∀ d : Event, (d.havingAll values).span = d.span := by
    intro d
    rw [havingAll_eq]
  cases span with
  | none => exact ⟨hlevel e, hcode e, hmessage e, hspan e, e.find?_havingAll values⟩
  | some s =>
    exact ⟨hlevel _, hcode _, hmessage _, hspan _, (e.spanning s).find?_havingAll values⟩

/-! ## One call -/

def firstService? (calls : List Call) : Option Service := calls.findSome? Call.service?

/-- The news that a call sends if it is the first to have a service installed. -/
def Call.news : Call → List Event
  | .start p => if Level.info.rank ≤ p.minLevel.rank then [readyEvent] else []
  | .install _ | .log _ _ _ => []

private theorem Service.passed_singleton (s : Service) (e : Event) :
    s.passed [e] = if e.level.rank ≤ s.minLevel.rank then [e] else [] := by
  rw [passed, List.filter_singleton, Bool.cond_eq_ite]
  exact if_congr Level.admits_iff rfl rfl

private theorem Call.service?_or_event? (c : Call) :
    (∃ s, c.service? = some s ∧ c.event? = none) ∨ ∃ e, c.event? = some e := by
  cases c with
  | start => exact .inl ⟨_, rfl, rfl⟩
  | install => exact .inl ⟨_, rfl, rfl⟩
  | log => exact .inr ⟨_, rfl⟩

private theorem Call.news_eq_nil_or {c : Call} {s : Service} (hc : c.service? = some s) :
    c.news = [] ∨ s.destination ≠ .memory := by
  cases c with
  | log => cases hc
  | install => exact .inl rfl
  | start p =>
    obtain rfl := Option.some.inj hc
    refine .inr ?_
    rw [Service.ofPreferences]
    by_cases h : p.structured = true <;> simp [h]

namespace Installation

private theorem perform_of_service_eq_none {i : Installation} (h : i.service = .none) {c : Call}
    {s : Service} (hc : c.service? = some s) :
    i.perform c = (⟨some (.ok ()), c.news⟩, ⟨some s, i.memory⟩) := by
  obtain ⟨service, memory⟩ := i
  subst h
  cases c with
  | log => cases hc
  | install =>
    obtain rfl := Option.some.inj hc
    rfl
  | start p =>
    obtain rfl := Option.some.inj hc
    -- the news goes to lines and not into a memory
    have hlog : (Installation.mk (some (.ofPreferences p)) memory).log [readyEvent]
        = ⟨some (.ofPreferences p), memory⟩ := by
      rw [Service.ofPreferences]
      cases p.structured <;> rfl
    have hnews : (Service.ofPreferences p).passed [readyEvent] = (Call.start p).news :=
      Service.passed_singleton _ _
    rw [← hnews, ← hlog]
    rfl

private theorem perform_of_service_eq_some {i : Installation} {s₀ : Service}
    (h : i.service = some s₀) {c : Call} {s : Service} (hc : c.service? = some s) :
    i.perform c = (⟨some (.error .alreadyInstalled), []⟩, i) := by
  obtain ⟨service, memory⟩ := i
  subst h
  cases c with
  | log => cases hc
  | install => rfl
  | start => rfl

private theorem perform_of_event? (i : Installation) {c : Call} {e : Event}
    (hc : c.event? = some e) :
    i.perform c = (⟨.none, i.passed [e]⟩, i.log [e]) ∧ c.service? = .none := by
  cases c with
  | start => cases hc
  | install => cases hc
  | log =>
    obtain rfl := Option.some.inj hc
    exact ⟨rfl, rfl⟩

private theorem service_log (i : Installation) (es : List Event) :
    (i.log es).service = i.service := by
  rw [log]
  split
  · rfl
  · split <;> rfl

/-- **One call**: a service that is installed stays. -/
private theorem service_perform (i : Installation) (c : Call) :
    (i.perform c).2.service = i.service.or c.service? := by
  rcases c.service?_or_event? with ⟨s, hc, -⟩ | ⟨e, hc⟩
  · cases h : i.service with
    | none => rw [perform_of_service_eq_none h hc, hc, Option.none_or]
    | some s₀ => rw [perform_of_service_eq_some h hc, h, Option.some_or]
  · obtain ⟨hperform, hservice⟩ := i.perform_of_event? hc
    rw [hperform, hservice, Option.or_none]
    exact i.service_log [e]

private theorem after_cons (i : Installation) (c : Call) (calls : List Call) :
    i.after (c :: calls) = (i.perform c).2.after calls := rfl

/-- **A whole run**: the service is the first that is asked for, unless there was one before. -/
theorem service_after (i : Installation) (calls : List Call) :
    (i.after calls).service = i.service.or (firstService? calls) := by
  induction calls generalizing i with
  | nil => exact (Option.or_none).symm
  | cons c calls ih =>
    rw [after_cons, ih, service_perform, firstService?, firstService?, List.findSome?_cons,
      Option.or_assoc]
    cases c.service? <;> rfl

/-! ### What is sent -/

private theorem sentBy_cons (i : Installation) (c : Call) (calls : List Call) :
    i.sentBy (c :: calls) = (i.perform c).1.sent ++ (i.perform c).2.sentBy calls := rfl

private theorem sentBy_append (i : Installation) (front back : List Call) :
    i.sentBy (front ++ back) = i.sentBy front ++ (i.after front).sentBy back := by
  induction front generalizing i with
  | nil => rfl
  | cons c front ih =>
    rw [List.cons_append, sentBy_cons, sentBy_cons, ih, after_cons, List.append_assoc]

/-- **A run without a service sends nothing.** -/
theorem sentBy_eq_nil {i : Installation} (h : i.service = .none) {calls : List Call}
    (hcalls : firstService? calls = .none) : i.sentBy calls = [] := by
  induction calls generalizing i with
  | nil => rfl
  | cons c calls ih =>
    have hnone := List.findSome?_eq_none_iff.mp hcalls
    have hc : c.service? = .none := hnone c List.mem_cons_self
    have htail : firstService? calls = .none :=
      List.findSome?_eq_none_iff.mpr fun d hd ↦ hnone d (List.mem_cons_of_mem c hd)
    rcases c.service?_or_event? with ⟨s, hs, -⟩ | ⟨e, he⟩
    · cases hc.symm.trans hs
    · have hsent : (i.perform c).1.sent = [] := by
        rw [(i.perform_of_event? he).1, passed, h]
      have hservice : (i.perform c).2.service = .none := by
        rw [service_perform, h, hc]
        rfl
      rw [sentBy_cons, hsent, ih hservice htail, List.nil_append]

/-- **A run under a service sends the events that it admits**, and nothing else. -/
theorem sentBy_of_service_eq_some {i : Installation} {s : Service} (h : i.service = some s)
    (calls : List Call) : i.sentBy calls = s.passed (calls.filterMap Call.event?) := by
  induction calls generalizing i with
  | nil => rfl
  | cons c calls ih =>
    have hservice : (i.perform c).2.service = some s := by
      rw [service_perform, h, Option.some_or]
    rw [sentBy_cons, ih hservice]
    rcases c.service?_or_event? with ⟨s', hs', he⟩ | ⟨e, he⟩
    · rw [perform_of_service_eq_some h hs', List.filterMap_cons_none he, List.nil_append]
    · have hsent : (i.perform c).1.sent = s.passed [e] := by
        rw [(i.perform_of_event? he).1, passed, h]
      rw [hsent, List.filterMap_cons_some he]
      exact (List.filter_append [e] (calls.filterMap Call.event?)).symm

/-! ### What is kept -/

/-- **One call**: if the service that is installed then has a memory, it has kept what was sent. -/
private theorem memory_perform (i : Installation) (c : Call) :
    (i.perform c).2.memory
      = if (i.perform c).2.service.any (·.destination = .memory)
        then i.memory.recordAll (i.perform c).1.sent else i.memory := by
  rcases c.service?_or_event? with ⟨s, hs, -⟩ | ⟨e, he⟩
  · cases h : i.service with
    | none =>
      rw [perform_of_service_eq_none h hs]
      rcases c.news_eq_nil_or hs with hnews | hlines
      · rw [hnews]
        exact (ite_self _).symm
      · exact (if_neg (by simp [hlines])).symm
    | some s₀ =>
      rw [perform_of_service_eq_some h hs]
      exact (ite_self _).symm
  · rw [(i.perform_of_event? he).1]
    rcases i with ⟨- | ⟨destination, minLevel⟩, memory⟩
    · rfl
    · cases destination <;> rfl

private theorem sent_eq_nil {i : Installation} {c : Call} (h : (i.perform c).2.service = .none) :
    (i.perform c).1.sent = [] := by
  obtain ⟨hi, hc⟩ := Option.or_eq_none_iff.mp ((i.service_perform c).symm.trans h)
  have hcalls : firstService? [c] = .none := List.findSome?_eq_none_iff.mpr (by simpa using hc)
  have hsent := sentBy_eq_nil hi hcalls
  rwa [sentBy_cons, sentBy, List.append_nil] at hsent

/-- **A whole run**: if the service that is installed in the end has a memory, it has kept all that
was sent. -/
theorem memory_after (i : Installation) (calls : List Call) :
    (i.after calls).memory
      = if (i.after calls).service.any (·.destination = .memory)
        then i.memory.recordAll (i.sentBy calls) else i.memory := by
  induction calls generalizing i with
  | nil => exact (ite_self _).symm
  | cons c calls ih =>
    rw [after_cons, ih, sentBy_cons, memory_perform]
    cases h : (i.perform c).2.service with
    | none =>
      rw [sent_eq_nil h, List.nil_append, Option.any_none, if_neg Bool.false_ne_true]
    | some s =>
      -- the service does not change any more
      have hservice : ((i.perform c).2.after calls).service = some s := by
        rw [service_after, h, Option.some_or]
      rw [hservice]
      split
      · exact (List.foldl_append ..).symm
      · rfl

end Installation

/-! ## The journal of a process -/

/-- What is true of a journal behind some calls, and of the events sent in their course, if the
first service that is asked for stays. -/
structure FirstStays (calls : List Call) (i : Installation) (sent : List Event) : Prop where
  service_eq : i.service = firstService? calls
  isReady_iff : i.isReady = true ↔ ∃ c ∈ calls, c.service?.isSome = true
  admits_iff : ∀ level, i.admits level = true ↔
    ∃ s, firstService? calls = some s ∧ level.rank ≤ s.minLevel.rank
  /-- The first call that asks for a service succeeds, and sends its news. -/
  perform_first : ∀ c s, c.service? = some s → firstService? calls = none →
    i.perform c = (⟨some (.ok ()), c.news⟩, ⟨some s, i.memory⟩)
  /-- Every later one fails, sends nothing and changes nothing. -/
  perform_later : ∀ c, c.service?.isSome = true → (firstService? calls).isSome = true →
    i.perform c = (⟨some (.error .alreadyInstalled), []⟩, i)
  drops : ∀ e span values, firstService? calls = none →
    (i.perform (.log e span values)).1.sent = []
  /-- Then it is sent exactly if its level is admitted, with all that is attached to it. -/
  sends : ∀ e span values s, firstService? calls = some s →
    (i.perform (.log e span values)).1.sent
      = if e.level.rank ≤ s.minLevel.rank then [e.attached span values] else []
  sent_eq_nil : firstService? calls = none → sent = []
  /-- Otherwise the news of the call that had it installed has been sent, and behind it the admitted
  events that were logged behind that call. -/
  sent_eq : ∀ front c back s, calls = front ++ c :: back → firstService? front = none →
    c.service? = some s →
      sent = c.news ++ (back.filterMap Call.event?).filter fun e ↦ e.level.rank ≤ s.minLevel.rank
  /-- If the service has a memory, it has kept what was sent. -/
  memory_eq : i.memory
    = if (firstService? calls).any (·.destination = .memory) then Memory.empty.recordAll sent
      else .empty

/-- **The first service stays, whatever is called.** Behind any calls of a process whose journal is
empty at first, the installed service is the first that was asked for; only the call that asked for
it succeeded, and only that one has sent news. Events logged before are lost, and of those logged
behind it exactly the admitted ones are sent, with the place and the values attached to them. -/
theorem firstStays_after :
    (∀ calls : List Call,
      FirstStays calls (Installation.none.after calls) (Installation.none.sentBy calls)) ∧
    ∀ (e : Event) (span : Option Span) (values : List (String × String)),
      e.Attached span values (e.attached span values) := by
  refine ⟨fun calls ↦ ?_, Event.attached_attached⟩
  have hservice : (Installation.none.after calls).service = firstService? calls :=
    Installation.none.service_after calls
  constructor
  case service_eq => exact hservice
  case isReady_iff =>
    rw [Installation.isReady, hservice, firstService?, List.findSome?_isSome_iff]
  case admits_iff =>
    intro level
    rw [Installation.admits, hservice, Option.any_eq_true]
    exact exists_congr fun s ↦ and_congr_right fun _ ↦ Level.admits_iff
  case perform_first =>
    intro c s hc hnone
    exact Installation.perform_of_service_eq_none (hservice.trans hnone) hc
  case perform_later =>
    intro c hc hsome
    obtain ⟨s, hs⟩ := Option.isSome_iff_exists.mp hc
    obtain ⟨s₀, hs₀⟩ := Option.isSome_iff_exists.mp hsome
    exact Installation.perform_of_service_eq_some (hservice.trans hs₀) hs
  case drops =>
    intro e span values hnone
    -- logging installs nothing, so there is still no service behind it
    exact Installation.sent_eq_nil
      (((Installation.none.after calls).service_perform (.log e span values)).trans
        (by rw [hservice, hnone]; rfl))
  case sends =>
    intro e span values s hs
    rw [(Installation.perform_of_event? _ rfl).1, Installation.passed, hservice, hs]
    rw [← (e.attached_attached span values).level_eq]
    exact s.passed_singleton _
  case sent_eq_nil => exact Installation.sentBy_eq_nil rfl
  case sent_eq =>
    rintro front c back s rfl hfront hc
    -- nothing has been sent before the call that has a service installed
    have hnone : (Installation.none.after front).service = none :=
      (Installation.none.service_after front).trans hfront
    rw [Installation.sentBy_append, Installation.sentBy_eq_nil rfl hfront, List.nil_append,
      Installation.sentBy_cons, Installation.perform_of_service_eq_none hnone hc,
      Installation.sentBy_of_service_eq_some rfl]
    rfl
  case memory_eq =>
    rw [Installation.memory_after, hservice]
    rfl

end DumpMode.Journal
