import DumpMode.Document.Ranges
import DumpMode.Proofs.Journal.Reports
import DumpMode.Proofs.Json.Any

/-!
# Lines of a journal

An entry is written as one line of JSON, and nothing of its event is lost on the way: whatever
stands in its message, in the names of its values and in the values themselves, the line has no end
of line in it, and an object is read from it that holds the event (`Event.HeldBy`). The order in
which values were given is not told, only which value of a name was the last, since a context
depends on nothing else (`Context.ext_of_find?`).
-/

namespace DumpMode.Journal

open Json (Readable)

/-! ## Contexts -/

namespace Context

private theorem nodup_names (c : Context) : (c.entries.map Prod.fst).Nodup := by
  refine List.pairwise_map.mpr (c.sorted.imp fun hlt heq ↦ ?_)
  rw [heq] at hlt
  exact absurd (Std.ReflCmp.compare_self.symm.trans hlt) (by decide)

private theorem find?_eq_some_iff {c : Context} {name value : String} :
    c.find? name = some value ↔ (name, value) ∈ c.entries := lookup_eq_some_iff_mem c.nodup_names

/-- **A context is known by the values that it gives to names.** Its entries are the same set, and
there is only one ascending list of them. -/
theorem ext_of_find? {c c' : Context} (h : ∀ n, c.find? n = c'.find? n) : c = c' := by
  have hmem : ∀ v, v ∈ c.entries ↔ v ∈ c'.entries := by
    rintro ⟨name, value⟩
    rw [← find?_eq_some_iff, ← find?_eq_some_iff, h]
  have hperm : c.entries.Perm c'.entries :=
    (List.perm_ext_iff_of_nodup (.of_map _ c.nodup_names) (.of_map _ c'.nodup_names)).mpr hmem
  have hentries : c.entries = c'.entries := by
    refine hperm.eq_of_pairwise (fun v w _ _ hvw hwv ↦ ?_) c.sorted c'.sorted
    rw [Std.OrientedCmp.gt_of_lt hwv] at hvw
    cases hvw
  obtain ⟨entries, _⟩ := c
  obtain rfl : entries = c'.entries := hentries
  rfl

end Context

private theorem Event.havingAll_eq_of_find? (e : Event) {values values' : List (String × String)}
    (h : ∀ n, (e.havingAll values).context.find? n = (e.havingAll values').context.find? n) :
    e.havingAll values = e.havingAll values' := by
  rw [havingAll_eq e values, havingAll_eq e values', Context.ext_of_find? h]

/-! ## The object of an event -/

namespace Event

variable {e : Event} {time : Text}

def members (e : Event) (time : Text) : List (Text × Json.Value) :=
  match e.object time with
  | .object members => members
  | _ => []

def memberNames (e : Event) : List String :=
  ["category", "code"] ++ (if e.context.entries.isEmpty then [] else ["context"]) ++
    ["level", "message", "severity"] ++ (if e.span.isSome then ["span"] else []) ++ ["timestamp"]

private theorem map_fst_members (e : Event) (time : Text) :
    (e.members time).map Prod.fst = e.memberNames.map String.toList := by
  rw [members, object, memberNames]
  cases e.context.entries.isEmpty <;> cases e.span <;> rfl

private theorem nodup_map_fst_members (e : Event) (time : Text) :
    ((e.members time).map Prod.fst).Nodup := by
  rw [map_fst_members]
  refine List.Nodup.map (fun _ _ ↦ String.toList_inj.mp) ?_
  rw [memberNames]
  cases e.context.entries.isEmpty <;> cases e.span.isSome <;> decide

private theorem member?_object {name : String} {v : Json.Value}
    (h : Json.member name v ∈ e.members time) :
    (e.object time).member? name.toList = some v :=
  (Json.member?_object_eq_some_iff (e.nodup_map_fst_members time)).mpr h

private theorem member?_object_eq_none {name : String} (h : name ∉ e.memberNames) (time : Text) :
    (e.object time).member? name.toList = none := by
  have hnot : name.toList ∉ (e.members time).map Prod.fst := by
    rw [map_fst_members, List.mem_map]
    rintro ⟨n, hn, heq⟩
    exact h (String.toList_inj.mp heq ▸ hn)
  exact Json.member?_object_eq_none hnot

private theorem readable_word (depth : Nat) (w : String) : Readable depth (.word w) :=
  .string depth w.toList

private theorem readable_contextObject (depth : Nat) (c : Context) :
    Readable (depth + 1) (contextObject c) := by
  refine .object fun m hm ↦ ?_
  obtain ⟨v, -, rfl⟩ := List.mem_map.mp hm
  exact readable_word depth v.2

private theorem readable_spanObject (depth : Nat) {s : Span} (h : s.Fits) :
    Readable (depth + 1) (spanObject s) := by
  have hbound : lineBound < Json.integerBound := by decide
  refine .object fun m hm ↦ ?_
  simp only [List.mem_cons, List.not_mem_nil, or_false] at hm
  rcases hm with rfl | rfl | rfl | rfl
  · exact .number depth h.stop.offset_lt
  · exact .number depth (h.start.column_lt.trans hbound)
  · exact .number depth (h.start.line_lt.trans hbound)
  · exact .number depth h.start.offset_lt

/-- The only numbers in the object of an event are those of its place. -/
private theorem readable_object (h : ∀ s ∈ e.span, s.Fits) (time : Text) :
    Readable Json.nestingLimit (e.object time) := by
  refine .object fun m hm ↦ ?_
  simp only [List.mem_append, List.mem_cons, List.not_mem_nil, or_false, Option.mem_toList,
    Option.map_eq_some_iff] at hm
  rcases hm with ((((rfl | rfl) | hm) | rfl | rfl | rfl) | ⟨s, hs, rfl⟩) | rfl
  · exact readable_word _ _
  · exact readable_word _ _
  · split at hm
    · cases hm
    · obtain rfl := List.mem_singleton.mp hm
      exact readable_contextObject _ _
  · exact readable_word _ _
  · exact readable_word _ _
  · exact readable_word _ _
  · exact readable_spanObject _ (h s hs)
  · exact .string _ time

/-- **The object of an event is read from its line.** -/
theorem decode_structuredLine (h : ∀ s ∈ e.span, s.Fits) (time : Text) :
    Json.decode Json.readAny (e.structuredLine time) = .ok (e.object time) :=
  (Json.readsBack_nested (readable_object h time)).decode

/-! ## What the object holds -/

private theorem nodup_names_contextObject (c : Context) : (contextObject c).names.Nodup := by
  have hnames : (contextObject c).names = (c.entries.map Prod.fst).map String.toList := by
    rw [contextObject, Json.Value.names, List.map_map, List.map_map]
    rfl
  rw [hnames]
  exact List.Nodup.map (fun _ _ ↦ String.toList_inj.mp) c.nodup_names

private theorem member?_contextObject (c : Context) (n : String) :
    (contextObject c).member? n.toList = (c.find? n).map .word := by
  refine Option.ext fun v ↦ ?_
  rw [contextObject, Json.member?_object_eq_some_iff (nodup_names_contextObject c), List.mem_map,
    Option.map_eq_some_iff]
  constructor
  · rintro ⟨⟨name, value⟩, hmem, heq⟩
    obtain ⟨hname, rfl⟩ := Prod.mk.inj heq
    obtain rfl := String.toList_inj.mp hname
    exact ⟨value, Context.find?_eq_some_iff.mpr hmem, rfl⟩
  · rintro ⟨value, hfind, rfl⟩
    exact ⟨(n, value), Context.find?_eq_some_iff.mp hfind, rfl⟩

private theorem pairwise_names_contextObject (c : Context) :
    (contextObject c).names.Pairwise fun a b ↦
      compare (String.ofList a) (String.ofList b) = .lt := by
  have hnames : (contextObject c).names = c.entries.map fun v ↦ v.1.toList := List.map_map
  rw [hnames, List.pairwise_map]
  refine c.sorted.imp fun h ↦ ?_
  rwa [String.ofList_toList, String.ofList_toList]

private theorem member?_context (e : Event) (time : Text) :
    (e.object time).member? "context".toList =
      if e.context.entries.isEmpty then none else some (contextObject e.context) := by
  cases h : e.context.entries.isEmpty with
  | true =>
    have hnot : "context" ∉ e.memberNames := by
      rw [memberNames, h]
      cases e.span.isSome <;> decide
    exact member?_object_eq_none hnot time
  | false =>
    have hmem : Json.member "context" (contextObject e.context) ∈ e.members time := by
      simp [members, object, h]
    exact member?_object hmem

private theorem member?_context_bind (e : Event) (time : Text) (n : String) :
    ((e.object time).member? "context".toList).bind (·.member? n.toList)
      = (e.context.find? n).map .word := by
  rw [member?_context]
  split
  · rename_i h
    rw [Context.find?, List.isEmpty_iff.mp h]
    rfl
  · exact member?_contextObject e.context n

private theorem member?_span (e : Event) (time : Text) :
    (e.object time).member? "span".toList = e.span.map spanObject := by
  cases h : e.span with
  | none =>
    have hnot : "span" ∉ e.memberNames := by
      rw [memberNames, h]
      cases e.context.entries.isEmpty <;> decide
    exact member?_object_eq_none hnot time
  | some s =>
    have hmem : Json.member "span" (spanObject s) ∈ e.members time := by
      simp [members, object, h]
    exact member?_object hmem

private theorem member?_spanObject (s : Span) :
    (spanObject s).member? "start_offset".toList = some (.number s.start.offset) ∧
      (spanObject s).member? "end_offset".toList = some (.number s.stop.offset) := by
  have hnodup : (spanObject s).names.Nodup :=
    show (["end_offset", "start_column", "start_line", "start_offset"].map String.toList).Nodup by
      decide
  rw [spanObject] at hnodup ⊢
  rw [Json.member?_object_eq_some_iff hnodup, Json.member?_object_eq_some_iff hnodup]
  simp [Json.member]

/-- The object that a line of JSON holds tells of an event. -/
structure HeldBy (e : Event) (time : Text) (v : Json.Value) : Prop where
  names_eq : v.names = e.memberNames.map String.toList
  level_eq : v.member? "level".toList = some (.word e.level.label)
  code_eq : v.member? "code".toList = some (.word e.code.text)
  message_eq : v.member? "message".toList = some (.word e.message)
  time_eq : v.member? "timestamp".toList = some (.string time)
  start_eq : (v.member? "span".toList).bind (·.member? "start_offset".toList)
    = e.span.map fun s ↦ .number s.start.offset
  stop_eq : (v.member? "span".toList).bind (·.member? "end_offset".toList)
    = e.span.map fun s ↦ .number s.stop.offset
  /-- The values, each under its name, also if that is the name of a member of the object. -/
  value_eq : ∀ n, (v.member? "context".toList).bind (·.member? n.toList)
    = (e.context.find? n).map .word
  ascending : ∀ c, v.member? "context".toList = some c → c.names.Pairwise fun a b ↦
    compare (String.ofList a) (String.ofList b) = .lt

private theorem heldBy_object (e : Event) (time : Text) : e.HeldBy time (e.object time) where
  names_eq := map_fst_members e time
  level_eq := member?_object (by simp [members, object])
  code_eq := member?_object (by simp [members, object])
  message_eq := member?_object (by simp [members, object])
  time_eq := member?_object (by simp [members, object])
  start_eq := by
    rw [member?_span]
    cases e.span with
    | none => rfl
    | some s => exact (member?_spanObject s).1
  stop_eq := by
    rw [member?_span]
    cases e.span with
    | none => rfl
    | some s => exact (member?_spanObject s).2
  value_eq := member?_context_bind e time
  ascending := by
    intro c hc
    rw [member?_context] at hc
    split at hc
    · cases hc
    · obtain rfl := Option.some.inj hc
      exact pairwise_names_contextObject e.context

end Event

/-! ## Lines -/

/-- What the text of an event says before its values. -/
def Event.heading (e : Event) : String :=
  let place := (e.span.map fun s ↦ s!" at {s.start.label}").getD ""
  s!"[{e.level.label}] {e.code.text} - {e.message}{place}"

/-- **A line of JSON tells all of an event that has been given values**, each time the last one of a
name, and it has no end of line in it. In words the event tells the same values in ascending order
of their names. Whoever gives other values that come to the same gets the same lines. -/
theorem Event.lossless_structuredLine (b : Event) (values : List (String × String))
    (time : Timestamp) (h : ∀ s ∈ b.span, s.Fits) :
    let e := b.havingAll values
    b.Attached none values e ∧
      Json.Printable (Entry.structuredLine ⟨time, e⟩) ∧
      (∃ v, Json.decode Json.readAny (Entry.structuredLine ⟨time, e⟩) = .ok v ∧
        e.HeldBy time.exactText v) ∧
      (∃ entries : List (String × String),
        entries.Pairwise (fun v w ↦ compare v.1 w.1 = .lt) ∧
        (∀ n, entries.lookup n = e.context.find? n) ∧
        e.text = b.heading ++ String.join (entries.map fun v ↦ s!" {v.1}={v.2}")) ∧
      ∀ values', (∀ n, (b.havingAll values').context.find? n = e.context.find? n) →
        (b.havingAll values').text = e.text ∧
        Entry.structuredLine ⟨time, b.havingAll values'⟩ = Entry.structuredLine ⟨time, e⟩ := by
  intro e
  have hattached : b.Attached none values e := b.attached_attached none values
  have hfits : ∀ s ∈ e.span, s.Fits := by
    intro s hs
    rw [hattached.span_eq] at hs
    exact h s hs
  refine ⟨hattached, Json.printable_render _,
    ⟨_, decode_structuredLine hfits _, e.heldBy_object _⟩,
    ⟨e.context.entries, e.context.sorted, fun _ ↦ rfl, ?_⟩, fun values' hsame ↦ ?_⟩
  · rw [text, hattached.level_eq, hattached.code_eq, hattached.message_eq, hattached.span_eq]
    rfl
  · rw [b.havingAll_eq_of_find? hsame]
    exact ⟨rfl, rfl⟩

/-- Quotes, ends of lines and a value that has the name of a member; the first value of that name is
replaced. -/
theorem Event.lossless_structuredLine_of_quotes :
    let b := (Event.error ⟨"E040"⟩ "a \"b\"\n\\").spanning ⟨⟨3, 1, 4⟩, ⟨7, 1, 8⟩⟩
    let e := b.havingAll [("message", "x"), ("zu\tfuß", "µ"), ("message", "\r\n")]
    (∀ s ∈ b.span, s.Fits) ∧
      ∃ v, Json.decode Json.readAny (Entry.structuredLine ⟨⟨1, 5⟩, e⟩) = .ok v ∧
        v.member? "message".toList = some (.word "a \"b\"\n\\") ∧
        (v.member? "span".toList).bind (·.member? "end_offset".toList) = some (.number 7) ∧
        (v.member? "context".toList).bind (·.member? "message".toList) = some (.word "\r\n") := by
  intro b e
  have hfits : ∀ s ∈ b.span, s.Fits := by
    rintro s ⟨⟩
    exact ⟨⟨by decide, by decide, by decide⟩, ⟨by decide, by decide, by decide⟩⟩
  obtain ⟨hattached, -, ⟨v, hv, hheld⟩, -⟩ := b.lossless_structuredLine
    [("message", "x"), ("zu\tfuß", "µ"), ("message", "\r\n")] ⟨1, 5⟩ hfits
  refine ⟨hfits, v, hv, ?_, ?_, ?_⟩
  · rw [hheld.message_eq, hattached.message_eq]
    rfl
  · rw [hheld.stop_eq, hattached.span_eq]
    rfl
  · rw [hheld.value_eq, hattached.find?_eq]
    rfl

end DumpMode.Journal
