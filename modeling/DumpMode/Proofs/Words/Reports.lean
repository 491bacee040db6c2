import DumpMode.Proofs.Journal.Reports
import DumpMode.Proofs.Words.Matches

/-!
# What is counted and reported of a classified text

Matches are counted one after the other, each in all and in its class, so that every count is the
number of matches that it is for (`Metrics.count_recordAll`) and the counts of the classes make up
the count in all (`Metrics.IsSum.recordAll`). What is reported is a warning about the size of the
text, if there is reason for one, and the counts, if they are wanted.
-/

namespace DumpMode.Words

open Journal

/-! ## Counting -/

namespace Metrics

/-- The counts of some classes together. -/
def countIn (m : Metrics) (classes : List WordClass) : Nat :=
  classes.foldr (fun c n ↦ m.count c + n) 0

def IsSum (m : Metrics) : Prop := m.countIn WordClass.all = m.total

private theorem bytes_record (m : Metrics) (c : WordClass) : (m.record c).bytes = m.bytes := by
  cases c <;> rfl

private theorem total_record (m : Metrics) (c : WordClass) : (m.record c).total = m.total + 1 := by
  cases c <;> rfl

/-- **One match** is counted in its class and in no other. -/
private theorem count_record (m : Metrics) (c d : WordClass) :
    (m.record c).count d = m.count d + if c = d then 1 else 0 := by
  cases c <;> cases d <;> rfl

private theorem IsSum.record {m : Metrics} (h : m.IsSum) (c : WordClass) : (m.record c).IsSum := by
  have hsum : (m.record c).countIn WordClass.all = m.countIn WordClass.all + 1 := by
    simp only [countIn, WordClass.all, List.foldr_cons, List.foldr_nil, count_record]
    cases c <;> simp <;> omega
  rw [IsSum, hsum, h, total_record]

private theorem recordAll_cons (m : Metrics) (x : Match) (found : List Match) :
    m.recordAll (x :: found) = (m.record x.wordClass).recordAll found := rfl

private theorem bytes_recordAll (m : Metrics) (found : List Match) :
    (m.recordAll found).bytes = m.bytes := by
  induction found generalizing m with
  | nil => rfl
  | cons x found ih => rw [recordAll_cons, ih, bytes_record]

private theorem total_recordAll (m : Metrics) (found : List Match) :
    (m.recordAll found).total = m.total + found.length := by
  induction found generalizing m with
  | nil => rfl
  | cons x found ih =>
    rw [recordAll_cons, ih, total_record, List.length_cons]
    omega

/-- **All matches** are counted, each in its class. -/
theorem count_recordAll (m : Metrics) (found : List Match) (c : WordClass) :
    (m.recordAll found).count c = m.count c + found.countP (·.wordClass = c) := by
  induction found generalizing m with
  | nil => rfl
  | cons x found ih =>
    rw [recordAll_cons, ih, count_record, List.countP_cons]
    simp only [decide_eq_true_eq]
    omega

private theorem IsSum.recordAll {m : Metrics} (h : m.IsSum) (found : List Match) :
    (m.recordAll found).IsSum := by
  induction found generalizing m with
  | nil => exact h
  | cons x found ih => exact ih (h.record x.wordClass)

end Metrics

/-! ## Reporting -/

def largeBufferReport (bytes threshold : Nat) : Report :=
  ⟨.warning, ⟨"W020"⟩, none, named [("bytes", toString bytes), ("threshold", toString threshold)]⟩

def classifiedReport (m : Metrics) : Report :=
  ⟨.info, ⟨"I021"⟩, none,
    named [("bytes", toString m.bytes), ("matches", toString m.total),
      ("keywords", toString (m.count .keyword)), ("types", toString (m.count .datatype))]⟩

private theorem report_classifiedEvent (m : Metrics) :
    (Classifier.classifiedEvent m).report = classifiedReport m :=
  Event.report_havingAll rfl (show ["bytes", "matches", "keywords", "types"].Nodup by decide)

namespace Classifier

variable (c : Classifier) (text : Text)

def counted : List Match × Metrics :=
  (c.lexicon.matchesIn text,
    if c.preferences.collectMetrics then
      Metrics.recordAll { bytes := text.byteLength } (c.lexicon.matchesIn text)
    else { bytes := text.byteLength })

private theorem map_report_checkSize : (c.checkSize text).events.map Event.report =
    if c.preferences.largeBufferThreshold < text.byteLength then
      [largeBufferReport text.byteLength c.preferences.largeBufferThreshold]
    else [] := by
  rw [checkSize, Logged.events_reportIf]
  by_cases h : c.preferences.largeBufferThreshold < text.byteLength
  · rw [if_pos h, if_pos (decide_eq_true h), List.map_singleton,
      Event.report_having_having rfl (by decide)]
    rfl
  · rw [if_neg h, if_neg (by simpa using h), List.map_nil]

private theorem value_classifyWithMetrics :
    (c.classifyWithMetrics text).value = c.counted text := by
  rw [classifyWithMetrics, counted]
  cases c.preferences.collectMetrics <;> rfl

private theorem events_classifyWithMetrics : (c.classifyWithMetrics text).events =
    (c.checkSize text).events ++
      if c.preferences.collectMetrics then [classifiedEvent (c.counted text).2] else [] := by
  rw [classifyWithMetrics, counted]
  cases c.preferences.collectMetrics <;> rfl

private theorem events_tags : (c.tags text).events = (c.checkSize text).events :=
  List.append_nil _

end Classifier

/-- What is true of the counts of a text and of what a journal is sent about it, if both agree with
its matches. -/
structure Classifier.TellsMatches (c : Classifier) (text : Text) (i : Installation) : Prop where
  bytes_eq : (c.classifyWithMetrics text).value.2.bytes = text.byteLength
  /-- Counts that are wanted are the numbers of the matches of each class and of all of them. -/
  count_eq : c.preferences.collectMetrics = true → ∀ d,
    (c.classifyWithMetrics text).value.2.count d
      = (c.classifyWithMetrics text).value.1.countP (·.wordClass = d)
  total_eq : c.preferences.collectMetrics = true →
    (c.classifyWithMetrics text).value.2.total = (c.classifyWithMetrics text).value.1.length
  isSum : (c.classifyWithMetrics text).value.2.IsSum
  eq_zero : c.preferences.collectMetrics = false →
    (c.classifyWithMetrics text).value.2.total = 0 ∧
      ∀ d, (c.classifyWithMetrics text).value.2.count d = 0
  /-- The journal is sent a warning about a text beyond the threshold, and then the counts if they
  are wanted. -/
  map_report_passed : (i.passed (c.classifyWithMetrics text).events).map Event.report =
    (if c.preferences.largeBufferThreshold < text.byteLength then
      [largeBufferReport text.byteLength c.preferences.largeBufferThreshold]
    else []) ++
      if c.preferences.collectMetrics then [classifiedReport (c.classifyWithMetrics text).value.2]
      else []
  /-- With tags it is sent the warning alone. -/
  map_report_passed_tags : (i.passed (c.tags text).events).map Event.report =
    if c.preferences.largeBufferThreshold < text.byteLength then
      [largeBufferReport text.byteLength c.preferences.largeBufferThreshold]
    else []

/-- **Counts and report agree with the matches**, for every classifier, every text and every journal
that admits all levels. -/
theorem Classifier.tellsMatches (c : Classifier) (text : Text) {i : Installation}
    (hi : i.AdmitsAll) : c.TellsMatches text i := by
  have hzero : ∀ d, (Metrics.mk text.byteLength 0 0 0 0 0 0).count d = 0 := by
    intro d
    cases d <;> rfl
  have hsum : (Metrics.mk text.byteLength 0 0 0 0 0 0).IsSum := rfl
  have hvalue := c.value_classifyWithMetrics text
  constructor
  case bytes_eq =>
    rw [hvalue, counted]
    cases c.preferences.collectMetrics with
    | false => rfl
    | true => exact Metrics.bytes_recordAll _ _
  case count_eq =>
    intro h d
    rw [hvalue, counted, if_pos h, Metrics.count_recordAll, hzero, Nat.zero_add]
  case total_eq =>
    intro h
    rw [hvalue, counted, if_pos h, Metrics.total_recordAll, Nat.zero_add]
  case isSum =>
    rw [hvalue, counted]
    cases c.preferences.collectMetrics with
    | false => exact hsum
    | true => exact hsum.recordAll _
  case eq_zero =>
    intro h
    rw [hvalue, counted, if_neg (by simp [h])]
    exact ⟨rfl, hzero⟩
  case map_report_passed =>
    rw [hi.passed_eq, events_classifyWithMetrics, List.map_append, map_report_checkSize, hvalue]
    congr 1
    cases c.preferences.collectMetrics with
    | false => rfl
    | true => exact congrArg ([·]) (report_classifiedEvent _)
  case map_report_passed_tags =>
    rw [hi.passed_eq, events_tags, map_report_checkSize]

/-- Two keywords and a datatype in a text of more bytes than its threshold; a word that runs on is
no match. -/
theorem Classifier.tellsMatches_beyond_threshold :
    let i : Installation := ⟨some ⟨.memory, .debug⟩, .empty⟩
    let classified := (⟨.standard, ⟨true, 30⟩⟩ : Classifier).classifyWithMetrics
      "DATASETS GROUP H5T_IEEE_F64LE µ DATASPACE".toList
    i.AdmitsAll ∧ (i.passed classified.events).map Event.report
      = [largeBufferReport 42 30, classifiedReport ⟨42, 3, 0, 2, 1, 0, 0⟩] := by
  intro i classified
  have hi : i.AdmitsAll := admitsAll_memory .empty
  have hvalue : classified.value.2 = ⟨42, 3, 0, 2, 1, 0, 0⟩ := by
    rw [value_classifyWithMetrics, counted, Lexicon.matchesIn_standard]
    decide +kernel
  have hreports := (tellsMatches ⟨.standard, ⟨true, 30⟩⟩
    "DATASETS GROUP H5T_IEEE_F64LE µ DATASPACE".toList hi).map_report_passed
  refine ⟨hi, hreports.trans ?_⟩
  rw [show (Classifier.classifyWithMetrics _ _).value.2 = _ from hvalue]
  rfl

end DumpMode.Words
