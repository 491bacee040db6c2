import DumpMode.Document.Decode
import DumpMode.Document.Ranges
import DumpMode.Proofs.Json.Values

/-!
# Reading back the records of the library

Each record is written with its fields in order, so its members fill the draft of its reader one
after the other, and the draft that is full makes up the record again. The choices of a user are
read over other ones, which hold where a field is missing; of these nothing is left in the end,
since no field is.
-/

namespace DumpMode.Document

open Json (ReadsBack readsBack_natural readsBack_boolean readsBack_optional readsBack_choice
  readsBack_list)
open Json.Record (readsBack_object)
open Json.Record.Fills (field nil)

/-! ## Numbers and choices -/

private theorem readsBack_offset {n : Nat} (h : n < offsetBound) :
    ReadsBack readOffset (.number n) n :=
  readsBack_natural (Nat.le_refl _) h _

private theorem readsBack_line {n : Nat} (h : n < lineBound) : ReadsBack readLine (.number n) n :=
  readsBack_natural (by decide) h _

theorem readsBack_class (c : WordClass) : ReadsBack readClass c.json c :=
  readsBack_choice (by cases c <;> rfl)

theorem readsBack_group (g : TypeGroup) : ReadsBack readGroup g.json g :=
  readsBack_choice (by cases g <;> rfl)

theorem readsBack_keyword (k : Keyword) : ReadsBack readKeyword k.json k :=
  readsBack_choice (by cases k <;> rfl)

theorem readsBack_level (l : Journal.Level) : ReadsBack readLevel l.json l :=
  readsBack_choice (by cases l <;> rfl)

/-! ## Places and regions -/

theorem readsBack_position {p : Position} (h : p.Fits) :
    ReadsBack positionRecord.read p.json p := by
  refine readsBack_object ⟨some p.offset, some p.line, some p.column⟩ ?_ rfl
  refine field rfl rfl (readsBack_offset h.offset_lt) ?_
  refine field rfl rfl (readsBack_line h.line_lt) ?_
  exact field rfl rfl (readsBack_line h.column_lt) (nil _)

theorem readsBack_span {s : Span} (h : s.Fits) : ReadsBack spanRecord.read s.json s := by
  refine readsBack_object ⟨some s.start, some s.stop⟩ ?_ rfl
  refine field rfl rfl (readsBack_position h.start) ?_
  exact field rfl rfl (readsBack_position h.stop) (nil _)

theorem readsBack_tag {t : Tag} (h : t.Fits) : ReadsBack tagRecord.read t.json t := by
  refine readsBack_object ⟨some t.start, some t.stop, some t.wordClass⟩ ?_ rfl
  refine field rfl rfl (readsBack_offset h.start_lt) ?_
  refine field rfl rfl (readsBack_offset h.stop_lt) ?_
  exact field rfl rfl (readsBack_class t.wordClass) (nil _)

theorem readsBack_region {r : Folding.Region} (h : r.Fits) :
    ReadsBack regionRecord.read r.json r := by
  refine readsBack_object ⟨some r.opening, some r.closing, some r.depth⟩ ?_ rfl
  refine field rfl rfl (readsBack_offset h.opening_lt) ?_
  refine field rfl rfl (readsBack_optional fun c hc ↦ readsBack_offset (h.closing_lt c hc)) ?_
  exact field rfl rfl (readsBack_offset h.depth_lt) (nil _)

theorem readsBack_lineRange {r : Folding.LineRange} (h : r.Fits) :
    ReadsBack lineRangeRecord.read r.json r := by
  refine readsBack_object ⟨some r.startLine, some r.endLine⟩ ?_ rfl
  refine field rfl rfl (readsBack_line h.startLine_lt) ?_
  exact field rfl rfl (readsBack_optional fun l hl ↦ readsBack_line (h.endLine_lt l hl)) (nil _)

theorem readsBack_folds {f : Folding.Folds} (h : f.Fits) :
    ReadsBack foldsRecord.read f.json f := by
  refine readsBack_object ⟨some f.regions, some f.unbalanced⟩ ?_ rfl
  refine field rfl rfl (readsBack_list fun r hr ↦ readsBack_region (h.regions r hr)) ?_
  exact field rfl rfl (readsBack_list fun c hc ↦ readsBack_offset (h.unbalanced_lt c hc)) (nil _)

theorem readsBack_snapshot {s : Editor.Snapshot} (h : s.Fits) :
    ReadsBack snapshotRecord.read s.json s := by
  refine readsBack_object ⟨some s.tags, some s.folds, some s.unbalanced⟩ ?_ rfl
  refine field rfl rfl (readsBack_list fun t ht ↦ readsBack_tag (h.tags t ht)) ?_
  refine field rfl rfl (readsBack_list fun r hr ↦ readsBack_region (h.folds r hr)) ?_
  exact field rfl rfl (readsBack_list fun c hc ↦ readsBack_offset (h.unbalanced_lt c hc)) (nil _)

/-! ## Choices of a user -/

theorem readsBack_wordPreferences (base : WordPreferences) {p : WordPreferences} (h : p.Fits) :
    ReadsBack (wordPreferencesRecord base).read p.json p := by
  refine readsBack_object ⟨some p.collectMetrics, some p.largeBufferThreshold⟩ ?_ rfl
  refine field rfl rfl (readsBack_boolean p.collectMetrics) ?_
  exact field rfl rfl (readsBack_offset h) (nil _)

theorem readsBack_foldPreferences (base p : FoldPreferences) :
    ReadsBack (foldPreferencesRecord base).read p.json p := by
  refine readsBack_object ⟨some p.skipQuotedStrings, some p.logUnbalanced⟩ ?_ rfl
  refine field rfl rfl (readsBack_boolean p.skipQuotedStrings) ?_
  exact field rfl rfl (readsBack_boolean p.logUnbalanced) (nil _)

theorem readsBack_journalPreferences (base p : JournalPreferences) :
    ReadsBack (journalPreferencesRecord base).read p.json p := by
  refine readsBack_object ⟨some p.minLevel, some p.structured⟩ ?_ rfl
  refine field rfl rfl (readsBack_level p.minLevel) ?_
  exact field rfl rfl (readsBack_boolean p.structured) (nil _)

theorem readsBack_preferences (base : Preferences) {p : Preferences} (h : p.Fits) :
    ReadsBack (preferencesRecord base).read p.json p := by
  refine readsBack_object ⟨some p.lexical, some p.folding, some p.logging⟩ ?_ rfl
  refine field rfl rfl (readsBack_wordPreferences base.lexical h) ?_
  refine field rfl rfl (readsBack_foldPreferences base.folding p.folding) ?_
  exact field rfl rfl (readsBack_journalPreferences base.logging p.logging) (nil _)

end DumpMode.Document
