import DumpMode.Preferences.Environment
import DumpMode.Proofs.Document.Records
import DumpMode.Proofs.Editor.Bounds
import DumpMode.Proofs.Editor.Scans

/-!
# The way through JSON and back

Writing a value and reading it back gives the value again, for every type that is written and read,
and for all values whose numbers are within range. So no two values are written as one text. A
snapshot that is handed to an editor as JSON is what a scan in place would have found.
-/

namespace DumpMode.Document

open Json (ReadsBack render decode)

/-- What fits is read back as it was written, and no two such values are written as one text. -/
structure Faithful {α : Type} (fits : α → Prop) (json : α → Json.Value) (read : Json.Reader α) :
    Prop where
  decode_render : ∀ a, fits a → decode read (render (json a)) = .ok a
  render_injective : ∀ a b, fits a → fits b → render (json a) = render (json b) → a = b

/-- A reader that takes back each value alone tells any two apart. -/
private theorem Faithful.of_readsBack {α : Type} {fits : α → Prop} {json : α → Json.Value}
    {read : Json.Reader α} (h : ∀ a, fits a → ReadsBack read (json a) a) :
    Faithful fits json read where
  decode_render a ha := (h a ha).decode
  render_injective a b ha hb hab := by
    have hread := (h a ha).decode
    rw [hab, (h b hb).decode] at hread
    exact (Except.ok.inj hread).symm

/-- **JSON says exactly what was written.** Every type that is written as JSON is read back
faithfully, preferences and their sections in every environment; and the JSON that the adapter of
any preferences makes of a text is read as the snapshot of that text. -/
theorem faithful_json :
    (Faithful Editor.Snapshot.Fits Editor.Snapshot.json snapshotRecord.read ∧
      Faithful Tag.Fits Tag.json tagRecord.read ∧
      Faithful Folding.Region.Fits Folding.Region.json regionRecord.read ∧
      Faithful Folding.Folds.Fits Folding.Folds.json foldsRecord.read ∧
      Faithful Folding.LineRange.Fits Folding.LineRange.json lineRangeRecord.read ∧
      Faithful Position.Fits Position.json positionRecord.read ∧
      Faithful Span.Fits Span.json spanRecord.read) ∧
    (Faithful (fun _ ↦ True) WordClass.json readClass ∧
      Faithful (fun _ ↦ True) TypeGroup.json readGroup ∧
      Faithful (fun _ ↦ True) Keyword.json readKeyword ∧
      Faithful (fun _ ↦ True) Journal.Level.json readLevel) ∧
    (∀ env : Environment, let base := Preferences.ofEnvironment env
      Faithful Preferences.Fits Preferences.json (preferencesRecord base).read ∧
      Faithful WordPreferences.Fits WordPreferences.json
        (wordPreferencesRecord base.lexical).read ∧
      Faithful (fun _ ↦ True) FoldPreferences.json (foldPreferencesRecord base.folding).read ∧
      Faithful (fun _ ↦ True) JournalPreferences.json
        (journalPreferencesRecord base.logging).read) ∧
    ∀ (p : Preferences) (text : Text), text.byteLength < offsetBound →
      ∃ a, (Editor.Adapter.build p).value = .ok a ∧
        Editor.Snapshot.ofJson? (a.scanJson text).value = .ok (a.scan text).value := by
  refine ⟨⟨?_, ?_, ?_, ?_, ?_, ?_, ?_⟩, ⟨?_, ?_, ?_, ?_⟩, fun env ↦ ⟨?_, ?_, ?_, ?_⟩,
    fun p text htext ↦ ?_⟩
  · exact .of_readsBack fun _ ↦ readsBack_snapshot
  · exact .of_readsBack fun _ ↦ readsBack_tag
  · exact .of_readsBack fun _ ↦ readsBack_region
  · exact .of_readsBack fun _ ↦ readsBack_folds
  · exact .of_readsBack fun _ ↦ readsBack_lineRange
  · exact .of_readsBack fun _ ↦ readsBack_position
  · exact .of_readsBack fun _ ↦ readsBack_span
  · exact .of_readsBack fun c _ ↦ readsBack_class c
  · exact .of_readsBack fun g _ ↦ readsBack_group g
  · exact .of_readsBack fun k _ ↦ readsBack_keyword k
  · exact .of_readsBack fun l _ ↦ readsBack_level l
  · exact .of_readsBack fun _ ↦ readsBack_preferences _
  · exact .of_readsBack fun _ ↦ readsBack_wordPreferences _
  · exact .of_readsBack fun p _ ↦ readsBack_foldPreferences _ p
  · exact .of_readsBack fun p _ ↦ readsBack_journalPreferences _ p
  · refine ⟨_, Editor.Adapter.value_build p, ?_⟩
    exact (readsBack_snapshot (Editor.Adapter.fits_scan p.lexical p.folding .dump htext)).decode

/-- A region that begins at the last offset there is, has no end and is as deep as can be; and an
adapter that reads back what it has written. -/
theorem faithful_json_last_offset :
    decode snapshotRecord.read (render (Editor.Snapshot.json
      ⟨[⟨0, 18446744073709551615, .property⟩],
        [⟨18446744073709551615, none, 18446744073709551615⟩], [18446744073709551615]⟩))
      = .ok ⟨[⟨0, 18446744073709551615, .property⟩],
        [⟨18446744073709551615, none, 18446744073709551615⟩], [18446744073709551615]⟩ ∧
    ∃ a, (Editor.Adapter.build .builtin).value = .ok a ∧
      Editor.Snapshot.ofJson? (a.scanJson "GROUP \x7b \x7d \x7d".toList).value
        = .ok (a.scan "GROUP \x7b \x7d \x7d".toList).value := by
  have hlast : 18446744073709551615 < offsetBound := by decide
  refine ⟨faithful_json.1.1.decode_render _ ⟨?_, ?_, ?_⟩,
    faithful_json.2.2.2 .builtin "GROUP \x7b \x7d \x7d".toList (by decide)⟩
  · rintro t (- | ⟨_, ht⟩)
    · exact ⟨Nat.zero_lt_of_lt hlast, hlast⟩
    · cases ht
  · rintro r (- | ⟨_, hr⟩)
    · exact ⟨hlast, by rintro c ⟨⟩, hlast⟩
    · cases hr
  · rintro c (- | ⟨_, hc⟩)
    · exact hlast
    · cases hc

end DumpMode.Document
