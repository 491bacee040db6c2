import DumpMode.Preferences.Layers
import DumpMode.Proofs.Toml.Records

/-!
# Preferences by layers

Preferences are read in two steps that both fill in what is missing: a section that is there is laid
over that of the environment key by key, and one that is not there is taken from the environment as
a whole. The two agree, since laying nothing over a section leaves it as it is, so each choice can
be told from the document and the environment alone (`ofToml_ofEnvironment`).
-/

namespace DumpMode

open Document (Misfit levelChoices)
open Toml (Record Table decodeBoolean decodeOffset decodeChoice)

/-! ## Values of known types -/

namespace Toml.Value

private theorem toOption_decodeBoolean (v : Value) : (decodeBoolean v).toOption = v.boolean? := by
  cases v <;> rfl

private theorem toOption_decodeOffset (v : Value) : (decodeOffset v).toOption = v.size? := by
  cases v with
  | integer n =>
    rw [decodeOffset, size?]
    split <;> rfl
  | _ => rfl

private theorem toOption_choose (name : Text) :
    (Document.choose levelChoices name).toOption = level?.levelOf? name := by
  rw [Document.choose, level?.levelOf?, levelChoices, Document.choicesOf, List.find?_map]
  have hname : ((fun c : String × Journal.Level ↦ c.1.toList == name) ∘ fun l ↦
      (l.documentName, l)) = fun l ↦ l.documentName.toList == name := rfl
  rw [hname]
  cases Journal.Level.all.find? fun l ↦ l.documentName.toList == name <;> rfl

private theorem checkEmpty_eq_ok_iff (v : Value) : v.checkEmpty = .ok () ↔ v.isEmpty = true := by
  rcases v with - | - | - | - | - | (- | -) | ⟨-, (- | -)⟩ | - <;> simp [checkEmpty, isEmpty]

private theorem toOption_decodeChoice (v : Value) :
    (decodeChoice levelChoices v).toOption = v.level? := by
  rcases v with s | - | - | - | - | - | ⟨form, (- | ⟨⟨name, v⟩, (- | -)⟩)⟩ | -
  case string => exact toOption_choose s
  case table.cons.nil =>
    rw [level?, ← toOption_choose]
    change (Document.choose levelChoices name >>= fun l ↦ v.checkEmpty >>= fun _ ↦ pure l).toOption
      = _
    cases hempty : v.isEmpty with
    | true =>
      rw [(checkEmpty_eq_ok_iff v).mpr hempty]
      cases Document.choose levelChoices name <;> rfl
    | false =>
      cases hcheck : v.checkEmpty with
      | ok u => exact absurd ((checkEmpty_eq_ok_iff v).mp hcheck) (by simp [hempty])
      | error m => cases Document.choose levelChoices name <;> rfl
  all_goals rfl

end Toml.Value

/-! ## Sections -/

namespace Toml.Table

variable {t : Table}

private theorem Distinct.entriesOf (ht : t.Distinct) (name : String) :
    (t.entriesOf name).Distinct := by
  rw [Table.entriesOf]
  split
  · rename_i hsection
    exact Value.distinct_table_iff.mp (ht.value? hsection)
  · exact distinct_nil

private theorem entriesOf_eq_nil {name : String} (h : t.value? name.toList = none) :
    t.entriesOf name = [] := by
  rw [entriesOf, h]

private theorem WellTyped.exists_eq_table (hfits : t.WellTyped) (v : Variable) {s : Value}
    (hs : t.value? v.sectionName.toList = some s) :
    ∃ form, s = .table form (t.entriesOf v.sectionName) := by
  obtain ⟨form, entries, rfl⟩ := hfits.sectionFits v s hs
  rw [Table.entriesOf, hs]
  exact ⟨form, rfl⟩

section WellTyped

variable (ht : t.Distinct) (hfits : t.WellTyped) {s : Value}
include ht hfits

private theorem take_words (hs : t.value? "lexical".toList = some s) :
    WordPreferences.section.take {} s = .ok t.words := by
  obtain ⟨form, rfl⟩ := hfits.exists_eq_table .collectMetrics hs
  obtain ⟨o, htake, hfirst, hsecond⟩ := WordPreferences.section.take_pair
    (·.collectMetrics) (·.largeBufferThreshold) rfl (by decide)
    (fun _ _ ↦ ⟨rfl, rfl⟩) (fun _ _ ↦ ⟨rfl, rfl⟩) Value.toOption_decodeBoolean
    Value.toOption_decodeOffset {} ⟨rfl, rfl⟩ form (ht.entriesOf "lexical")
    (hfits.isSome_ofValue? .collectMetrics) (hfits.isSome_ofValue? .largeBufferThreshold)
  exact htake.trans (congrArg _ (congrArg₂ WordOverrides.mk hfirst hsecond))

private theorem take_folding (hs : t.value? "folding".toList = some s) :
    FoldPreferences.section.take {} s = .ok t.folding := by
  obtain ⟨form, rfl⟩ := hfits.exists_eq_table .skipQuotedStrings hs
  obtain ⟨o, htake, hfirst, hsecond⟩ := FoldPreferences.section.take_pair
    (·.skipQuotedStrings) (·.logUnbalanced) rfl (by decide)
    (fun _ _ ↦ ⟨rfl, rfl⟩) (fun _ _ ↦ ⟨rfl, rfl⟩) Value.toOption_decodeBoolean
    Value.toOption_decodeBoolean {} ⟨rfl, rfl⟩ form (ht.entriesOf "folding")
    (hfits.isSome_ofValue? .skipQuotedStrings) (hfits.isSome_ofValue? .logUnbalanced)
  exact htake.trans (congrArg _ (congrArg₂ FoldOverrides.mk hfirst hsecond))

private theorem take_journal (hs : t.value? "logging".toList = some s) :
    JournalPreferences.section.take {} s = .ok t.journal := by
  obtain ⟨form, rfl⟩ := hfits.exists_eq_table .minLevel hs
  obtain ⟨o, htake, hfirst, hsecond⟩ := JournalPreferences.section.take_pair
    (·.minLevel) (·.structured) rfl (by decide)
    (fun _ _ ↦ ⟨rfl, rfl⟩) (fun _ _ ↦ ⟨rfl, rfl⟩) Value.toOption_decodeChoice
    Value.toOption_decodeBoolean {} ⟨rfl, rfl⟩ form (ht.entriesOf "logging")
    (hfits.isSome_ofValue? .minLevel) (hfits.isSome_ofValue? .structured)
  exact htake.trans (congrArg _ (congrArg₂ JournalOverrides.mk hfirst hsecond))

end WellTyped

/-- A section that is not there and one that is have the same result, if what is said without it
changes nothing. -/
private theorem getD_section {σ π : Type} {take : Decoder σ} {said : σ} {lay : σ → π} {base : π}
    {name : String} (hsome : ∀ s, t.value? name.toList = some s → take s = .ok said)
    (hnone : t.entriesOf name = [] → lay said = base) :
    ((t.value? name.toList).bind fun s ↦ ((take s).map lay).toOption).getD base = lay said := by
  cases hsection : t.value? name.toList with
  | none => exact (hnone (entriesOf_eq_nil hsection)).symm
  | some s =>
    rw [Option.bind_some, hsome s hsection]
    rfl

end Toml.Table

/-! ## Documents -/

namespace Preferences

variable (base : Preferences)

private theorem sets_lexical : base.sections.Sets "lexical"
    (fun v ↦ (WordPreferences.section.take {} v).map (·.over base.lexical)) (·.lexical) :=
  .of [] [_, _] rfl (fun _ _ ↦ rfl) (List.forall_mem_cons.mpr
    ⟨Record.keeps_of (by decide) fun _ _ ↦ rfl,
      List.forall_mem_singleton.mpr (Record.keeps_of (by decide) fun _ _ ↦ rfl)⟩)

private theorem sets_folding : base.sections.Sets "folding"
    (fun v ↦ (FoldPreferences.section.take {} v).map (·.over base.folding)) (·.folding) :=
  .of [_] [_] rfl (fun _ _ ↦ rfl) (List.forall_mem_cons.mpr
    ⟨Record.keeps_of (by decide) fun _ _ ↦ rfl,
      List.forall_mem_singleton.mpr (Record.keeps_of (by decide) fun _ _ ↦ rfl)⟩)

private theorem sets_logging : base.sections.Sets "logging"
    (fun v ↦ (JournalPreferences.section.take {} v).map (·.over base.logging)) (·.logging) :=
  .of [_, _] [] rfl (fun _ _ ↦ rfl) (List.forall_mem_cons.mpr
    ⟨Record.keeps_of (by decide) fun _ _ ↦ rfl,
      List.forall_mem_singleton.mpr (Record.keeps_of (by decide) fun _ _ ↦ rfl)⟩)

/-- **What a document makes of given preferences**: each section is laid over theirs. -/
theorem ofTable_eq {t : Table} (ht : t.Distinct) (hfits : t.WellTyped) :
    base.ofTable t = .ok ⟨t.words.over base.lexical, t.folding.over base.folding,
      t.journal.over base.logging⟩ := by
  have hwords := fun s ↦ Toml.Table.take_words ht hfits (s := s)
  have hfolding := fun s ↦ Toml.Table.take_folding ht hfits (s := s)
  have hjournal := fun s ↦ Toml.Table.take_journal ht hfits (s := s)
  obtain ⟨o, htake, hget⟩ := base.sections.take_table .headed ht (by
    intro f hf s hs draft
    rcases List.mem_cons.mp hf with rfl | hf
    · exact ⟨_, map_eq_ok_iff.mpr ⟨_, hwords s hs, rfl⟩⟩
    rcases List.mem_pair.mp hf with rfl | rfl
    · exact ⟨_, map_eq_ok_iff.mpr ⟨_, hfolding s hs, rfl⟩⟩
    · exact ⟨_, map_eq_ok_iff.mpr ⟨_, hjournal s hs, rfl⟩⟩) {}
  rw [ofTable, htake]
  refine congrArg Except.ok ?_
  change o.over base = _
  rw [Overrides.over, hget base.sets_lexical rfl, hget base.sets_folding rfl,
    hget base.sets_logging rfl, Toml.Table.getD_section hwords, Toml.Table.getD_section hfolding,
    Toml.Table.getD_section hjournal]
  -- without a section nothing is said, and what holds stays as it is
  all_goals
    intro hempty
    simp only [Table.words, Table.folding, Table.journal, Table.entry?, Variable.sectionName,
      hempty]
    rfl

theorem ofToml_eq_checked {text : Text} {t : Table} (htext : Table.ofText? text = some t)
    (hfits : t.WellTyped) :
    base.ofToml text = checked ⟨t.words.over base.lexical, t.folding.over base.folding,
      t.journal.over base.logging⟩ := by
  rw [ofToml, htext]
  simp only [ofTable_eq base (Table.distinct_of_ofText? htext) hfits]

private theorem layered_over (env : Environment) (t : Table) :
    Layered env t ⟨t.words.over (ofEnvironment env).lexical,
      t.folding.over (ofEnvironment env).folding, t.journal.over (ofEnvironment env).logging⟩ := by
  intro v
  rw [Option.getD_or]
  cases v <;> rfl

private theorem isValid_of_ofToml_eq_ok {text : Text} {p : Preferences}
    (h : base.ofToml text = .ok p) : p.isValid = true := by
  rw [ofToml] at h
  split at h
  · cases h
  · split at h
    · cases h
    · obtain ⟨hvalid, rfl⟩ := checked_eq_ok_iff.mp h
      exact hvalid

/-- **Preferences are made choice by choice.** Of a document whose values have the right types, over
any environment, each choice is made by the first of three layers that makes it. The preferences
are accepted exactly if their threshold is in range, so what is accepted is valid. -/
theorem ofToml_ofEnvironment :
    (∀ (env : Environment) (text : Text) (t : Table), Table.ofText? text = some t → t.WellTyped →
      ∃ p : Preferences, p.Layered env t ∧ (ofEnvironment env).ofToml text =
        if 1 ≤ p.lexical.largeBufferThreshold ∧ p.lexical.largeBufferThreshold ≤ maxThreshold
        then .ok p else .error (.outOfRange p.lexical.largeBufferThreshold)) ∧
    ∀ (base : Preferences) (text : Text) (p : Preferences), base.ofToml text = .ok p →
      p.isValid = true := by
  refine ⟨fun env text t htext hfits ↦ ?_, fun base text p h ↦ isValid_of_ofToml_eq_ok base h⟩
  refine ⟨_, layered_over env t, ?_⟩
  rw [ofToml_eq_checked _ htext hfits, checked]
  simp only [isValid_iff]

/-- A document that makes two choices among other things, in an environment where of five variables
one is no text, one spells nothing, and one is not asked. -/
theorem ofToml_ofEnvironment_in_part :
    ∃ t, Table.ofText?
        "[lexical]\ncollect_metrics = false\nmore = 1\n[logging.min_level.debug]".toList = some t ∧
      t.WellTyped ∧
      (ofEnvironment fun
        | .collectMetrics => none
        | .largeBufferThreshold => some " +7\n".toUTF8
        | .skipQuotedStrings => some ⟨#[0xff]⟩
        | .logUnbalanced => some "false".toUTF8
        | .minLevel => some "error".toUTF8
        | .structured => some "yes".toUTF8).ofToml
          "[lexical]\ncollect_metrics = false\nmore = 1\n[logging.min_level.debug]".toList
        = .ok ⟨⟨false, 7⟩, ⟨false, false⟩, ⟨.debug, false⟩⟩ := by
  have htext : Table.ofText?
      "[lexical]\ncollect_metrics = false\nmore = 1\n[logging.min_level.debug]".toList = some
      [("lexical".toList, .table .headed
          [("collect_metrics".toList, .boolean false), ("more".toList, .integer 1)]),
        ("logging".toList, .table .implied
          [("min_level".toList, .table .implied [("debug".toList, .table .headed [])])])] := by
    with_unfolding_all rfl
  have hfits : Table.WellTyped
      [("lexical".toList, .table .headed
          [("collect_metrics".toList, .boolean false), ("more".toList, .integer 1)]),
        ("logging".toList, .table .implied
          [("min_level".toList, .table .implied [("debug".toList, .table .headed [])])])] := by
    constructor
    · intro v s hs
      cases v <;> cases hs <;> exact ⟨_, _, rfl⟩
    · intro v x hx
      cases v <;> cases hx <;> rfl
  obtain ⟨p, hp, htoml⟩ := ofToml_ofEnvironment.1 _ _ _ htext hfits
  refine ⟨_, htext, hfits, htoml.trans ?_⟩
  have hmetrics : p.lexical.collectMetrics = false := hp .collectMetrics
  have hthreshold : p.lexical.largeBufferThreshold = 7 :=
    (hp .largeBufferThreshold).trans (by with_unfolding_all rfl)
  have hskip : p.folding.skipQuotedStrings = false :=
    (hp .skipQuotedStrings).trans (by with_unfolding_all rfl)
  have hlog : p.folding.logUnbalanced = false :=
    (hp .logUnbalanced).trans (by with_unfolding_all rfl)
  have hlevel : p.logging.minLevel = .debug := hp .minLevel
  have hstructured : p.logging.structured = false :=
    (hp .structured).trans (by with_unfolding_all rfl)
  obtain ⟨⟨_, _⟩, ⟨_, _⟩, ⟨_, _⟩⟩ := p
  cases hmetrics
  cases hthreshold
  cases hskip
  cases hlog
  cases hlevel
  cases hstructured
  rfl

end Preferences

end DumpMode
