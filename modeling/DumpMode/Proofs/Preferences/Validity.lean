import DumpMode.Proofs.Editor.Scans
import DumpMode.Proofs.Preferences.Layers

/-!
# The threshold of an environment

An environment can set the threshold for large texts to any size, and nothing checks it before it
is used. So the preferences of an environment are valid exactly if the size it sets, if it sets
one, is in range (`Environment.ThresholdFits`), and what this means is seen elsewhere: documents
that say nothing about the threshold are refused for it, and adapters run with it.
-/

namespace DumpMode

open Toml (Table)

/-- If an environment sets the threshold for large texts, it is in range. -/
def Environment.ThresholdFits (env : Environment) : Prop :=
  ∀ n, (env.text? .largeBufferThreshold).bind size? = some n →
    1 ≤ n ∧ n ≤ Preferences.maxThreshold

namespace Preferences

/-- The preferences of an environment are valid exactly if its threshold is in range; the threshold
that is built in is. -/
private theorem isValid_ofEnvironment_iff (env : Environment) :
    (ofEnvironment env).isValid = true ↔ env.ThresholdFits := by
  have hthreshold : (ofEnvironment env).lexical.largeBufferThreshold
      = ((env.text? .largeBufferThreshold).bind Environment.size?).getD defaultThreshold := rfl
  rw [isValid_iff, hthreshold, Environment.ThresholdFits]
  cases (env.text? .largeBufferThreshold).bind Environment.size? with
  | none =>
    rw [Option.getD_none]
    refine ⟨fun _ n hn ↦ ?_, fun _ ↦ by decide⟩
    cases hn
  | some n =>
    rw [Option.getD_some]
    constructor
    · rintro h m ⟨⟩
      exact h
    · intro h
      exact h n rfl

private theorem checked_over (base : Preferences) {t : Table}
    (ht : t.entry? .largeBufferThreshold = none) (q : FoldPreferences) (r : JournalPreferences) :
    checked ⟨t.words.over base.lexical, q, r⟩ =
      if base.isValid then .ok ⟨t.words.over base.lexical, q, r⟩
      else .error (.outOfRange base.lexical.largeBufferThreshold) := by
  have hover : (t.words.over base.lexical).largeBufferThreshold
      = base.lexical.largeBufferThreshold := by
    simp [WordOverrides.over, Table.words, ht]
  rw [checked, isValid, hover]
  rfl

/-- **Where the threshold of an environment is checked.** The preferences of an environment are
valid, documents that do not mention the threshold are accepted in it, and its adapters run with a
threshold in range, exactly if the environment sets no threshold out of range. -/
theorem valid_iff_thresholdFits (env : Environment) :
    ((ofEnvironment env).isValid = true ↔ env.ThresholdFits) ∧
    (∀ (text : Text) (t : Table), Table.ofText? text = some t → t.WellTyped →
      t.entry? .largeBufferThreshold = none →
        ((∃ p, (ofEnvironment env).ofToml text = .ok p) ↔ env.ThresholdFits) ∧
        ((ofEnvironment env).ofToml text
          = .error (.outOfRange (ofEnvironment env).lexical.largeBufferThreshold) ↔
            ¬env.ThresholdFits)) ∧
    ∃ a, (Editor.Adapter.build (ofEnvironment env)).value = .ok a ∧
      (1 ≤ a.classifier.preferences.largeBufferThreshold ∧
        a.classifier.preferences.largeBufferThreshold ≤ maxThreshold ↔ env.ThresholdFits) := by
  refine ⟨isValid_ofEnvironment_iff env, fun text t htext hfits ht ↦ ?_, ?_⟩
  · rw [ofToml_eq_checked _ htext hfits, checked_over _ ht, ← isValid_ofEnvironment_iff]
    cases (ofEnvironment env).isValid <;> simp
  · refine ⟨_, Editor.Adapter.value_build _, ?_⟩
    rw [← isValid_ofEnvironment_iff, isValid_iff]

/-- A document about folding is refused where an environment sets the threshold to one byte more
than a gibibyte. -/
theorem refused_of_threshold_above :
    let env : Environment := fun v ↦
      if v = .largeBufferThreshold then some "1073741825".toUTF8 else none
    ¬env.ThresholdFits ∧
      (ofEnvironment env).ofToml "[folding]\nskip_quoted_strings = true".toList
        = .error (.outOfRange 1073741825) := by
  intro env
  have htext : Table.ofText? "[folding]\nskip_quoted_strings = true".toList = some
      [("folding".toList, .table .headed [("skip_quoted_strings".toList, .boolean true)])] := by
    with_unfolding_all rfl
  have hfits : Table.WellTyped
      [("folding".toList, .table .headed [("skip_quoted_strings".toList, .boolean true)])] := by
    constructor
    · intro v s hs
      cases v <;> cases hs <;> exact ⟨_, _, rfl⟩
    · intro v x hx
      cases v <;> cases hx
      rfl
  have hinvalid : (ofEnvironment env).isValid = false := by decide +kernel
  obtain ⟨hvalid, hdocument, -⟩ := valid_iff_thresholdFits env
  have hnot : ¬env.ThresholdFits := by
    rw [← hvalid, hinvalid]
    decide
  have hthreshold : (ofEnvironment env).lexical.largeBufferThreshold = 1073741825 := by
    with_unfolding_all rfl
  exact ⟨hnot, hthreshold ▸ (hdocument _ _ htext hfits rfl).2.mpr hnot⟩

/-- An environment that sets the threshold to zero. -/
theorem not_valid_of_threshold_zero :
    let env : Environment := fun v ↦ if v = .largeBufferThreshold then some "0".toUTF8 else none
    (ofEnvironment env).isValid = false ∧
      (ofEnvironment env).ofToml [] = .error (.outOfRange 0) ∧
      ∃ a, (Editor.Adapter.build (ofEnvironment env)).value = .ok a ∧
        a.classifier.preferences.largeBufferThreshold = 0 := by
  refine ⟨by decide +kernel, by with_unfolding_all rfl, _, Editor.Adapter.value_build _, ?_⟩
  with_unfolding_all rfl

end Preferences

end DumpMode
