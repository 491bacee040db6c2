import DumpMode.Editor.Requests
import DumpMode.Preferences.Environment
import DumpMode.Proofs.Folding.Masking
import DumpMode.Proofs.Folding.Partners
import DumpMode.Proofs.Words.Matches

/-!
# One result for all scans

The words of a text can be had as matches, with counts or as tags, and its regions alone, in a
snapshot or through a host. All of these are one result (`Adapter.Coherent`). Of the choices of a
user only the one about quoted strings reaches it, and that one only through quotes: a text without
quotes is its own mask.

What a host gets is stated for the host with a trace, so that the number of calls and their order
are part of it.
-/

namespace DumpMode

open Folding (Folds PairsBraces)

namespace Editor.Adapter

/-! ## Adapters for dumps -/

private theorem value_of_classifier (p : Preferences) {c : Words.Classifier}
    {built : Logged (Except Words.BuildError Words.Classifier)} (h : built.value = .ok c) :
    Logged.value (do
      match ← built with
      | .error e => return Except.error (Failure.classifier e)
      | .ok classifier =>
        Logged.report (configuredEvent .dump p)
        return .ok (Adapter.mk classifier p.folding .dump)) = .ok ⟨c, p.folding, .dump⟩ := by
  rw [Logged.value_bind, h]
  rfl

theorem value_build (p : Preferences) :
    (build p).value = .ok ⟨⟨.standard, p.lexical⟩, p.folding, .dump⟩ := by
  rw [build]
  exact value_of_classifier p (Words.Classifier.value_standard p.lexical)

private theorem eq_of_value_build {p : Preferences} {a : Adapter} (h : (build p).value = .ok a) :
    a = ⟨⟨.standard, p.lexical⟩, p.folding, .dump⟩ :=
  Except.ok.inj (h.symm.trans (value_build p))

/-! ## The ways to look at a text -/

/-- All ways of an adapter to look at a text come to one result. -/
structure Coherent (a : Adapter) (text : Text) : Prop where
  tags_eq : (a.classifier.tags text).value = (a.classifier.classify text).value.map (·.tag)
  /-- Counting the matches does not change them. -/
  counted_eq :
    (a.classifier.classifyWithMetrics text).value.1 = (a.classifier.classify text).value
  scan_tags : (a.scan text).value.tags = (a.classifier.tags text).value
  scan_folds : (a.scan text).value.folds = (a.folding.fold text).value.regions
  scan_unbalanced : (a.scan text).value.unbalanced = (a.folding.fold text).value.unbalanced
  /-- A host gets the tags and then the regions, each once, whatever it got before. -/
  refresh_eq : ∀ {σ : Type} (host : Host σ) (s : σ) (before : List Delivery),
    (a.refresh host.traced text (s, before)).value =
      (host.applyFolds (a.folding.fold text).value
          (host.applyTags (a.classifier.tags text).value s),
        before ++ [.tags (a.classifier.tags text).value, .folds (a.folding.fold text).value])

private theorem coherent (a : Adapter) (text : Text) : a.Coherent text where
  tags_eq := by
    rw [Words.Classifier.value_classify]
    rfl
  counted_eq := rfl
  scan_tags := rfl
  scan_folds := rfl
  scan_unbalanced := rfl
  refresh_eq host s before := by
    rw [List.append_cons]
    rfl

/-! ## Requests -/

section Requests

variable {σ : Type} (a : Adapter) (host : Host σ)

private theorem value_register (s : σ) :
    (a.register host s).value = host.register a.registration s := by
  rw [register]
  obtain ⟨answer, t⟩ := host.register a.registration s
  cases answer <;> rfl

/-- **One step**: a request gives a host what it asks for, and nothing else. -/
private theorem value_serve_traced (s : σ) (before : List Delivery) (r : Request) :
    (a.serve host.traced (s, before) r).value
      = ((a.serve host s r).value, before ++ a.deliveries r) := by
  cases r with
  | register =>
    simp only [serve, Logged.value_bind, value_register]
    rfl
  | refresh text => exact (a.coherent text).refresh_eq host s before

/-- **A whole run**: some requests give a host what each of them asks for, in order. -/
theorem value_serveAll_traced (s : σ) (before : List Delivery) (rs : List Request) :
    (a.serveAll host.traced (s, before) rs).value
      = ((a.serveAll host s rs).value, before ++ rs.flatMap a.deliveries) := by
  induction rs generalizing s before with
  | nil => rw [List.flatMap_nil, List.append_nil]; rfl
  | cons r rs ih =>
    rw [serveAll, Logged.value_bind, value_serve_traced, ih, List.append_assoc,
      List.flatMap_cons]
    rfl

end Requests

end Editor.Adapter

/-! ## Choices and results -/

private theorem Folding.Folds.ofText_eq_of_not_mem {text : Text} (h : '"' ∉ text)
    (skip skip' : Bool) : Folds.ofText skip text = Folds.ofText skip' text := by
  have hmask : Folds.ofText true text = Folds.ofText false text :=
    Folding.ofText_eq_of_masked (Folding.masked_iff.mpr (Folding.mask_of_not_mem h))
  cases skip <;> cases skip' <;> simp [hmask]

namespace Editor.Adapter

/-- **All scans come to one result, and choices reach it only through quotes.** The adapter of any
preferences looks at a text in one way, whatever is asked of it and whatever a host was given
before. Two adapters find the same tags; they find the same regions if their preferences agree on
quoted strings or the text has no quote. Plain folding counts every brace in every environment. -/
theorem scan_eq_scan :
    (∀ p : Preferences, ∃ a : Adapter, (build p).value = .ok a ∧ (∀ text, a.Coherent text) ∧
      ∀ {σ : Type} (host : Host σ) (s : σ) (rs : List Request),
        (a.serveAll host.traced (s, []) rs).value
          = ((a.serveAll host s rs).value, rs.flatMap a.deliveries)) ∧
    (∀ (p q : Preferences) (a b : Adapter) (text : Text),
      (build p).value = .ok a → (build q).value = .ok b →
        (a.scan text).value.tags = (b.scan text).value.tags ∧
        (p.folding.skipQuotedStrings = q.folding.skipQuotedStrings ∨ '"' ∉ text →
          (a.scan text).value.folds = (b.scan text).value.folds ∧
          (a.scan text).value.unbalanced = (b.scan text).value.unbalanced)) ∧
    (∀ (env : Environment) (text : Text),
      PairsBraces false text ((Preferences.plainBraces env).fold text).value ∧
      ∀ p : FoldPreferences, p.skipQuotedStrings = false →
        ((Preferences.plainBraces env).fold text).value = (p.fold text).value) := by
  refine ⟨fun p ↦ ⟨_, value_build p, coherent _, fun host s rs ↦ ?_⟩, ?_, fun env text ↦ ⟨?_, ?_⟩⟩
  · exact value_serveAll_traced _ host s [] rs
  · intro p q a b text ha hb
    obtain rfl := eq_of_value_build ha
    obtain rfl := eq_of_value_build hb
    refine ⟨rfl, fun h ↦ ?_⟩
    have hfolds : Folds.ofText p.folding.skipQuotedStrings text
        = Folds.ofText q.folding.skipQuotedStrings text := by
      rcases h with h | h
      · rw [h]
      · exact Folding.Folds.ofText_eq_of_not_mem h _ _
    exact ⟨congrArg Folds.regions hfolds, congrArg Folds.unbalanced hfolds⟩
  · exact Folding.pairsBraces_ofText false text
  · intro p hp
    change Folds.ofText false text = Folds.ofText p.skipQuotedStrings text
    rw [hp]

/-- Two adapters whose preferences differ in every choice, on a text without quotes. -/
theorem scan_eq_scan_without_quotes :
    '"' ∉ "GROUP \x7b\x7d\x7d".toList ∧ ∃ a b : Adapter,
      (build .builtin).value = .ok a ∧
      (build ⟨⟨false, 1⟩, ⟨true, false⟩, ⟨.error, true⟩⟩).value = .ok b ∧
      (b.scan "GROUP \x7b\x7d\x7d".toList).value.folds = [⟨6, some 7, 0⟩] ∧
      (a.scan "GROUP \x7b\x7d\x7d".toList).value.tags
        = (b.scan "GROUP \x7b\x7d\x7d".toList).value.tags ∧
      (a.scan "GROUP \x7b\x7d\x7d".toList).value.folds
        = (b.scan "GROUP \x7b\x7d\x7d".toList).value.folds ∧
      (a.scan "GROUP \x7b\x7d\x7d".toList).value.unbalanced
        = (b.scan "GROUP \x7b\x7d\x7d".toList).value.unbalanced := by
  have hquote : '"' ∉ "GROUP \x7b\x7d\x7d".toList := by decide
  have ha := value_build .builtin
  have hb := value_build ⟨⟨false, 1⟩, ⟨true, false⟩, ⟨.error, true⟩⟩
  obtain ⟨htags, hfolds⟩ := scan_eq_scan.2.1 _ _ _ _ "GROUP \x7b\x7d\x7d".toList ha hb
  exact ⟨hquote, _, _, ha, hb, by decide +kernel, htags, hfolds (Or.inr hquote)⟩

end Editor.Adapter

end DumpMode
