import DumpMode.Preferences.Environment
import DumpMode.Preferences.File
import DumpMode.Proofs.Journal.Reports

/-!
# What is reported of preferences from a file

A file that is read is taken as a document, and that is reported once: the news that the
preferences have been loaded, or an error with the code of the failure (`Preferences.Told`). A file
that is not read is not reported at all, although such a failure has a code of its own.
-/

namespace DumpMode.Preferences

open Journal

variable {base : Preferences} {name : String} {stored : Stored} {text : Text}

/-! ## Reading the file -/

/-- Only a file of valid UTF-8 is read, and what is read are its characters. -/
private theorem text_eq_ok_iff : stored.text = .ok text ↔
    ∃ content s, stored = .file content ∧ String.fromUTF8? content = some s ∧ s.toList = text := by
  cases stored with
  | missing => simp [Stored.text]
  | directory => simp [Stored.text]
  | unreadable reason => simp [Stored.text]
  | file content => cases h : String.fromUTF8? content <;> simp [Stored.text, h]

private theorem text_file_toUTF8 (s : String) : Stored.text (.file s.toUTF8) = .ok s.toList := by
  have hvalid : s.toUTF8.IsValidUTF8 := s.isValidUTF8
  refine text_eq_ok_iff.mpr ⟨s.toUTF8, s, rfl, ?_, rfl⟩
  rw [String.fromUTF8?, dif_pos hvalid]
  rfl

private theorem code_ne_of_ofToml_eq_error {failure : Failure}
    (h : base.ofToml text = .error failure) : failure.code ≠ .fileReadFailed := by
  have hcodes : Code.invalidDocument ≠ .fileReadFailed ∧ Code.invalidValue ≠ .fileReadFailed := by
    decide
  unfold ofToml at h
  split at h
  case h_1 =>
    cases h
    exact hcodes.1
  case h_2 t _ =>
    split at h
    case h_1 m _ =>
      cases h
      exact hcodes.1
    case h_2 p _ =>
      unfold checked at h
      split at h <;> cases h
      exact hcodes.2

/-! ## Reporting it -/

/-- What a journal is told of an attempt to load preferences, by how the attempt ends. -/
inductive Told (name : String) : Except Failure Preferences → List Event → Prop
  | loaded (p : Preferences) {e : Event} (hlevel : e.level = .info) (hcode : e.code = ⟨"I040"⟩)
    (hpath : e.context.find? "path" = some name) : Told name (.ok p) [e]
  /-- One error about a document that is refused, with the code of the failure. -/
  | refused {failure : Failure} (hread : failure.code ≠ .fileReadFailed) {e : Event}
    (hlevel : e.level = .error) (hcode : e.code = failure.code)
    (hpath : e.context.find? "path" = some name) : Told name (.error failure) [e]
  /-- Nothing about a file that is not read. -/
  | unread (fault : ReadFault) : Told name (.error (.unreadable name fault)) []

private theorem load_of_text_eq_error {fault : ReadFault} (h : stored.text = .error fault) :
    base.load name stored = ⟨.error (.unreadable name fault), []⟩ := by
  rw [load, h]
  rfl

private theorem load_of_ofToml_eq_ok {p : Preferences} (h : stored.text = .ok text)
    (hp : base.ofToml text = .ok p) : base.load name stored = ⟨.ok p, [loadedEvent name]⟩ := by
  rw [load, h]
  dsimp only
  rw [hp]
  rfl

private theorem load_of_ofToml_eq_error {failure : Failure} (h : stored.text = .ok text)
    (hf : base.ofToml text = .error failure) :
    base.load name stored = ⟨.error failure, [rejectedEvent name failure]⟩ := by
  rw [load, h]
  dsimp only
  rw [hf]
  rfl

private theorem told_loadedEvent (name : String) (p : Preferences) :
    Told name (.ok p) [loadedEvent name] := by
  have hreport : (loadedEvent name).report = ⟨.info, ⟨"I040"⟩, none, named [("path", name)]⟩ :=
    Event.report_having rfl "path" name
  have hpath := congrFun (congrArg Report.values hreport) "path"
  exact .loaded p (congrArg Report.level hreport) (congrArg Report.code hreport) hpath

private theorem told_rejectedEvent (name : String) {failure : Failure}
    (h : failure.code ≠ .fileReadFailed) :
    Told name (.error failure) [rejectedEvent name failure] := by
  have hreport : (rejectedEvent name failure).report
      = ⟨.error, failure.code, none, named [("path", name), ("error", failure.message)]⟩ :=
    Event.report_havingAll rfl (show ["path", "error"].Nodup by decide)
  have hpath := congrFun (congrArg Report.values hreport) "path"
  exact .refused h (congrArg Report.level hreport) (congrArg Report.code hreport) hpath

/-- **What loading says and tells.** Preferences are loaded exactly as the text of the file spells
them; the failure of its document, or that of reading it, is what is returned otherwise. A journal
that admits every level is told of it once if the file has been read, and of a file that has not
been read it is told nothing. -/
theorem load_told (base : Preferences) (name : String) (stored : Stored) {i : Installation}
    (hi : i.AdmitsAll) :
    Told name (base.load name stored).value (i.passed (base.load name stored).events) ∧
      (base.load name stored).value = match stored.text with
        | .ok text => base.ofToml text
        | .error fault => .error (.unreadable name fault) := by
  rw [hi.passed_eq]
  cases htext : stored.text with
  | error fault =>
    rw [load_of_text_eq_error htext]
    exact ⟨.unread fault, rfl⟩
  | ok text =>
    cases hdocument : base.ofToml text with
    | ok p =>
      rw [load_of_ofToml_eq_ok htext hdocument]
      exact ⟨told_loadedEvent name p, hdocument.symm⟩
    | error failure =>
      rw [load_of_ofToml_eq_error htext hdocument]
      exact ⟨told_rejectedEvent name (code_ne_of_ofToml_eq_error hdocument), hdocument.symm⟩

/-- A file that sets the threshold to zero is read, and its preferences are refused with an
error. -/
theorem load_told_of_threshold_zero :
    let i : Installation := ⟨some ⟨.memory, .debug⟩, .empty⟩
    let loaded := (ofEnvironment fun _ ↦ none).load "dump.toml"
      (.file "[lexical]\nlarge_buffer_threshold = 0".toUTF8)
    i.AdmitsAll ∧ loaded.value = .error (.outOfRange 0) ∧
      ∃ e, i.passed loaded.events = [e] ∧ e.level = .error ∧ e.code = ⟨"E042"⟩ ∧
        e.context.find? "path" = some "dump.toml" := by
  intro i loaded
  have hi : i.AdmitsAll := admitsAll_memory .empty
  obtain ⟨htold, hvalue⟩ := load_told (ofEnvironment fun _ ↦ none) "dump.toml"
    (.file "[lexical]\nlarge_buffer_threshold = 0".toUTF8) hi
  have hdocument : (ofEnvironment fun _ ↦ none).ofToml
      "[lexical]\nlarge_buffer_threshold = 0".toList = .error (.outOfRange 0) := by
    with_unfolding_all rfl
  rw [text_file_toUTF8] at hvalue
  have herror : loaded.value = .error (.outOfRange 0) := hvalue.trans hdocument
  refine ⟨hi, herror, ?_⟩
  rw [show (load _ _ _).value = _ from herror] at htold
  generalize i.passed loaded.events = events at htold ⊢
  cases htold with
  | refused _ hlevel hcode hpath => exact ⟨_, rfl, hlevel, hcode, hpath⟩

/-- A journal that admits every level is told nothing of a file that is missing, though the failure
is an error with a code. -/
theorem not_told_of_missing :
    let i : Installation := ⟨some ⟨.memory, .debug⟩, .empty⟩
    let loaded := (ofEnvironment fun _ ↦ none).load "absent.toml" .missing
    i.AdmitsAll ∧ ∃ failure, loaded.value = .error failure ∧ failure.code = ⟨"E040"⟩ ∧
      i.passed loaded.events = [] :=
  ⟨admitsAll_memory .empty, .unreadable "absent.toml" .missing, rfl, rfl, rfl⟩

end DumpMode.Preferences
