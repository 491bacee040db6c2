import DumpMode.Journal.Level

/-!
# Preferences

What a user can choose: how words are classified, how braces are folded, and what the journal
admits. A threshold is valid in the range that `isValid` tests, and everything else is valid as it
is. Documents are held to that range by `Preferences.checked`; an environment is not.
-/

namespace DumpMode

/-- Choices for the classification of words. -/
structure WordPreferences where
  /-- Whether matches are counted by class. -/
  collectMetrics : Bool
  /-- Texts of more bytes than this are warned about. -/
  largeBufferThreshold : Nat
deriving DecidableEq, Repr

/-- Choices for the folding of regions. -/
structure FoldPreferences where
  /-- Whether braces in quoted strings are left out of account. -/
  skipQuotedStrings : Bool
  /-- Whether braces without a partner are warned about. -/
  logUnbalanced : Bool
deriving DecidableEq, Repr

structure JournalPreferences where
  /-- The least important level that is admitted. -/
  minLevel : Journal.Level
  /-- Whether lines are written as JSON. -/
  structured : Bool
deriving DecidableEq, Repr

structure Preferences where
  lexical : WordPreferences
  folding : FoldPreferences
  logging : JournalPreferences
deriving DecidableEq, Repr

namespace Preferences

/-- The threshold for large texts that is used unless another is chosen: four mebibytes. -/
def defaultThreshold : Nat := 4 * 1024 * 1024

/-- The largest threshold that can be chosen: one gibibyte. -/
def maxThreshold : Nat := 1024 * 1024 * 1024

/-- The choices that hold where nothing else is said. -/
def builtin : Preferences where
  lexical := ⟨true, defaultThreshold⟩
  folding := ⟨false, true⟩
  logging := ⟨.warning, false⟩

def isValid (p : Preferences) : Bool :=
  1 ≤ p.lexical.largeBufferThreshold && p.lexical.largeBufferThreshold ≤ maxThreshold

theorem isValid_iff {p : Preferences} :
    p.isValid = true ↔
      1 ≤ p.lexical.largeBufferThreshold ∧ p.lexical.largeBufferThreshold ≤ maxThreshold := by
  simp [isValid]

theorem isValid_builtin : builtin.isValid = true := by decide

end Preferences

end DumpMode
