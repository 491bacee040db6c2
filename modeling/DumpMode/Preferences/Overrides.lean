import DumpMode.Preferences.Basic

/-!
# Preferences in part

A document need not say everything: each section and each field may be missing. What it does say
is laid over a full set of preferences, field by field.
-/

namespace DumpMode

structure WordOverrides where
  collectMetrics : Option Bool := none
  largeBufferThreshold : Option Nat := none
deriving DecidableEq, Repr

structure FoldOverrides where
  skipQuotedStrings : Option Bool := none
  logUnbalanced : Option Bool := none
deriving DecidableEq, Repr

structure JournalOverrides where
  minLevel : Option Journal.Level := none
  structured : Option Bool := none
deriving DecidableEq, Repr

/-- The sections that are there. -/
structure Overrides where
  lexical : Option WordPreferences := none
  folding : Option FoldPreferences := none
  logging : Option JournalPreferences := none
deriving DecidableEq, Repr

/-- Lays what is said about words over given preferences. -/
def WordOverrides.over (o : WordOverrides) (p : WordPreferences) : WordPreferences :=
  ⟨o.collectMetrics.getD p.collectMetrics, o.largeBufferThreshold.getD p.largeBufferThreshold⟩

def FoldOverrides.over (o : FoldOverrides) (p : FoldPreferences) : FoldPreferences :=
  ⟨o.skipQuotedStrings.getD p.skipQuotedStrings, o.logUnbalanced.getD p.logUnbalanced⟩

def JournalOverrides.over (o : JournalOverrides) (p : JournalPreferences) : JournalPreferences :=
  ⟨o.minLevel.getD p.minLevel, o.structured.getD p.structured⟩

/-- Puts the sections that are there in place of those of given preferences. -/
def Overrides.over (o : Overrides) (p : Preferences) : Preferences :=
  ⟨o.lexical.getD p.lexical, o.folding.getD p.folding, o.logging.getD p.logging⟩

end DumpMode
