import DumpMode.Breach
import DumpMode.Editor.Snapshot
import DumpMode.Preferences.Basic

/-!
# Numbers within range

Offsets, sizes and depths are numbers of 64 bits, lines and columns are numbers of 32. A value fits
if all its numbers do; only such values can be held by a host, and only these are ever written.
-/

namespace DumpMode

structure Position.Fits (p : Position) : Prop where
  offset_lt : p.offset < offsetBound
  line_lt : p.line < lineBound
  column_lt : p.column < lineBound

structure Span.Fits (s : Span) : Prop where
  start : s.start.Fits
  stop : s.stop.Fits

structure Tag.Fits (t : Tag) : Prop where
  start_lt : t.start < offsetBound
  stop_lt : t.stop < offsetBound

namespace Folding

structure Region.Fits (r : Region) : Prop where
  opening_lt : r.opening < offsetBound
  closing_lt : ∀ c ∈ r.closing, c < offsetBound
  depth_lt : r.depth < offsetBound

structure LineRange.Fits (r : LineRange) : Prop where
  startLine_lt : r.startLine < lineBound
  endLine_lt : ∀ l ∈ r.endLine, l < lineBound

structure Folds.Fits (f : Folds) : Prop where
  regions : ∀ r ∈ f.regions, r.Fits
  unbalanced_lt : ∀ c ∈ f.unbalanced, c < offsetBound

end Folding

structure Editor.Snapshot.Fits (s : Snapshot) : Prop where
  tags : ∀ t ∈ s.tags, t.Fits
  folds : ∀ r ∈ s.folds, r.Fits
  unbalanced_lt : ∀ c ∈ s.unbalanced, c < offsetBound

/-- Choices for words whose threshold is within the range of sizes. It need not be valid. -/
def WordPreferences.Fits (p : WordPreferences) : Prop := p.largeBufferThreshold < offsetBound

def Preferences.Fits (p : Preferences) : Prop := p.lexical.Fits

end DumpMode
