import DumpMode.Proofs.Folding.Stack
import DumpMode.Proofs.Journal.Reports

/-!
# What is reported of a folded text

The report of a pass tells exactly what the pass has found: `Folds.reports` lists what there is to
say about the regions of a text, and reads it off the regions alone. The warnings about closing
braces are given while the text is read, and the others by what is left on the stack; that the
result says the same is what the stack is for (`Pass.foldlM_step`, `Pass.unterminated?_behind`).
-/

namespace DumpMode.Folding

open Journal

/-! ## What there is to say -/

def strayReport (offset : Nat) : Report :=
  ⟨.warning, ⟨"W030"⟩, some (.atOffsets offset (offset + 1)), named [("offset", toString offset)]⟩

def unterminatedReport (count first : Nat) : Report :=
  ⟨.warning, ⟨"W031"⟩, none,
    named [("count", toString count), ("first_offset", toString first)]⟩

def countsReport (regions unterminated unbalanced : Nat) : Report :=
  ⟨.info, ⟨"I030"⟩, none,
    named [("regions", toString regions), ("unterminated", toString unterminated),
      ("unbalanced", toString unbalanced)]⟩

/-- What there is to say about the regions of a text, in order: if there are to be warnings, one for
each closing brace that closes nothing, and one for all regions without an end, if there are any,
with the least offset at which one of them begins; and then how many there are of everything. -/
def Folds.reports (warns : Bool) (f : Folds) : List Report :=
  (if warns then
    f.unbalanced.map strayReport ++
      ((f.openRegions.map (·.opening)).min?.map (unterminatedReport f.openRegions.length)).toList
  else []) ++
    [countsReport f.regions.length f.openRegions.length f.unbalanced.length]

/-! ## What is said -/

private theorem report_unbalancedEvent (offset : Nat) :
    (unbalancedEvent offset).report = strayReport offset := Event.report_having rfl _ _

private theorem report_unterminatedEvent (count first : Nat) :
    (unterminatedEvent count first).report = unterminatedReport count first :=
  Event.report_having_having rfl (by decide) _ _

private theorem report_foldedEvent (f : Folds) : (foldedEvent f).report
    = countsReport f.regions.length f.openRegions.length f.unbalanced.length :=
  Event.report_havingAll rfl (show ["regions", "unterminated", "unbalanced"].Nodup by decide)

private theorem min?_map_opening_openRegions (skipQuoted : Bool) (text : Text) :
    ((Folds.ofText skipQuoted text).openRegions.map (·.opening)).min?
      = (Folds.ofText skipQuoted text).openRegions.head?.map (·.opening) := by
  have hopening := Folds.pairwise_map_opening (pairwise_braces skipQuoted text)
  have hopens : ((Folds.ofText skipQuoted text).openRegions.map (·.opening)).Pairwise (· < ·) :=
    hopening.sublist (List.filter_sublist.map _)
  rw [List.min?_eq_head? (hopens.imp fun hlt ↦ Nat.min_eq_left hlt.le), List.head?_map]

private theorem map_report_warnings (skipQuoted : Bool) (text : Text) :
    (warnings (.ofText skipQuoted text)).map Event.report =
      (Folds.ofText skipQuoted text).unbalanced.map strayReport ++
        (((Folds.ofText skipQuoted text).openRegions.map (·.opening)).min?.map
          (unterminatedReport (Folds.ofText skipQuoted text).openRegions.length)).toList := by
  rw [min?_map_opening_openRegions, warnings]
  generalize Folds.ofText skipQuoted text = f
  have hstrays : (f.unbalanced.map unbalancedEvent).map Event.report
      = f.unbalanced.map strayReport := by
    rw [List.map_map]
    exact List.map_congr_left fun o _ ↦ report_unbalancedEvent o
  rw [List.map_append, hstrays]
  congr 1
  cases f.openRegions.head? with
  | none => rfl
  | some r => exact congrArg ([·]) (report_unterminatedEvent _ _)

/-- **The report of a pass tells exactly its result.** A journal that admits every level is sent
what there is to say about the regions that the pass has found, in order, and nothing else; and the
pass finds and reports what folding does. -/
theorem reports_foldByStack (p : FoldPreferences) (text : Text) {i : Installation}
    (hi : i.AdmitsAll) :
    p.foldByStack text = p.fold text ∧
      (i.passed (p.foldByStack text).events).map Event.report
        = (p.foldByStack text).value.reports p.logUnbalanced := by
  refine ⟨p.foldByStack_eq_fold text, ?_⟩
  rw [hi.passed_eq, p.foldByStack_eq_fold]
  have hevents : (p.fold text).events
      = (if p.logUnbalanced then warnings (.ofText p.skipQuotedStrings text) else [])
        ++ [foldedEvent (.ofText p.skipQuotedStrings text)] := rfl
  have hvalue : (p.fold text).value = .ofText p.skipQuotedStrings text := rfl
  rw [hevents, hvalue, List.map_append, List.map_singleton, report_foldedEvent, Folds.reports,
    ← map_report_warnings]
  cases p.logUnbalanced <;> rfl

/-- Two closing braces are left over, and one of two regions has no end; the braces in the string
are not looked at. -/
theorem reports_foldByStack_left_over :
    let i : Installation := ⟨some ⟨.memory, .debug⟩, .empty⟩
    let folded := (⟨true, true⟩ : FoldPreferences).foldByStack
      "\x7d\"\x7d\x7b\"\x7b\x7d\x7d\x7b".toList
    i.AdmitsAll ∧ (i.passed folded.events).map Event.report
      = [strayReport 0, strayReport 7, unterminatedReport 1 8, countsReport 2 1 2] := by
  intro i folded
  have hi : i.AdmitsAll := admitsAll_memory .empty
  have hvalue : folded.value = ⟨[⟨5, some 6, 0⟩, ⟨8, none, 0⟩], [0, 7]⟩ := by decide
  obtain ⟨-, hreports⟩ := reports_foldByStack ⟨true, true⟩
    "\x7d\"\x7d\x7b\"\x7b\x7d\x7d\x7b".toList hi
  refine ⟨hi, hreports.trans ?_⟩
  rw [show (FoldPreferences.foldByStack _ _).value = _ from hvalue]
  rfl

end DumpMode.Folding
