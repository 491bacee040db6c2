import DumpMode.Folding.Scanner
import DumpMode.Proofs.Folding.Braces

/-!
# Skipping strings is folding the mask

A reading that skips quoted strings passes the same braces as a plain reading of the masked text:
neither passes any in a string, and both come out behind it at the same offset and level. The two
readings go side by side through the pieces that the text is made of, so the proof is an induction
on how the mask is built and never on the state that the skipping reading carries.
-/

namespace DumpMode.Folding

namespace Reading

/-! ## Stretches without braces -/

private theorem read_of_bracesAhead_eq_nil {skipQuoted : Bool} {r : Reading} {text : Text}
    (h : r.bracesAhead skipQuoted text = []) :
    r.read skipQuoted text =
      { r with
        quoting := if skipQuoted then r.quoting.afterText text else r.quoting
        offset := r.offset + text.byteLength } := by
  rw [read_eq, h]
  rfl

private theorem bracesAhead_body {body : Text} (hbody : StringBody body) {r : Reading}
    (hr : r.quoting = .inside) : r.bracesAhead true body = [] := by
  induction hbody generalizing r with
  | nil => rfl
  | @plain c body hquote hslash _ ih =>
    have hnext : (r.step true c).quoting = .inside := by
      rw [step_eq, hr]
      exact (if_neg hslash).trans (if_neg hquote)
    rw [bracesAhead, ih hnext, hr]
    rfl
  | @escape c body _ ih =>
    have hnext : ((r.step true '\\').step true c).quoting = .inside := by
      rw [step_eq, step_eq, hr]
      rfl
    have hescaped : (r.step true '\\').quoting = .escaped := by
      rw [step_eq, hr]
      rfl
    rw [bracesAhead, bracesAhead, ih hnext, hr, hescaped]
    rfl

private theorem bracesAhead_quote {body tail : Text} (hbody : StringBody body)
    (htail : tail = [] ∨ tail = ['"'] ∨ tail = ['\\']) {r : Reading} (hr : r.quoting = .outside) :
    r.bracesAhead true ('"' :: (body ++ tail)) = [] := by
  have hinside : (r.step true '"').quoting = .inside := by
    rw [step_eq, hr]
    rfl
  have hbehind : ((r.step true '"').read true body).quoting = .inside := by
    rw [read_eq, hinside]
    exact hbody.afterText_inside
  rw [bracesAhead, hr, bracesAhead_append, bracesAhead_body hbody hinside]
  rcases htail with rfl | rfl | rfl
  · rfl
  · rw [bracesAhead, hbehind]
    rfl
  · rw [bracesAhead, hbehind]
    rfl

private theorem bracesAhead_blanks (r : Reading) (text : Text) :
    r.bracesAhead false (blanks text) = [] := by
  rw [blanks]
  induction text.byteLength generalizing r with
  | zero => rfl
  | succ n ih =>
    rw [List.replicate_succ, bracesAhead, ih]
    rfl

/-! ## Two readings side by side -/

/-- **Skipping strings and reading the mask pass the same braces**, from the same place. -/
theorem bracesAhead_eq_of_masked {text m : Text} (h : Masked text m) {r r' : Reading}
    (hr : r.quoting = .outside) (hoffset : r'.offset = r.offset) (hdepth : r'.depth = r.depth) :
    r.bracesAhead true text = r'.bracesAhead false m := by
  induction h generalizing r r' with
  | nil => rfl
  | @plain c rest m hquote _ ih =>
    have hcovers : Quoting.outside.covers c = false := by simpa [Quoting.covers] using hquote
    have hopens : r.quoting.opens? true c = r'.quoting.opens? false c := by
      rw [hr, Quoting.opens?, hcovers]
      rfl
    rw [bracesAhead, bracesAhead, hopens, hoffset, hdepth]
    congr 1
    apply ih
    · rw [step_eq, hr]
      exact Quoting.after_outside_of_ne hquote
    · rw [step_eq, step_eq, hoffset]
    · rw [step_eq, step_eq, hopens, hdepth]
  | @string body rest m hbody _ ih =>
    -- both pass nothing in the string and come out behind it at the same place
    have hstring := bracesAhead_quote hbody (Or.inr (Or.inl rfl)) hr
    have hsplit : '"' :: (body ++ '"' :: rest) = '"' :: (body ++ ['"']) ++ rest := by simp
    rw [hsplit, bracesAhead_append, bracesAhead_append, hstring, bracesAhead_blanks,
      List.nil_append, List.nil_append, read_of_bracesAhead_eq_nil hstring,
      read_of_bracesAhead_eq_nil (bracesAhead_blanks r' _)]
    apply ih
    · rw [hr]
      exact endsOutside_iff.mp (.string hbody .nil)
    · rw [byteLength_blanks, hoffset]
    · exact hdepth
  | unclosed hbody =>
    have hstring := bracesAhead_quote hbody (Or.inl rfl) hr
    rw [List.append_nil] at hstring
    rw [hstring, bracesAhead_blanks]
  | cut hbody =>
    rw [bracesAhead_quote hbody (Or.inr (Or.inr rfl)) hr, bracesAhead_blanks]

end Reading

/-! ## Folding -/

theorem ofText_eq_of_masked {text m : Text} (h : Masked text m) :
    Folds.ofText true text = Folds.ofText false m := by
  rw [Folds.ofText, Folds.ofText, braces_eq, braces_eq,
    Reading.bracesAhead_eq_of_masked h rfl rfl rfl]

/-- **Folding that skips strings is plain folding of the mask**, which is the one text that has
blanks in place of the quoted strings. A text without quotes is its own mask. -/
theorem fold_skipping_eq_fold_mask (logs logs' : Bool) (text : Text) :
    (∀ m, Masked text m ↔ m = mask text) ∧
      ((⟨true, logs⟩ : FoldPreferences).fold text).value
        = ((⟨false, logs'⟩ : FoldPreferences).fold (mask text)).value ∧
      ('"' ∉ text → ((⟨true, logs⟩ : FoldPreferences).fold text).value
        = ((⟨false, logs'⟩ : FoldPreferences).fold text).value) := by
  have hmask : Folds.ofText true text = Folds.ofText false (mask text) :=
    ofText_eq_of_masked (masked_iff.mpr rfl)
  refine ⟨fun m ↦ masked_iff.trans eq_comm, hmask, fun hquote ↦ ?_⟩
  rw [mask_of_not_mem hquote] at hmask
  exact hmask

/-- Backslashes without quotes mean nothing, so both ways of folding close the region. -/
theorem fold_skipping_backslashes :
    '"' ∉ "\\\x7b\\\x7d".toList ∧
      ((⟨true, true⟩ : FoldPreferences).fold "\\\x7b\\\x7d".toList).value
        = ((⟨false, false⟩ : FoldPreferences).fold "\\\x7b\\\x7d".toList).value :=
  have hquote : '"' ∉ "\\\x7b\\\x7d".toList := by decide
  ⟨hquote, (fold_skipping_eq_fold_mask true false _).2.2 hquote⟩

end DumpMode.Folding
