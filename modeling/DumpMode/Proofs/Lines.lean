import DumpMode.LineMap

/-!
# Texts by lines

A text is a list of lines with newlines between them. `Text.lineInduction` proves a property of all
texts line by line; it asks for nothing but the first newline, and the two equations of `linesFrom`
say what the line map of a text does there.
-/

namespace DumpMode

/-- To prove something of every text, prove it of a text without a newline, and of a line in front
of a text of which it is known already. -/
theorem Text.lineInduction {motive : Text → Prop} (last : ∀ line : Text, '\n' ∉ line → motive line)
    (more : ∀ line back : Text, '\n' ∉ line → motive back → motive (line ++ '\n' :: back))
    (text : Text) : motive text := by
  induction hlength : text.length using Nat.strongRecOn generalizing text with
  | ind n ih =>
    by_cases hmem : '\n' ∈ text
    · obtain ⟨line, back, rfl, hline⟩ := List.eq_append_cons_of_mem hmem
      refine more line back hline (ih back.length ?_ back rfl)
      rw [← hlength, List.length_append, List.length_cons]
      omega
    · exact last text hmem

theorem Text.takeWhile_append {line : Text} (hline : '\n' ∉ line) (back : Text) :
    (line ++ back).takeWhile (· != '\n') = line ++ back.takeWhile (· != '\n') :=
  List.takeWhile_append_of_pos fun _ hc ↦ bne_iff_ne.mpr (ne_of_mem_of_not_mem hc hline)

theorem Text.takeWhile_of_not_mem {line : Text} (hline : '\n' ∉ line) :
    line.takeWhile (· != '\n') = line := by
  simpa using takeWhile_append hline []

theorem Text.takeWhile_append_newline {line : Text} (hline : '\n' ∉ line) (back : Text) :
    (line ++ '\n' :: back).takeWhile (· != '\n') = line := by
  rw [takeWhile_append hline, List.takeWhile_cons_of_neg (by simp), List.append_nil]

namespace LineMap

/-! ## Where lines begin -/

/-- The lines of a text that starts at an offset. -/
def linesFrom (offset : Nat) (text : Text) : List LineStart :=
  ⟨offset, text⟩ :: startsBehind offset [] text

/-- The lines passed already stand in front of those that are still to come. -/
private theorem startsBehind_eq_append (offset : Nat) (found : List LineStart) (text : Text) :
    startsBehind offset found text = found.reverse ++ startsBehind offset [] text := by
  induction text generalizing offset found with
  | nil => rw [startsBehind, startsBehind, List.reverse_nil, List.append_nil]
  | cons c rest ih =>
    rw [startsBehind, startsBehind]
    split
    · rw [ih _ (_ :: found), ih _ [_], List.reverse_cons, List.append_assoc]
      rfl
    · exact ih _ found

private theorem startsBehind_append {line : Text} (hline : '\n' ∉ line) (offset : Nat)
    (found : List LineStart) (back : Text) :
    startsBehind offset found (line ++ back)
      = startsBehind (offset + line.byteLength) found back := by
  induction line generalizing offset with
  | nil => rfl
  | cons c line ih =>
    obtain ⟨hc, hline⟩ := not_or.mp (mt List.mem_cons.mpr hline)
    rw [List.cons_append, startsBehind, if_neg (Ne.symm hc), ih hline, Text.byteLength_cons,
      Nat.add_assoc]

theorem linesFrom_of_not_mem {line : Text} (hline : '\n' ∉ line) (offset : Nat) :
    linesFrom offset line = [⟨offset, line⟩] := by
  have h := startsBehind_append hline offset [] []
  rw [List.append_nil] at h
  rw [linesFrom, h]
  rfl

theorem linesFrom_append_newline {line : Text} (hline : '\n' ∉ line) (offset : Nat) (back : Text) :
    linesFrom offset (line ++ '\n' :: back)
      = ⟨offset, line ++ '\n' :: back⟩
        :: linesFrom (offset + line.byteLength + '\n'.utf8Size) back := by
  rw [linesFrom, startsBehind_append hline, startsBehind, if_pos rfl, startsBehind_eq_append]
  rfl

/-! ## What stands on a line -/

theorem exists_eq_dropReturns_append (line : Text) :
    ∃ returns : Text, line = dropReturns line ++ returns ∧ ∀ c ∈ returns, c = '\r' := by
  refine ⟨(line.reverse.takeWhile (· == '\r')).reverse, ?_, fun c hc ↦ ?_⟩
  · rw [dropReturns, ← List.reverse_append, List.takeWhile_append_dropWhile, List.reverse_reverse]
  · have hall := List.all_eq_true.mp (List.all_takeWhile (l := line.reverse) (p := (· == '\r')))
    exact eq_of_beq (hall c (List.mem_reverse.mp hc))

end LineMap

def LineStart.line (s : LineStart) : Text := LineMap.dropReturns (s.rest.takeWhile (· != '\n'))

theorem LineMap.line?_eq_getElem? (map : LineMap) (index : Nat) :
    map.line? (index + 1) = map.lines[index]?.map LineStart.line := rfl

end DumpMode
