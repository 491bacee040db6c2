import DumpMode.Json.Decode
import DumpMode.Proofs.Json.Lexical
import DumpMode.Proofs.Results

/-!
# One step of a reader

Lists, objects and arrays are read by loops. Each lemma says what one turn of a loop does with a
text of which it is known how it goes on behind its blanks: with a value, with a comma and a value,
or with the end. What is known of the value itself does not matter here, only that it does not look
like the end of an array (`StartsValue`).
-/

namespace DumpMode.Json

/-- Whether a text goes on with what can be a value in an array. -/
def StartsValue (text : Text) : Prop := ∃ c rest, text = c :: rest ∧ c ≠ ']'

variable {σ α : Type} {text tail body rest : Text}

/-! ## Lists -/

section Lists

variable {item : Reader α} {found : List α}

theorem readItems_first (htext : skipBlank text = body) (hbody : StartsValue body) (fuel : Nat) :
    readItems item (fuel + 1) [] text =
      (item body >>= fun p ↦ readItems item fuel [p.1] p.2) := by
  obtain ⟨c, rest, rfl, hc⟩ := hbody
  rw [readItems, htext]
  split
  · contradiction
  · rename_i heq
    exact absurd (List.cons.inj heq).1 hc
  · rename_i heq
    cases heq
    rfl

theorem readItems_next (htext : skipBlank text = ',' :: tail) (htail : skipBlank tail = body)
    (hbody : StartsValue body) (hfound : found ≠ []) (fuel : Nat) :
    readItems item (fuel + 1) found text =
      (item body >>= fun p ↦ readItems item fuel (p.1 :: found) p.2) := by
  obtain ⟨c, rest, rfl, hc⟩ := hbody
  rw [readItems, htext]
  simp [hfound, htail, hc]

theorem readItems_end (htext : skipBlank text = ']' :: rest) (fuel : Nat) :
    readItems item (fuel + 1) found text = .ok (found.reverse, rest) := by
  rw [readItems, htext]
  rfl

end Lists

/-! ## Records -/

namespace Record

variable {r : Record σ α}

theorem conclude_eq_ok_iff {draft : σ} {a : α} :
    r.conclude draft = .ok a ↔ r.finish draft = .ok a := mapError_eq_ok_iff

theorem readMembers_first (htext : skipBlank text = '"' :: rest) (fuel : Nat) (draft : σ) :
    r.readMembers (fuel + 1) true draft text =
      (r.readMember draft rest >>= fun p ↦ r.readMembers fuel false p.1 p.2) := by
  rw [readMembers, htext]
  rfl

theorem readMembers_next (htext : skipBlank text = ',' :: tail)
    (htail : skipBlank tail = '"' :: rest) (fuel : Nat) (draft : σ) :
    r.readMembers (fuel + 1) false draft text =
      (r.readMember draft rest >>= fun p ↦ r.readMembers fuel false p.1 p.2) := by
  rw [readMembers, htext]
  simp [htail]

theorem readMembers_end (htext : skipBlank text = '\x7d' :: rest) (first : Bool) (fuel : Nat)
    (draft : σ) (a : α) (rest' : Text) :
    r.readMembers (fuel + 1) first draft text = .ok (a, rest') ↔
      r.finish draft = .ok a ∧ rest' = rest := by
  rw [readMembers, htext]
  simp only [bind_eq_ok_iff, conclude_eq_ok_iff]
  constructor
  · rintro ⟨b, hb, heq⟩
    cases heq
    exact ⟨hb, rfl⟩
  · rintro ⟨ha, rfl⟩
    exact ⟨a, ha, rfl⟩

theorem readElements_first (htext : skipBlank text = body) (hbody : StartsValue body) (draft : σ)
    (f : Field σ) (fields : List (Field σ)) :
    r.readElements 0 draft (f :: fields) text =
      (f.read draft body >>= fun p ↦ r.readElements 1 p.1 fields p.2) := by
  obtain ⟨c, rest, rfl, hc⟩ := hbody
  rw [readElements, htext]
  simp

theorem readElements_next (htext : skipBlank text = ',' :: tail) (htail : skipBlank tail = body)
    (hbody : StartsValue body) (index : Nat) (draft : σ) (f : Field σ) (fields : List (Field σ)) :
    r.readElements (index + 1) draft (f :: fields) text =
      (f.read draft body >>= fun p ↦ r.readElements (index + 2) p.1 fields p.2) := by
  obtain ⟨c, rest, rfl, hc⟩ := hbody
  rw [readElements, htext]
  simp [htail, hc]

theorem readElements_short (hshort : r.allowsShort = false) (htext : skipBlank text = ']' :: rest)
    (index : Nat) (draft : σ) (f : Field σ) (fields : List (Field σ)) :
    ∃ fault, r.readElements index draft (f :: fields) text = .error fault := by
  rw [readElements, htext]
  simp [hshort]

end Record

end DumpMode.Json
