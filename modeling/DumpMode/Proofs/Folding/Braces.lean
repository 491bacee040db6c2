import DumpMode.Proofs.Folding.Quotation

/-!
# The braces a reading passes

A reading collects the braces it passes, latest first, together with all else that it has to
remember. Here the braces of a text are taken out of it: `Reading.bracesAhead` lists, in order,
those that a reading will pass, and every fact about the braces of a text is an induction over it.

Offsets and depths are kept apart. Which braces there are depends on the quoting and the offset
alone (`exists_mem_bracesAhead_iff`), and depths can be counted afresh from any level without
another look at the text (`bracesAhead_eq_relevel`). That is what lets a text be cut in two: the
back half is read as if it stood alone, moved by the length of the front half, and counted from
the level it ends on.
-/

namespace DumpMode.Folding

/-! ## Braces of a text, by place -/

def braceChar (opens : Bool) : Char := if opens then '\x7b' else '\x7d'

/-- Whether a brace stands at an offset of a text; with `skipQuoted`, one that is in a quoted
string does not count. -/
def BraceAt (skipQuoted : Bool) (text : Text) (opens : Bool) (offset : Nat) : Prop :=
  ∃ front back : Text, text = front ++ braceChar opens :: back ∧ front.byteLength = offset ∧
    (skipQuoted = true → EndsOutside front)

/-! ## Levels -/

/-- The number of braces open behind a brace, from the number of those open before it. -/
def levelBehind (opens : Bool) (level : Nat) : Nat := if opens then level + 1 else level - 1

@[simp] theorem levelBehind_true (level : Nat) : levelBehind true level = level + 1 := rfl

@[simp] theorem levelBehind_false (level : Nat) : levelBehind false level = level - 1 := rfl

/-- The braces with their depths counted from a level. -/
def relevel : Nat → List Brace → List Brace
  | _, [] => []
  | level, b :: bs => { b with depth := level } :: relevel (levelBehind b.opens level) bs

def levelAfter : Nat → List Brace → Nat
  | level, [] => level
  | level, b :: bs => levelAfter (levelBehind b.opens level) bs

private theorem relevel_append (level : Nat) (bs cs : List Brace) :
    relevel level (bs ++ cs) = relevel level bs ++ relevel (levelAfter level bs) cs := by
  induction bs generalizing level with
  | nil => rfl
  | cons b bs ih => rw [List.cons_append, relevel, relevel, levelAfter, ih, List.cons_append]

/-- The brace in a text that has `size` more bytes before it. -/
def Brace.moved (size : Nat) (b : Brace) : Brace := { b with offset := size + b.offset }

/-! ## What a reading passes -/

/-- Which way a character opens as a brace, if it is one and counts as such. -/
def Quoting.opens? (skipQuoted : Bool) (q : Quoting) (c : Char) : Option Bool :=
  if skipQuoted && q.covers c then none
  else if c = '\x7b' then some true
  else if c = '\x7d' then some false
  else none

private theorem Quoting.opens?_eq_some_iff {skipQuoted : Bool} {q : Quoting} {c : Char}
    {opens : Bool} :
    q.opens? skipQuoted c = some opens ↔
      c = braceChar opens ∧ (skipQuoted = true → q = .outside) := by
  -- a brace is no quote, so it is covered wherever the place is not outside
  have hcovers : ∀ o, q.covers (braceChar o) = true ↔ q ≠ .outside := by
    intro o
    cases o <;> simp [covers, braceChar]
  unfold opens?
  constructor
  · intro h
    split at h
    · cases h
    rename_i hcover
    have hc : c = braceChar opens := by
      split at h
      · cases h
        assumption
      · split at h
        · cases h
          assumption
        · cases h
    subst hc
    refine ⟨rfl, fun hskip ↦ ?_⟩
    rw [hskip, Bool.true_and, hcovers] at hcover
    exact Classical.not_not.mp hcover
  · rintro ⟨rfl, hq⟩
    have hcover : ¬(skipQuoted && q.covers (braceChar opens)) = true := by
      rw [Bool.and_eq_true, hcovers]
      exact fun ⟨hskip, hne⟩ ↦ hne (hq hskip)
    rw [if_neg hcover]
    cases opens <;> rfl

namespace Reading

variable {skipQuoted : Bool}

/-- The braces that a reading passes in a text, in order. -/
def bracesAhead (skipQuoted : Bool) (r : Reading) : Text → List Brace
  | [] => []
  | c :: rest =>
    ((r.quoting.opens? skipQuoted c).map fun opens ↦ ⟨r.offset, opens, r.depth⟩).toList ++
      (r.step skipQuoted c).bracesAhead skipQuoted rest

/-- **What a step does**: the place moves on by a character, the quoting as far as it matters, and
the level by the brace that is passed. -/
theorem step_eq (r : Reading) (c : Char) :
    r.step skipQuoted c =
      { quoting := if skipQuoted then r.quoting.after c else r.quoting
        offset := r.offset + c.utf8Size
        depth := (r.quoting.opens? skipQuoted c).elim r.depth (levelBehind · r.depth)
        passed := ((r.quoting.opens? skipQuoted c).map
          fun opens ↦ ⟨r.offset, opens, r.depth⟩).toList ++ r.passed } := by
  rw [step, Quoting.opens?]
  cases skipQuoted && r.quoting.covers c with
  | true => rfl
  | false =>
    rw [look]
    by_cases hopen : c = '\x7b'
    · simp [hopen, passOpening]
    by_cases hclose : c = '\x7d'
    · simp [hclose, passClosing]
    · simp [hopen, hclose]

/-- **What a whole reading does**: it moves to the end of the text, through the quoting of the
text, and past the braces ahead. -/
theorem read_eq (r : Reading) (text : Text) :
    r.read skipQuoted text =
      { quoting := if skipQuoted then r.quoting.afterText text else r.quoting
        offset := r.offset + text.byteLength
        depth := levelAfter r.depth (r.bracesAhead skipQuoted text)
        passed := (r.bracesAhead skipQuoted text).reverse ++ r.passed } := by
  induction text generalizing r with
  | nil => simp [bracesAhead, levelAfter]
  | cons c text ih =>
    rw [read_cons, ih, bracesAhead, step_eq]
    cases skipQuoted <;> cases r.quoting.opens? _ c <;> simp [levelAfter, Nat.add_assoc]

/-- **Depths are counted as the braces come**, and the text before a place matters for them only
by its length and the level it ends on. -/
theorem bracesAhead_eq_relevel (r r' : Reading) {size : Nat}
    (hquoting : skipQuoted = true → r'.quoting = r.quoting)
    (hoffset : r'.offset = size + r.offset) (text : Text) :
    r'.bracesAhead skipQuoted text
      = relevel r'.depth ((r.bracesAhead skipQuoted text).map (Brace.moved size)) := by
  induction text generalizing r r' with
  | nil => rfl
  | cons c text ih =>
    have hopens : r'.quoting.opens? skipQuoted c = r.quoting.opens? skipQuoted c := by
      cases hskip : skipQuoted with
      | false => rfl
      | true => rw [hquoting hskip]
    have hrest := ih (r.step skipQuoted c) (r'.step skipQuoted c)
      (fun hskip ↦ by simp [step_eq, hskip, hquoting hskip])
      (by simp [step_eq, hoffset, Nat.add_assoc])
    rw [bracesAhead, bracesAhead, hrest, List.map_append, relevel_append, hopens]
    have hdepth : (r'.step skipQuoted c).depth
        = (r.quoting.opens? skipQuoted c).elim r'.depth (levelBehind · r'.depth) := by
      rw [step_eq, hopens]
    rw [hdepth]
    cases r.quoting.opens? skipQuoted c with
    | none => rfl
    | some opens => simp [relevel, levelAfter, Brace.moved, hoffset]

theorem bracesAhead_append (r : Reading) (front back : Text) :
    r.bracesAhead skipQuoted (front ++ back)
      = r.bracesAhead skipQuoted front
        ++ (r.read skipQuoted front).bracesAhead skipQuoted back := by
  induction front generalizing r with
  | nil => rfl
  | cons c front ih =>
    rw [List.cons_append, bracesAhead, bracesAhead, read_cons, ih, List.append_assoc]

/-! ## Which braces there are -/

private theorem exists_mem_bracesAhead_iff {r : Reading} {text : Text} {opens : Bool}
    {offset : Nat} :
    (∃ b ∈ r.bracesAhead skipQuoted text, b.opens = opens ∧ b.offset = offset) ↔
      ∃ front back : Text, text = front ++ braceChar opens :: back ∧
        r.offset + front.byteLength = offset ∧
          (skipQuoted = true → r.quoting.afterText front = .outside) := by
  induction text generalizing r with
  | nil => simp [bracesAhead]
  | cons c text ih =>
    simp only [bracesAhead, List.mem_append, or_and_right, exists_or, ih]
    constructor
    · rintro (⟨b, hb, rfl, rfl⟩ | ⟨front, back, rfl, rfl, hquoting⟩)
      · obtain ⟨opens, hopens, rfl⟩ := Option.map_eq_some_iff.mp (Option.mem_toList.mp hb)
        obtain ⟨rfl, hquoting⟩ := Quoting.opens?_eq_some_iff.mp hopens
        exact ⟨[], text, rfl, rfl, hquoting⟩
      · refine ⟨c :: front, back, rfl, ?_, fun hskip ↦ ?_⟩
        · rw [step_eq, Text.byteLength_cons, Nat.add_assoc]
        · have := hquoting hskip
          rwa [step_eq, hskip] at this
    · rintro ⟨front, back, htext, rfl, hquoting⟩
      cases front with
      | nil =>
        obtain ⟨rfl, rfl⟩ := List.cons.inj htext
        have hopens : r.quoting.opens? skipQuoted (braceChar opens) = some opens :=
          Quoting.opens?_eq_some_iff.mpr ⟨rfl, hquoting⟩
        exact Or.inl ⟨⟨r.offset, opens, r.depth⟩, by simp [hopens], rfl, rfl⟩
      | cons d front =>
        obtain ⟨rfl, rfl⟩ := List.cons.inj htext
        refine Or.inr ⟨front, back, rfl, ?_, fun hskip ↦ ?_⟩
        · rw [step_eq, Text.byteLength_cons, Nat.add_assoc]
        · rw [step_eq, hskip]
          exact hquoting hskip

theorem offset_le_of_mem_bracesAhead {r : Reading} {text : Text} {b : Brace}
    (h : b ∈ r.bracesAhead skipQuoted text) : r.offset ≤ b.offset := by
  obtain ⟨front, -, -, hoffset, -⟩ := exists_mem_bracesAhead_iff.mp ⟨b, h, rfl, rfl⟩
  omega

private theorem pairwise_bracesAhead (r : Reading) (text : Text) :
    (r.bracesAhead skipQuoted text).Pairwise fun b c ↦ b.offset < c.offset := by
  induction text generalizing r with
  | nil => exact List.Pairwise.nil
  | cons c text ih =>
    rw [bracesAhead, List.pairwise_append]
    refine ⟨?_, ih _, fun b hb b' hb' ↦ ?_⟩
    · cases r.quoting.opens? skipQuoted c <;> simp
    · obtain ⟨opens, -, rfl⟩ := Option.map_eq_some_iff.mp (Option.mem_toList.mp hb)
      have hle := offset_le_of_mem_bracesAhead hb'
      have hpos := c.utf8Size_pos
      rw [step_eq] at hle
      simp only at hle ⊢
      omega

end Reading

/-! ## The braces of a text -/

variable {skipQuoted : Bool} {text : Text}

theorem braces_eq (skipQuoted : Bool) (text : Text) :
    braces skipQuoted text = Reading.start.bracesAhead skipQuoted text := by
  rw [braces, Reading.read_eq, List.reverse_append, List.reverse_reverse]
  rfl

/-- **The braces of a text are those that stand in it and count.** -/
theorem exists_mem_braces_iff {opens : Bool} {offset : Nat} :
    (∃ b ∈ braces skipQuoted text, b.opens = opens ∧ b.offset = offset) ↔
      BraceAt skipQuoted text opens offset := by
  rw [braces_eq, Reading.exists_mem_bracesAhead_iff]
  simp [BraceAt, Reading.start, endsOutside_iff]

instance (opens : Bool) : DecidablePred (BraceAt skipQuoted text opens) :=
  fun _ ↦ decidable_of_iff _ exists_mem_braces_iff

theorem pairwise_braces (skipQuoted : Bool) (text : Text) :
    (braces skipQuoted text).Pairwise fun b c ↦ b.offset < c.offset := by
  rw [braces_eq]
  exact Reading.pairwise_bracesAhead _ _

theorem relevel_braces (skipQuoted : Bool) (text : Text) :
    relevel 0 (braces skipQuoted text) = braces skipQuoted text := by
  -- a text stands behind the empty one, moved by nothing
  have hmoved : Brace.moved 0 = id := by
    funext b
    rw [Brace.moved, Nat.zero_add]
    rfl
  have hbraces : braces skipQuoted text
      = relevel 0 ((braces skipQuoted text).map (Brace.moved 0)) := by
    rw [braces_eq]
    exact Reading.bracesAhead_eq_relevel .start .start (fun _ ↦ rfl) rfl text
  rw [hmoved, List.map_id] at hbraces
  exact hbraces.symm

/-- **The braces of two texts, one behind the other**, if the first one ends outside of strings:
those of the second are moved, and counted from the level on which the first one ends. -/
theorem braces_append {front : Text} (h : skipQuoted = true → EndsOutside front) (back : Text) :
    braces skipQuoted (front ++ back) = braces skipQuoted front ++
      relevel (levelAfter 0 (braces skipQuoted front))
        ((braces skipQuoted back).map (Brace.moved front.byteLength)) := by
  have hread : Reading.start.read skipQuoted front = _ := Reading.read_eq .start front
  have hquoting : skipQuoted = true →
      (Reading.start.read skipQuoted front).quoting = Reading.start.quoting := by
    rw [hread]
    rintro rfl
    exact endsOutside_iff.mp (h rfl)
  have hoffset : (Reading.start.read skipQuoted front).offset
      = front.byteLength + Reading.start.offset := by
    rw [hread]
    exact Nat.add_comm _ _
  have hback := Reading.bracesAhead_eq_relevel _ _ hquoting hoffset back
  rw [braces_eq, Reading.bracesAhead_append, hback, hread, ← braces_eq, ← braces_eq]
  rfl

end DumpMode.Folding
