import DumpMode.Editor.Registration
import Mathlib.Data.List.Forall2

/-!
# Paths that select a mode

A path selects a mode by the extension of its last component. To decide that, a path is cut at its
slashes and the last component at its last dot. Here the same is said of the path as it is written
(`Registration.GoesByExtension`): it has a front, which is empty or ends in a slash, then a name,
and behind the name nothing but slashes and single dots (`EndsIn`). What is cut at slashes is proved
about by `path_induction`, which takes the last piece first, as that decides unless it says nothing.

Letters are compared by `lowerByte`, which changes no slash and no dot; so the case of letters may
be taken away from the whole path before it is cut.
-/

namespace DumpMode.Editor

/-! ## Pieces between slashes -/

private theorem splitAt_eq_splitOn (separator : UInt8) (bytes : List UInt8) :
    splitAt separator bytes = bytes.splitOn separator := by
  induction bytes with
  | nil => rfl
  | cons b rest ih =>
    obtain ⟨piece, pieces, hrest⟩ :=
      List.exists_cons_of_ne_nil (List.splitOn_ne_nil separator rest)
    rw [splitAt, ih, List.splitOn_cons_eq_if_modifyHead, hrest]
    simp only [beq_iff_eq, List.modifyHead_cons]

/-- To prove something of every path, prove it of a piece without slashes, and of a path with such a
piece behind it of which it is known already. -/
private theorem path_induction {motive : List UInt8 → Prop}
    (piece : ∀ piece, slash ∉ piece → motive piece)
    (more : ∀ path piece, slash ∉ piece → motive path → motive (path ++ slash :: piece))
    (path : List UInt8) : motive path := by
  induction hlength : path.length using Nat.strongRecOn generalizing path with
  | ind n ih =>
    by_cases hmem : slash ∈ path
    · -- the last slash is the first one from behind
      obtain ⟨back, front, hpath, hback⟩ := List.eq_append_cons_of_mem (List.mem_reverse.mpr hmem)
      have hpath' : path = front.reverse ++ slash :: back.reverse := by
        rw [← List.reverse_reverse path, hpath]
        simp
      subst hpath'
      refine more _ _ (by simpa using hback) (ih _ ?_ _ rfl)
      rw [← hlength, List.length_append, List.length_cons]
      omega
    · exact piece path hmem

/-! ## Components -/

/-- Whether a piece of a path says something. -/
structure IsComponent (piece : List UInt8) : Prop where
  ne_nil : piece ≠ []
  ne_dot : piece ≠ [dot]
  slash_not_mem : slash ∉ piece

private theorem components_append_slash (front back : List UInt8) :
    components (front ++ slash :: back) = components front ++ components back := by
  simp only [components, splitAt_eq_splitOn, List.splitOn_eq_splitOnP]
  rw [List.splitOnP_append_cons _ _ (by simp), List.filter_append]

private theorem components_of_not_mem {piece : List UInt8} (h : slash ∉ piece) :
    components piece = [piece].filter fun c ↦ !c.isEmpty && c != [dot] := by
  rw [components, splitAt_eq_splitOn, List.splitOn_eq_singleton h]

private theorem IsComponent.components_eq {piece : List UInt8} (h : IsComponent piece) :
    components piece = [piece] := by
  simp [components_of_not_mem h.slash_not_mem, h.ne_nil, h.ne_dot]

/-- What says nothing at the end of a path: slashes, with or without a single dot behind them. -/
inductive Trailing : List UInt8 → Prop
  | nil : Trailing []
  | slash {tail : List UInt8} (h : Trailing tail) : Trailing (slash :: tail)
  | slashDot {tail : List UInt8} (h : Trailing tail) : Trailing (slash :: dot :: tail)

private theorem Trailing.append {front back : List UInt8} (hfront : Trailing front)
    (hback : Trailing back) : Trailing (front ++ back) := by
  induction hfront with
  | nil => exact hback
  | slash _ ih => exact ih.slash
  | slashDot _ ih => exact ih.slashDot

private theorem Trailing.components_append {tail : List UInt8} (h : Trailing tail)
    (path : List UInt8) : components (path ++ tail) = components path := by
  induction h generalizing path with
  | nil => rw [List.append_nil]
  | slash _ ih =>
    have hnil := ih []
    rw [List.nil_append] at hnil
    rw [components_append_slash, hnil]
    exact List.append_nil _
  | slashDot _ ih =>
    have hdot := ih [dot]
    rw [List.singleton_append] at hdot
    rw [components_append_slash, hdot]
    exact List.append_nil _

private theorem trailing_of_not_isComponent {piece : List UInt8} (hpiece : slash ∉ piece)
    (h : ¬IsComponent piece) : Trailing (slash :: piece) := by
  by_cases hnil : piece = []
  · exact hnil ▸ .slash .nil
  by_cases hdot : piece = [dot]
  · exact hdot ▸ .slashDot .nil
  · exact absurd ⟨hnil, hdot, hpiece⟩ h

/-- Whether a component is the last one of a path. In front of it the path is empty or ends in a
slash, and behind it the path says nothing. -/
def EndsIn (path name : List UInt8) : Prop :=
  IsComponent name ∧ ∃ front tail, path = front ++ (name ++ tail) ∧
    (front = [] ∨ ∃ directories, front = directories ++ [slash]) ∧ Trailing tail

private theorem EndsIn.append {path name tail : List UInt8} (h : EndsIn path name)
    (htail : Trailing tail) : EndsIn (path ++ tail) name := by
  obtain ⟨hname, front, tail', rfl, hfront, htail'⟩ := h
  exact ⟨hname, front, tail' ++ tail, by simp, hfront, htail'.append htail⟩

private theorem getLast?_components_eq_some_iff {path name : List UInt8} :
    (components path).getLast? = some name ↔ EndsIn path name := by
  constructor
  · intro h
    induction path using path_induction with
    | piece piece hpiece =>
      rw [components_of_not_mem hpiece] at h
      obtain ⟨hmem, hcomponent⟩ := List.mem_filter.mp (List.mem_of_getLast? h)
      obtain rfl := List.mem_singleton.mp hmem
      rw [Bool.and_eq_true, Bool.not_eq_true', List.isEmpty_eq_false_iff, bne_iff_ne] at hcomponent
      exact ⟨⟨hcomponent.1, hcomponent.2, hpiece⟩, [], [], by simp, .inl rfl, .nil⟩
    | more path piece hpiece ih =>
      by_cases hcomponent : IsComponent piece
      · -- the last piece counts, so it is the name
        rw [components_append_slash, hcomponent.components_eq, List.getLast?_concat] at h
        obtain rfl := Option.some.inj h
        exact ⟨hcomponent, path ++ [slash], [], by simp, .inr ⟨path, rfl⟩, .nil⟩
      · -- it does not, so the name is further in front
        have htail := trailing_of_not_isComponent hpiece hcomponent
        rw [htail.components_append] at h
        exact (ih h).append htail
  · rintro ⟨hname, front, tail, rfl, hfront, htail⟩
    rw [← List.append_assoc, htail.components_append]
    obtain rfl | ⟨directories, rfl⟩ := hfront
    · rw [List.nil_append, hname.components_eq]
      rfl
    · rw [List.append_assoc, List.singleton_append, components_append_slash, hname.components_eq,
        List.getLast?_concat]

private theorem fileName?_eq_some_iff {path name : List UInt8} :
    fileName? path = some name ↔ EndsIn path name ∧ name ≠ [dot, dot] := by
  rw [fileName?, Option.filter_eq_some_iff, getLast?_components_eq_some_iff, bne_iff_ne]

/-! ## Extensions -/

private theorem extensionOf?_append {stem ext : List UInt8} (hstem : stem ≠ []) (hext : dot ∉ ext) :
    extensionOf? (stem ++ dot :: ext) = some ext := by
  obtain ⟨s, rest, hcons⟩ := List.exists_cons_of_ne_nil (mt List.reverse_eq_nil_iff.mp hstem)
  have hpos : ∀ b ∈ ext.reverse, (b != dot) = true := by
    intro b hb
    exact bne_iff_ne.mpr (ne_of_mem_of_not_mem (List.mem_reverse.mp hb) hext)
  have hreverse : (stem ++ dot :: ext).reverse = ext.reverse ++ dot :: s :: rest := by
    rw [← hcons]
    simp
  rw [extensionOf?, hreverse, List.dropWhile_append_of_pos hpos, List.takeWhile_append_of_pos hpos]
  simp

/-- The extension of a name is what stands behind its last dot, if something stands before it. -/
private theorem extensionOf?_eq_some_iff {name ext : List UInt8} :
    extensionOf? name = some ext ↔
      ∃ stem, stem ≠ [] ∧ name = stem ++ dot :: ext ∧ dot ∉ ext := by
  constructor
  · intro h
    unfold extensionOf? at h
    split at h
    case h_1 => cases h
    case h_2 => cases h
    case h_3 d s rest hdrop =>
      have hext : (name.reverse.takeWhile (· != dot)).reverse = ext := Option.some.inj h
      have hd : d = dot := by
        have hnot := List.head?_dropWhile_not (· != dot) name.reverse
        rw [hdrop] at hnot
        exact bne_eq_false_iff_eq.mp hnot
      -- the reversed name is the extension, the dot that stopped it, and the rest
      have hname : name = (s :: rest).reverse ++ dot :: ext :=
        calc name
          _ = (name.reverse.takeWhile (· != dot) ++ name.reverse.dropWhile (· != dot)).reverse := by
            rw [List.takeWhile_append_dropWhile, List.reverse_reverse]
          _ = (s :: rest).reverse ++ dot :: ext := by
            rw [hdrop, hd, List.reverse_append, hext, List.reverse_cons, List.append_assoc]
            rfl
      refine ⟨(s :: rest).reverse, by simp, hname, ?_⟩
      intro hmem
      rw [← hext, List.mem_reverse] at hmem
      have hall := List.all_eq_true.mp (List.all_takeWhile (l := name.reverse)) dot hmem
      exact absurd hall (by decide)
  · rintro ⟨stem, hstem, rfl, hext⟩
    exact extensionOf?_append hstem hext

private theorem extension?_eq_some_iff {path ext : List UInt8} :
    extension? path = some ext ↔ ∃ name, EndsIn path name ∧ name ≠ [dot, dot] ∧
      ∃ stem, stem ≠ [] ∧ name = stem ++ dot :: ext ∧ dot ∉ ext := by
  simp only [extension?, Option.bind_eq_some_iff, fileName?_eq_some_iff, extensionOf?_eq_some_iff,
    and_assoc]

private theorem extension?_eq_none_of_dot {path name : List UInt8} (h : EndsIn path (dot :: name))
    (hname : dot ∉ name) : extension? path = none := by
  rw [Option.eq_none_iff_forall_not_mem]
  intro ext hext
  obtain ⟨name', hname', -, stem, hstem, rfl, -⟩ := extension?_eq_some_iff.mp hext
  have hsame : stem ++ dot :: ext = dot :: name := by
    rw [← getLast?_components_eq_some_iff] at h hname'
    exact Option.some.inj (hname'.symm.trans h)
  obtain ⟨b, rest, rfl⟩ := List.exists_cons_of_ne_nil hstem
  obtain ⟨rfl, hrest⟩ := List.cons.inj hsame
  exact hname (hrest ▸ by simp)

/-! ## The case of letters -/

def IsCapitalOf (a b : UInt8) : Prop := 65 ≤ a.toNat ∧ a.toNat ≤ 90 ∧ b.toNat = a.toNat + 32

/-- Whether two sequences of bytes are the same but for the case of ASCII letters. -/
def SameLetters : List UInt8 → List UInt8 → Prop :=
  List.Forall₂ fun a b ↦ a = b ∨ IsCapitalOf a b ∨ IsCapitalOf b a

private theorem toNat_lowerByte (b : UInt8) :
    (lowerByte b).toNat = if 65 ≤ b.toNat ∧ b.toNat ≤ 90 then b.toNat + 32 else b.toNat := by
  have hcapital : 65 ≤ b ∧ b ≤ 90 ↔ 65 ≤ b.toNat ∧ b.toNat ≤ 90 := Iff.rfl
  by_cases hb : 65 ≤ b ∧ b ≤ 90
  · have hadd : (b + 32).toNat = (b.toNat + 32) % 256 := UInt8.toNat_add b 32
    have hle := hcapital.mp hb
    rw [lowerByte, if_pos hb, if_pos hle, hadd]
    omega
  · rw [lowerByte, if_neg hb, if_neg (mt hcapital.mpr hb)]

private theorem lowerByte_lowerByte (b : UInt8) : lowerByte (lowerByte b) = lowerByte b := by
  have hb := toNat_lowerByte b
  rw [← UInt8.toNat_inj, toNat_lowerByte (lowerByte b)]
  split at hb <;> split <;> omega

private theorem lowerByte_eq_lowerByte_iff {a b : UInt8} :
    lowerByte a = lowerByte b ↔ a = b ∨ IsCapitalOf a b ∨ IsCapitalOf b a := by
  rw [IsCapitalOf, IsCapitalOf, ← UInt8.toNat_inj, ← UInt8.toNat_inj, toNat_lowerByte,
    toNat_lowerByte]
  split <;> split <;> omega

private theorem map_lowerByte_eq_iff {as bs : List UInt8} :
    as.map lowerByte = bs.map lowerByte ↔ SameLetters as bs := by
  rw [← List.forall₂_eq_eq_eq, List.forall₂_map_left_iff, List.forall₂_map_right_iff]
  simp only [lowerByte_eq_lowerByte_iff]
  rfl

private theorem lowerByte_eq_iff_of_lt {b c : UInt8} (hc : c.toNat < 65) :
    lowerByte b = c ↔ b = c := by
  rw [← UInt8.toNat_inj, ← UInt8.toNat_inj, toNat_lowerByte]
  split <;> omega

private theorem lowerByte_eq_slash_iff {b : UInt8} : lowerByte b = slash ↔ b = slash :=
  lowerByte_eq_iff_of_lt (by decide)

private theorem lowerByte_eq_dot_iff {b : UInt8} : lowerByte b = dot ↔ b = dot :=
  lowerByte_eq_iff_of_lt (by decide)

private theorem splitAt_map_lowerByte (path : List UInt8) :
    splitAt slash (path.map lowerByte) = (splitAt slash path).map (List.map lowerByte) := by
  induction path with
  | nil => rfl
  | cons b rest ih =>
    rw [List.map_cons, splitAt, splitAt, ih]
    cases splitAt slash rest with
    | nil => rfl
    | cons piece pieces =>
      simp only [List.map_cons, lowerByte_eq_slash_iff]
      split <;> rfl

private theorem map_lowerByte_bne_replicate_dot (n : Nat) (piece : List UInt8) :
    (piece.map lowerByte != List.replicate n dot) = (piece != List.replicate n dot) := by
  rw [Bool.eq_iff_iff, bne_iff_ne, bne_iff_ne, not_iff_not]
  simp [List.eq_replicate_iff, lowerByte_eq_dot_iff]

private theorem components_map_lowerByte (path : List UInt8) :
    components (path.map lowerByte) = (components path).map (List.map lowerByte) := by
  rw [components, splitAt_map_lowerByte, List.filter_map, components]
  refine congrArg _ (List.filter_congr fun piece _ ↦ ?_)
  rw [Function.comp_apply, List.isEmpty_map]
  exact congrArg (!piece.isEmpty && ·) (map_lowerByte_bne_replicate_dot 1 piece)

private theorem fileName?_map_lowerByte (path : List UInt8) :
    fileName? (path.map lowerByte) = (fileName? path).map (List.map lowerByte) := by
  rw [fileName?, components_map_lowerByte, List.getLast?_map, fileName?, Option.filter_map]
  refine congrArg _ (congrArg (Option.filter · _) (funext fun piece ↦ ?_))
  exact map_lowerByte_bne_replicate_dot 2 piece

private theorem extensionOf?_map_lowerByte (name : List UInt8) :
    extensionOf? (name.map lowerByte) = (extensionOf? name).map (List.map lowerByte) := by
  have hdot : (· != dot) ∘ lowerByte = (· != dot) := by
    funext b
    rw [Function.comp_apply, Bool.eq_iff_iff, bne_iff_ne, bne_iff_ne, not_iff_not]
    exact lowerByte_eq_dot_iff
  rw [extensionOf?, ← List.map_reverse, List.dropWhile_map, List.takeWhile_map, hdot,
    ← List.map_reverse, extensionOf?]
  rcases name.reverse.dropWhile (· != dot) with - | ⟨b, - | ⟨c, rest⟩⟩ <;> rfl

private theorem extension?_map_lowerByte (path : List UInt8) :
    extension? (path.map lowerByte) = (extension? path).map (List.map lowerByte) := by
  rw [extension?, fileName?_map_lowerByte, Option.bind_map, extension?, Option.map_bind]
  exact congrArg _ (funext extensionOf?_map_lowerByte)

/-! ## What selects a mode -/

/-- Whether a path selects a mode exactly by the extension of the name that it ends in, which is one
of some known ones. -/
structure Registration.GoesByExtension (r : Registration) (known : List String) : Prop where
  /-- The path ends in a name, not in the step to a parent, and the name has something in front of
  its last dot and one of the extensions behind it, in letters of any case. -/
  matchesPath_iff : ∀ path, r.matchesPath path = true ↔
    ∃ name, EndsIn path name ∧ name ≠ [dot, dot] ∧
      ∃ stem ext, stem ≠ [] ∧ name = stem ++ dot :: ext ∧ dot ∉ ext ∧
        ∃ e ∈ known, SameLetters e.toUTF8.toList ext
  /-- If the path ends in a component, directories in front of it do not matter. -/
  matchesPath_append_slash_append : ∀ directories path name, EndsIn path name →
    r.matchesPath (directories ++ slash :: path) = r.matchesPath path
  /-- The case of letters does not matter, in the extension or elsewhere. -/
  matchesPath_eq_of_sameLetters : ∀ path path', SameLetters path path' →
    r.matchesPath path = r.matchesPath path'
  /-- A slash behind the path does not matter, nor does one with a single dot. -/
  matchesPath_append_slash : ∀ path, r.matchesPath (path ++ [slash]) = r.matchesPath path
  matchesPath_append_slash_dot : ∀ path, r.matchesPath (path ++ [slash, dot]) = r.matchesPath path
  /-- A dot in front of a name does not make the name an extension. -/
  matchesPath_of_dot_file : ∀ path name, EndsIn path (dot :: name) → dot ∉ name →
    r.matchesPath path = false

namespace Registration

variable (r : Registration) {path path' : List UInt8}

private theorem matchesPath_eq_true_iff : r.matchesPath path = true ↔
    ∃ ext, extension? path = some ext ∧ ∃ e ∈ r.extensions, SameLetters e.toUTF8.toList ext := by
  simp only [matchesPath, Option.any_eq_true, List.any_eq_true, beq_iff_eq, map_lowerByte_eq_iff]

/-- All that matters of a path is its last component. -/
private theorem matchesPath_congr (h : (components path).getLast? = (components path').getLast?) :
    r.matchesPath path = r.matchesPath path' := by
  rw [matchesPath, matchesPath, extension?, extension?, fileName?, fileName?, h]

private theorem matchesPath_append_trailing {tail : List UInt8} (htail : Trailing tail) :
    r.matchesPath (path ++ tail) = r.matchesPath path :=
  r.matchesPath_congr (congrArg _ (htail.components_append path))

private theorem matchesPath_behind {name : List UInt8} (h : EndsIn path name)
    (directories : List UInt8) :
    r.matchesPath (directories ++ slash :: path) = r.matchesPath path := by
  apply matchesPath_congr
  rw [components_append_slash, List.getLast?_append, getLast?_components_eq_some_iff.mpr h,
    Option.some_or]

private theorem matchesPath_map_lowerByte (path : List UInt8) :
    r.matchesPath (path.map lowerByte) = r.matchesPath path := by
  rw [matchesPath, extension?_map_lowerByte, Option.any_map]
  simp only [Function.comp_def, List.map_map, lowerByte_lowerByte]
  rfl

private theorem matchesPath_of_sameLetters (h : SameLetters path path') :
    r.matchesPath path = r.matchesPath path' := by
  rw [← matchesPath_map_lowerByte, map_lowerByte_eq_iff.mpr h, matchesPath_map_lowerByte]

/-- **A path selects the mode by its extension alone**, whatever bytes it is made of. -/
theorem goesByExtension_dump : dump.GoesByExtension ["h5dump", "ddl"] where
  matchesPath_iff path := by
    rw [matchesPath_eq_true_iff]
    simp only [extension?_eq_some_iff]
    constructor
    · rintro ⟨ext, ⟨name, hends, hname, stem, hstem, hdot, hext⟩, hknown⟩
      exact ⟨name, hends, hname, stem, ext, hstem, hdot, hext, hknown⟩
    · rintro ⟨name, hends, hname, stem, ext, hstem, hdot, hext, hknown⟩
      exact ⟨ext, ⟨name, hends, hname, stem, hstem, hdot, hext⟩, hknown⟩
  matchesPath_append_slash_append directories path name hends :=
    dump.matchesPath_behind hends directories
  matchesPath_eq_of_sameLetters path path' h := dump.matchesPath_of_sameLetters h
  matchesPath_append_slash path := dump.matchesPath_append_trailing (.slash .nil)
  matchesPath_append_slash_dot path := dump.matchesPath_append_trailing (.slashDot .nil)
  matchesPath_of_dot_file path name hends hname := by
    rw [matchesPath, extension?_eq_none_of_dot hends hname]
    rfl

/-- A name with several dots, and behind it what says nothing; and a name with a dot in front. -/
example : dump.matchesPath "../..v1.DDL/.//".toUTF8.toList = true ∧
    dump.matchesPath "/tmp/.ddl".toUTF8.toList = false := by decide +kernel

end Registration

end DumpMode.Editor
