import DumpMode.Document.Decode
import DumpMode.Document.Spelling
import DumpMode.Proofs.Json.Drafts

/-!
# Snapshots are read from all their spellings

Tags, regions and snapshots are records, each given by its slots. That these are apart and read what
they should is all there is to show for each record; what its draft is made into (`finish_tag`,
`finish_region`, `finish_snapshot`) then turns what the slots make of a tree into what the tree
spells. So reading and spelling are the same relation, and a flawed snapshot is not read because it
spells nothing.
-/

namespace DumpMode.Document

open Json (Apart Decodes Fills Has Makes Named Padded Slot SpellsList SpellsName SpellsOptional
  Stores Tree decodes_choice decodes_list decodes_natural decodes_optional decodes_record valuesOf)

/-! ## Offsets and classes -/

private theorem decodes_offset :
    Decodes readOffset SpellsOffset := decodes_natural (Nat.le_refl _) _

private theorem choose_choicesOf {α : Type} {all : List α} {name : α → String} {a : α}
    (h : Document.choose (choicesOf all name) (name a).toList = .ok a) (s : Text) :
    Json.choose (choicesOf all name) s = .ok a ↔ s = (name a).toList := by
  constructor
  · intro hs
    rw [Json.choose, Document.choose] at hs
    split at hs
    · rename_i b heq
      cases hs
      obtain ⟨c, -, hc⟩ := List.mem_map.mp (List.mem_of_find?_eq_some heq)
      obtain ⟨rfl, rfl⟩ := Prod.mk.inj hc
      have hname := List.find?_some heq
      exact (beq_iff_eq.mp hname).symm
    · cases hs
  · rintro rfl
    rw [Json.choose, h]
    rfl

private theorem decodes_class : Decodes readClass SpellsClass := by
  refine (decodes_choice _).of_iff fun t c ↦ ?_
  have hself : Document.choose (choicesOf WordClass.all WordClass.name) c.name.toList = .ok c := by
    cases c <;> rfl
  simp only [choose_choicesOf hself, exists_eq_right, SpellsClass]

private theorem require_eq_ok_iff {α : Type} {name : String} {o : Option α} {a : α} :
    require name o = .ok a ↔ o = some a := by
  cases o <;> simp [require]

/-! ## Tags -/

def tagSlots : List (Slot TagDraft) :=
  [⟨"start", readOffset, SpellsOffset, (·.start), fun d n ↦ { d with start := some n }⟩,
   ⟨"end", readOffset, SpellsOffset, (·.stop), fun d n ↦ { d with stop := some n }⟩,
   ⟨"class", readClass, SpellsClass, (·.wordClass), fun d c ↦ { d with wordClass := some c }⟩]

private theorem apart_tagSlots : Apart tagSlots where
  decodes := by simp [tagSlots, decodes_offset, decodes_class]
  nodup := by decide
  get_set := by simp [tagSlots]
  get_set_of_ne := by simp [tagSlots]
  ext := by
    rintro ⟨⟩ ⟨⟩
    simp [tagSlots]

private theorem finish_tag {last : TagDraft} {tag : Tag} : tagRecord.finish last = .ok tag ↔
    last = ⟨some tag.start, some tag.stop, some tag.wordClass⟩ := by
  obtain ⟨start, stop, wordClass⟩ := last
  obtain ⟨start', stop', wordClass'⟩ := tag
  simp only [tagRecord, bind_eq_ok_iff, require_eq_ok_iff, TagDraft.mk.injEq]
  constructor
  · rintro ⟨a, rfl, b, rfl, c, rfl, h⟩
    cases h
    exact ⟨rfl, rfl, rfl⟩
  · rintro ⟨rfl, rfl, rfl⟩
    exact ⟨_, rfl, _, rfl, _, rfl, rfl⟩

private theorem makes_tag (t : Tree) (tag : Tag) :
    Makes tagRecord tagSlots t tag ↔ SpellsTag t tag := by
  cases t with
  | object gap members =>
    simp only [Makes, finish_tag, exists_eq_right, SpellsTag]
    refine and_congr_right fun _ ↦ ?_
    simp only [tagSlots, tagRecord, List.forall_mem_cons]
    rw [Slot.takes_none_some "start", Slot.takes_none_some "end", Slot.takes_none_some "class"]
    simp
  | array gap items =>
    simp only [Makes, finish_tag, exists_eq_right]
    rcases items with _ | ⟨x, _ | ⟨y, _ | ⟨z, _ | ⟨w, items⟩⟩⟩⟩ <;>
      simp [Stores, tagSlots, SpellsTag, tagRecord]
  | null => rfl
  | boolean b => rfl
  | number n => rfl
  | string letters => rfl

private theorem decodes_tag : Decodes tagRecord.read SpellsTag :=
  (decodes_record rfl apart_tagSlots rfl).of_iff makes_tag

/-! ## Regions -/

private theorem decodes_closing :
    Decodes (Json.readOptional readOffset) (SpellsOptional SpellsOffset) :=
  decodes_optional decodes_offset fun _ h ↦ nomatch h.1

def regionSlots : List (Slot RegionDraft) :=
  [⟨"open", readOffset, SpellsOffset, (·.opening), fun d n ↦ { d with opening := some n }⟩,
   ⟨"close", Json.readOptional readOffset, SpellsOptional SpellsOffset, (·.closing),
     fun d n ↦ { d with closing := some n }⟩,
   ⟨"depth", readOffset, SpellsOffset, (·.depth), fun d n ↦ { d with depth := some n }⟩]

private theorem apart_regionSlots : Apart regionSlots where
  decodes := by simp [regionSlots, decodes_offset, decodes_closing]
  nodup := by decide
  get_set := by simp [regionSlots]
  get_set_of_ne := by simp [regionSlots]
  ext := by
    rintro ⟨⟩ ⟨⟩
    simp [regionSlots]

private theorem finish_region {last : RegionDraft} {region : Folding.Region} :
    regionRecord.finish last = .ok region ↔
      ∃ closing : Option (Option Nat), closing.getD none = region.closing ∧
        last = ⟨some region.opening, closing, some region.depth⟩ := by
  obtain ⟨opening, closing, depth⟩ := last
  obtain ⟨opening', closing', depth'⟩ := region
  simp only [regionRecord, bind_eq_ok_iff, require_eq_ok_iff, RegionDraft.mk.injEq]
  constructor
  · rintro ⟨a, rfl, c, rfl, h⟩
    cases h
    exact ⟨closing, rfl, rfl, rfl, rfl⟩
  · rintro ⟨_, rfl, rfl, rfl, rfl⟩
    exact ⟨_, rfl, _, rfl, rfl⟩

private theorem makes_region (t : Tree) (region : Folding.Region) :
    Makes regionRecord regionSlots t region ↔ SpellsRegion t region := by
  cases t with
  | object gap members =>
    -- whether there is a member for the closing brace decides what its slot takes
    have hslots : ∀ closing : Option (Option Nat),
        Fills regionSlots members regionRecord.blank
            ⟨some region.opening, closing, some region.depth⟩ ↔
          Named members ∧ Has members "open" SpellsOffset region.opening ∧
            closing.elim (valuesOf members "close" = [])
              (Has members "close" (SpellsOptional SpellsOffset)) ∧
            Has members "depth" SpellsOffset region.depth := by
      intro closing
      refine and_congr_right fun _ ↦ ?_
      simp only [regionSlots, regionRecord, List.forall_mem_cons]
      rw [Slot.takes_none_some "open", Slot.takes_none_some "depth"]
      cases closing with
      | none =>
        rw [Slot.takes_none_none "close"]
        simp
      | some closing =>
        rw [Slot.takes_none_some "close"]
        simp
    simp only [Makes, finish_region, SpellsRegion]
    constructor
    · rintro ⟨_, hfills, closing, hclosing, rfl⟩
      obtain ⟨hnamed, hopen, hclose, hdepth⟩ := (hslots closing).mp hfills
      refine ⟨hnamed, hopen, ?_, hdepth⟩
      cases closing with
      | none => exact Or.inl ⟨hclose, hclosing.symm⟩
      | some closing =>
        cases hclosing
        exact Or.inr hclose
    · rintro ⟨hnamed, hopen, ⟨hnone, hclosing⟩ | hclose, hdepth⟩
      · exact ⟨_, (hslots none).mpr ⟨hnamed, hopen, hnone, hdepth⟩, none, hclosing.symm, rfl⟩
      · exact ⟨_, (hslots (some _)).mpr ⟨hnamed, hopen, hclose, hdepth⟩, some _, rfl, rfl⟩
  | array gap items =>
    simp only [Makes, finish_region]
    -- an array has the fields in order, so there are three items and no more
    rcases items with _ | ⟨x, _ | ⟨y, _ | ⟨z, _ | ⟨w, items⟩⟩⟩⟩ <;>
      simp [Stores, regionSlots, SpellsRegion, regionRecord]
  | null => simp [Makes, SpellsRegion]
  | boolean b => simp [Makes, SpellsRegion]
  | number n => simp [Makes, SpellsRegion]
  | string letters => simp [Makes, SpellsRegion]

private theorem decodes_region : Decodes regionRecord.read SpellsRegion :=
  (decodes_record rfl apart_regionSlots rfl).of_iff makes_region

/-! ## Snapshots -/

def snapshotSlots : List (Slot SnapshotDraft) :=
  [⟨"tags", Json.readList tagRecord.read, SpellsList SpellsTag, (·.tags),
     fun d ts ↦ { d with tags := some ts }⟩,
   ⟨"folds", Json.readList regionRecord.read, SpellsList SpellsRegion, (·.folds),
     fun d rs ↦ { d with folds := some rs }⟩,
   ⟨"unbalanced", Json.readList readOffset, SpellsList SpellsOffset, (·.unbalanced),
     fun d ns ↦ { d with unbalanced := some ns }⟩]

private theorem apart_snapshotSlots : Apart snapshotSlots where
  decodes := by
    simp [snapshotSlots, decodes_list decodes_tag, decodes_list decodes_region,
      decodes_list decodes_offset]
  nodup := by decide
  get_set := by simp [snapshotSlots]
  get_set_of_ne := by simp [snapshotSlots]
  ext := by
    rintro ⟨⟩ ⟨⟩
    simp [snapshotSlots]

private theorem finish_snapshot {last : SnapshotDraft} {s : Editor.Snapshot} :
    snapshotRecord.finish last = .ok s ↔
      last = ⟨some s.tags, some s.folds, some s.unbalanced⟩ := by
  obtain ⟨tags, folds, unbalanced⟩ := last
  obtain ⟨tags', folds', unbalanced'⟩ := s
  simp only [snapshotRecord, bind_eq_ok_iff, require_eq_ok_iff, SnapshotDraft.mk.injEq]
  constructor
  · rintro ⟨a, rfl, b, rfl, c, rfl, h⟩
    cases h
    exact ⟨rfl, rfl, rfl⟩
  · rintro ⟨rfl, rfl, rfl⟩
    exact ⟨_, rfl, _, rfl, _, rfl, rfl⟩

private theorem makes_snapshot (t : Tree) (s : Editor.Snapshot) :
    Makes snapshotRecord snapshotSlots t s ↔ SpellsSnapshot t s := by
  cases t with
  | object gap members =>
    simp only [Makes, finish_snapshot, exists_eq_right, SpellsSnapshot]
    refine and_congr_right fun _ ↦ ?_
    simp only [snapshotSlots, snapshotRecord, List.forall_mem_cons]
    rw [Slot.takes_none_some "tags", Slot.takes_none_some "folds",
      Slot.takes_none_some "unbalanced"]
    simp
  | array gap items =>
    simp only [Makes, finish_snapshot, exists_eq_right]
    rcases items with _ | ⟨x, _ | ⟨y, _ | ⟨z, _ | ⟨w, items⟩⟩⟩⟩ <;>
      simp [Stores, snapshotSlots, SpellsSnapshot, snapshotRecord]
  | null => rfl
  | boolean b => rfl
  | number n => rfl
  | string letters => rfl

private theorem decodes_snapshot : Decodes snapshotRecord.read SpellsSnapshot :=
  (decodes_record rfl apart_snapshotSlots rfl).of_iff makes_snapshot

/-! ## Flaws -/

private theorem not_flawedOffset {t : Tree} {n : Nat} (h : SpellsOffset t n) : ¬FlawedOffset t := by
  obtain ⟨rfl, hn⟩ := h
  rintro ⟨m, hm, hflaw⟩
  cases hm
  rcases hflaw with h | h | h | h
  · cases h
  · exact h rfl
  · exact h rfl
  · exact Nat.not_lt.mpr h hn

private theorem not_flawedOffset_of_optional {t : Tree} {o : Option Nat}
    (h : SpellsOptional SpellsOffset t o) : ¬FlawedOffset t := by
  cases o with
  | none =>
    rintro ⟨_, heq, -⟩
    cases h.symm.trans heq
  | some n => exact not_flawedOffset h

section Values

variable {α : Type} {gap : Json.Gap} {members : List (Json.Member Tree)} {name : String}
  {spells : Tree → α → Prop} {a : α}

private theorem not_hasFlawed {as : List α} (h : Has members name (SpellsList spells) as)
    {flawed : Tree → Prop} (hitem : ∀ t a, spells t a → ¬flawed t) :
    ¬HasFlawed name flawed (.object gap members) := by
  rintro ⟨_, _, gap', items, heq, hlist, item, hmem, hflaw⟩
  cases heq
  obtain ⟨_, _, heq, hitems⟩ := h.forall_valuesOf (fun _ ht ↦ ht) _ hlist
  cases heq
  have hnone : ∀ item ∈ items, ¬flawed item.value :=
    ((List.forall₂_and_left _ _).mp (hitems.imp fun item a ha ↦ ⟨hitem item.value a ha, ha⟩)).1
  exact hnone item hmem hflaw

/-- An object has no flaw if its fields are there, once, and its offsets are offsets. -/
private theorem not_flawedRecord {required optional offsets : List String}
    (hrequired : ∀ name ∈ required, ∃ t, valuesOf members name = [t])
    (hoptional : ∀ name ∈ optional, (valuesOf members name).length ≤ 1)
    (hoffsets : ∀ name ∈ offsets, ∀ t ∈ valuesOf members name, ¬FlawedOffset t) :
    ¬FlawedRecord required optional offsets (.object gap members) := by
  rintro ⟨_, _, heq, ⟨name, hmem, hnone⟩ | ⟨name, hmem, htwice⟩ | ⟨name, hmem, t, ht, hflaw⟩⟩
  all_goals cases heq
  · obtain ⟨t, ht⟩ := hrequired name hmem
    rw [hnone] at ht
    cases ht
  · rcases List.mem_append.mp hmem with hmem | hmem
    · obtain ⟨t, ht⟩ := hrequired name hmem
      rw [ht] at htwice
      exact absurd htwice (Nat.lt_irrefl 1)
    · exact Nat.not_lt.mpr (hoptional name hmem) htwice
  · exact hoffsets name hmem t ht hflaw

end Values

private theorem not_flawedTag {t : Tree} {tag : Tag} (h : SpellsTag t tag) : ¬FlawedTag t := by
  cases t with
  | object gap members =>
    obtain ⟨-, hstart, hstop, hclass⟩ := h
    refine not_flawedRecord ?_ ?_ ?_
    · simp [hstart.exists_valuesOf, hstop.exists_valuesOf, hclass.exists_valuesOf]
    · simp
    · simp only [List.forall_mem_cons]
      exact ⟨hstart.forall_valuesOf fun _ ↦ not_flawedOffset,
        hstop.forall_valuesOf fun _ ↦ not_flawedOffset, by simp⟩
  | _ =>
    rintro ⟨_, _, heq, -⟩
    cases heq

private theorem not_flawedRegion {t : Tree} {region : Folding.Region} (h : SpellsRegion t region) :
    ¬FlawedRegion t := by
  cases t with
  | object gap members =>
    obtain ⟨-, hopen, hclose, hdepth⟩ := h
    have hclosing : (valuesOf members "close").length ≤ 1 ∧
        ∀ v ∈ valuesOf members "close", ¬FlawedOffset v := by
      rcases hclose with ⟨hnone, -⟩ | hclose
      · simp [hnone]
      · obtain ⟨v, hv⟩ := hclose.exists_valuesOf
        exact ⟨by simp [hv], hclose.forall_valuesOf fun _ ↦ not_flawedOffset_of_optional⟩
    refine not_flawedRecord ?_ ?_ ?_
    · simp [hopen.exists_valuesOf, hdepth.exists_valuesOf]
    · simp [hclosing.1]
    · simp only [List.forall_mem_cons]
      exact ⟨hopen.forall_valuesOf fun _ ↦ not_flawedOffset, hclosing.2,
        hdepth.forall_valuesOf fun _ ↦ not_flawedOffset, by simp⟩
  | _ =>
    rintro ⟨_, _, heq, -⟩
    cases heq

private theorem not_flawedSnapshot {t : Tree} {s : Editor.Snapshot} (h : SpellsSnapshot t s) :
    ¬FlawedSnapshot t := by
  cases t with
  | object gap members =>
    obtain ⟨-, htags, hfolds, hunbalanced⟩ := h
    rintro (hflaw | hflaw | hflaw | hflaw)
    · refine not_flawedRecord ?_ ?_ ?_ hflaw
      · simp [htags.exists_valuesOf, hfolds.exists_valuesOf, hunbalanced.exists_valuesOf]
      · simp
      · simp
    · exact not_hasFlawed htags (fun _ _ ↦ not_flawedTag) hflaw
    · exact not_hasFlawed hfolds (fun _ _ ↦ not_flawedRegion) hflaw
    · exact not_hasFlawed hunbalanced (fun _ _ ↦ not_flawedOffset) hflaw
  | _ =>
    rintro (⟨_, _, heq, -⟩ | ⟨_, _, _, _, heq, -⟩ | ⟨_, _, _, _, heq, -⟩ | ⟨_, _, _, _, heq, -⟩) <;>
      cases heq

/-! ## Exactness -/

/-- **A snapshot is read from all its spellings and from nothing else.** The fields of its records
may stand in any order, with blanks and further members of any name and value between them, and the
closing brace of a region may be null or left out, which is the same; what is read is what the text
says, number by number. A text that lacks another field, has a field twice, or has a number that is
no offset where an offset belongs is not read at all. -/
theorem ofJson?_exact (document : Padded Tree) :
    (∀ s, Editor.Snapshot.ofJson? document.text = .ok s ↔ SpellsSnapshot document.value s) ∧
      (FlawedSnapshot document.value →
        ∃ f, Editor.Snapshot.ofJson? document.text = .error f) := by
  have hread := decodes_snapshot.decode document
  refine ⟨hread, fun hflaw ↦ ?_⟩
  cases hs : Editor.Snapshot.ofJson? document.text with
  | ok s => exact absurd hflaw (not_flawedSnapshot ((hread s).mp hs))
  | error f => exact ⟨f, rfl⟩

def plainLetters (s : String) : List Json.Letter :=
  s.toList.filterMap fun c ↦
    if h : c ≠ '"' ∧ c ≠ '\\' ∧ ¬c.toNat < 32 then some (.plain c h.1 h.2.1 h.2.2) else none

def spacedMember (name : String) (v : Tree) : Json.Member Tree :=
  ⟨⟨[], plainLetters name, []⟩, ⟨[.space], v, []⟩⟩

/-- A document with its fields out of order, a further one among them and no closing brace:

```text
{"unbalanced": [],"from": [-1,null],"folds": [{"depth": 0,"open": 6}],"tags": [
{"class": "keyword","end": 5,"start": …}]}
``` -/
def shuffledDocument (start : Json.Numeral) : Padded Tree :=
  ⟨[], .object []
    [spacedMember "unbalanced" (.array [] []),
     spacedMember "from" (.array [] [⟨[], .number ⟨true, 1, none, none⟩, []⟩, ⟨[], .null, []⟩]),
     spacedMember "folds" (.array []
       [⟨[], .object [] [spacedMember "depth" (.number (.natural 0)),
         spacedMember "open" (.number (.natural 6))], []⟩]),
     spacedMember "tags" (.array [.newline]
       [⟨[], .object [] [spacedMember "class" (.string (plainLetters "keyword")),
         spacedMember "end" (.number (.natural 5)), spacedMember "start" (.number start)], []⟩])],
   []⟩

theorem ofJson?_exact_shuffled :
    Editor.Snapshot.ofJson? (shuffledDocument (.natural 0)).text
        = .ok ⟨[⟨0, 5, .keyword⟩], [⟨6, none, 0⟩], []⟩ ∧
      ∃ f, Editor.Snapshot.ofJson? (shuffledDocument (.natural offsetBound)).text = .error f := by
  have hnumber : ∀ n, n < offsetBound → SpellsOffset (.number (.natural n)) n := fun n hn ↦
    ⟨rfl, hn⟩
  refine ⟨((ofJson?_exact (shuffledDocument (.natural 0))).1 _).mpr ?_,
    (ofJson?_exact (shuffledDocument (.natural offsetBound))).2 ?_⟩
  · refine ⟨by decide, ⟨_, rfl, ?_⟩, ⟨_, rfl, ?_⟩, ⟨_, rfl, _, _, rfl, .nil⟩⟩
    · have hclass : Json.Letter.spelled? (plainLetters "keyword") = some "keyword".toList := by
        decide
      refine ⟨_, _, rfl, .cons ?_ .nil⟩
      exact ⟨by decide, ⟨_, rfl, hnumber 0 (by decide)⟩, ⟨_, rfl, hnumber 5 (by decide)⟩,
        ⟨_, rfl, hclass⟩⟩
    · refine ⟨_, _, rfl, .cons ?_ .nil⟩
      exact ⟨by decide, ⟨_, rfl, hnumber 6 (by decide)⟩, Or.inl ⟨rfl, rfl⟩,
        ⟨_, rfl, hnumber 0 (by decide)⟩⟩
  · refine Or.inr (Or.inl ⟨_, _, _, _, rfl, List.mem_singleton.mpr rfl, _,
      List.mem_singleton.mpr rfl, ?_⟩)
    refine ⟨_, _, rfl, Or.inr (Or.inr ⟨"start", by decide, _, List.mem_singleton.mpr rfl, ?_⟩)⟩
    exact ⟨_, rfl, Or.inr (Or.inr (Or.inr (Nat.le_refl _)))⟩

end DumpMode.Document
