/-!
# The context of an event

Named values that are attached to an event. Each name has one value, the last that was given, and
the names are kept in ascending order, so that a context depends only on the values it holds.
-/

namespace DumpMode.Journal

/-- Named values in ascending order of their names. -/
structure Context where
  entries : List (String × String)
  sorted : entries.Pairwise fun a b ↦ compare a.1 b.1 = .lt

namespace Context

/-- Puts a named value at its place in an ascending list. -/
def insertEntry (name value : String) : List (String × String) → List (String × String)
  | [] => [(name, value)]
  | e :: rest =>
    match compare name e.1 with
    | .lt => (name, value) :: e :: rest
    | .eq => (name, value) :: rest
    | .gt => e :: insertEntry name value rest

private theorem mem_insertEntry {name value : String} {entries : List (String × String)}
    {p : String × String} (h : p ∈ insertEntry name value entries) :
    p = (name, value) ∨ p ∈ entries := by
  induction entries with
  | nil => simp_all [insertEntry]
  | cons e rest ih =>
    rw [insertEntry] at h
    split at h
    · simpa using h
    · rcases List.mem_cons.mp h with h | h
      · exact .inl h
      · exact .inr (List.mem_cons_of_mem _ h)
    · rcases List.mem_cons.mp h with h | h
      · exact .inr (h ▸ List.mem_cons_self)
      · exact (ih h).imp id (List.mem_cons_of_mem _)

private theorem pairwise_insertEntry (name value : String) {entries : List (String × String)}
    (h : entries.Pairwise fun a b ↦ compare a.1 b.1 = .lt) :
    (insertEntry name value entries).Pairwise fun a b ↦ compare a.1 b.1 = .lt := by
  induction entries with
  | nil => simp [insertEntry]
  | cons e rest ih =>
    rw [List.pairwise_cons] at h
    rw [insertEntry]
    split
    · rename_i hlt
      rw [List.pairwise_cons]
      refine ⟨fun p hp ↦ ?_, List.pairwise_cons.mpr h⟩
      rcases List.mem_cons.mp hp with rfl | hp
      · exact hlt
      · exact Std.TransCmp.lt_trans hlt (h.1 p hp)
    · rename_i heq
      have : name = e.1 := Std.LawfulEqCmp.eq_of_compare heq
      rw [List.pairwise_cons]
      exact ⟨fun p hp ↦ this ▸ h.1 p hp, h.2⟩
    · rename_i hgt
      rw [List.pairwise_cons]
      refine ⟨fun p hp ↦ ?_, ih h.2⟩
      rcases mem_insertEntry hp with rfl | hp
      · exact Std.OrientedCmp.lt_of_gt hgt
      · exact h.1 p hp

def empty : Context := ⟨[], .nil⟩

/-- The context with a further value; it replaces an earlier one of the same name. -/
def insert (context : Context) (name value : String) : Context :=
  ⟨insertEntry name value context.entries, pairwise_insertEntry name value context.sorted⟩

def find? (context : Context) (name : String) : Option String := context.entries.lookup name

end Context

end DumpMode.Journal
