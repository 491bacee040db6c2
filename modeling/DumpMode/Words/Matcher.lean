import DumpMode.Text.Bytes

/-!
# Finding words in a text

A matcher holds words in the order in which they are tried at a place. `Matcher.ofWords` puts the
longer words first, so the first one that fits is the longest, whatever the order in which the
words were given. A search walks from a place to the first one where some word fits; it looks at
the word alone and not at its neighbours.
-/

namespace DumpMode.Words

/-- Words in the order in which they are tried. -/
structure Matcher where
  words : List Text
  /-- Every word has a letter, so that a match is never empty. -/
  ne_nil : ∀ w ∈ words, w ≠ []

namespace Matcher

/-- Whether `a` is tried before `b`, or they are the same: longer words come first, and words of
one length in the order of their letters. -/
def precedes (a b : Text) : Bool :=
  b.byteLength < a.byteLength || (a.byteLength == b.byteLength && !decide (b < a))

/-- The matcher of some words; empty ones are left out. -/
def ofWords (words : List Text) : Matcher where
  words := (words.filter (!·.isEmpty)).mergeSort precedes
  ne_nil w h := by simp_all [List.mem_mergeSort]

/-- The word that the text begins with, the first in order if there are several. -/
def wordAt? (m : Matcher) (rest : Text) : Option Text := m.words.find? (·.isPrefixOf rest)

theorem wordAt?_mem {m : Matcher} {rest w : Text} (h : m.wordAt? rest = some w) : w ∈ m.words :=
  List.mem_of_find?_eq_some h

theorem prefix_of_wordAt? {m : Matcher} {rest w : Text} (h : m.wordAt? rest = some w) :
    w <+: rest := by
  simpa using List.find?_some h

end Matcher

/-- A place in a text from which a search can start. -/
structure Place where
  /-- The character before the place, if there is one. -/
  before : Option Char
  offset : Nat
  rest : Text
deriving DecidableEq, Repr

namespace Place

def start (text : Text) : Place := ⟨none, 0, text⟩

def next (p : Place) : Place :=
  match p.rest with
  | [] => p
  | c :: rest => ⟨some c, p.offset + c.utf8Size, rest⟩

/-- The place behind a word that the rest of the text begins with. -/
def behind (p : Place) (word : Text) : Place :=
  ⟨word.getLast?.or p.before, p.offset + word.byteLength, p.rest.drop word.length⟩

theorem length_next_lt {p : Place} (h : p.rest ≠ []) : p.next.rest.length < p.rest.length := by
  unfold next
  split
  · contradiction
  · simp_all

theorem length_behind_lt {p : Place} {word : Text} (hw : word ≠ []) (h : word <+: p.rest) :
    (p.behind word).rest.length < p.rest.length := by
  have := h.length_le
  have : 0 < word.length := List.length_pos_iff.mpr hw
  simp only [behind, List.length_drop]
  omega

end Place

/-- A word found in a text, its neighbours not yet looked at. -/
structure Candidate where
  place : Place
  word : Text
deriving DecidableEq, Repr

/-- The first place, from the given one on, at which a word fits, with that word. -/
def Matcher.search? (m : Matcher) (before : Option Char) (offset : Nat) :
    Text → Option Candidate
  | [] => none
  | c :: rest =>
    match m.wordAt? (c :: rest) with
    | some w => some ⟨⟨before, offset, c :: rest⟩, w⟩
    | none => m.search? (some c) (offset + c.utf8Size) rest

def Place.search? (p : Place) (m : Matcher) : Option Candidate :=
  m.search? p.before p.offset p.rest

private theorem search?_sound {m : Matcher} {before : Option Char} {offset : Nat} {rest : Text}
    {c : Candidate} (h : m.search? before offset rest = some c) :
    c.word ∈ m.words ∧ c.word <+: c.place.rest ∧ c.place.rest <:+ rest := by
  induction rest generalizing before offset with
  | nil => simp [Matcher.search?] at h
  | cons d rest ih =>
    rw [Matcher.search?] at h
    split at h
    · rename_i w hw
      cases h
      exact ⟨Matcher.wordAt?_mem hw, Matcher.prefix_of_wordAt? hw, List.suffix_rfl⟩
    · obtain ⟨h₁, h₂, h₃⟩ := ih h
      exact ⟨h₁, h₂, h₃.trans (List.suffix_cons _ _)⟩

/-- A candidate is a word of the matcher, it stands where the candidate says, and that is not
before the place where the search began. -/
theorem Place.search?_sound {m : Matcher} {p : Place} {c : Candidate}
    (h : p.search? m = some c) :
    c.word ∈ m.words ∧ c.word <+: c.place.rest ∧ c.place.rest <:+ p.rest :=
  Words.search?_sound h

end DumpMode.Words
