import DumpMode.Text.Alphanumeric
import DumpMode.Words.Match
import DumpMode.Words.Matcher

/-!
# Scanning a text for words

A word counts only where it stands alone: neither of its neighbours may be a character of a word.
A candidate that does not stand alone may hide one that does, so the search goes on one character
behind its start. A scan walks from match to match; it can be copied, and put back to the start.
Its position after a search that finds nothing is where that search began.
-/

namespace DumpMode.Words

/-- Whether a character belongs to a word, so that a word next to it is part of a longer one. -/
def isWordChar (c : Char) : Bool := Text.isAlphanumeric c || c == '_'

namespace Candidate

def following (c : Candidate) : Text := c.place.rest.drop c.word.length

/-- Whether the neighbours of the word leave it alone. -/
def standsAlone (c : Candidate) : Bool :=
  !c.place.before.any isWordChar && !c.following.head?.any isWordChar

def classify (c : Candidate) (e : Vocabulary.Entry) : Match where
  text := c.word
  start := c.place.offset
  stop := c.place.offset + c.word.byteLength
  wordClass := e.wordClass
  group := e.group

end Candidate

/-- A table of words together with its matcher. -/
structure Lexicon where
  rows : List Vocabulary.Entry
  matcher : Matcher

namespace Lexicon

def ofRows (rows : List Vocabulary.Entry) : Lexicon := ⟨rows, .ofWords (rows.map (·.word))⟩

private theorem length_behind_lt {p : Place} {m : Matcher} {c : Candidate}
    (h : p.search? m = some c) : (c.place.behind c.word).rest.length < p.rest.length := by
  obtain ⟨hmem, hpre, hsuf⟩ := Place.search?_sound h
  exact Nat.lt_of_lt_of_le (Place.length_behind_lt (m.ne_nil _ hmem) hpre) hsuf.length_le

private theorem length_next_lt {p : Place} {m : Matcher} {c : Candidate}
    (h : p.search? m = some c) : c.place.next.rest.length < p.rest.length := by
  obtain ⟨hmem, hpre, hsuf⟩ := Place.search?_sound h
  refine Nat.lt_of_lt_of_le (Place.length_next_lt fun hnil ↦ m.ne_nil _ hmem ?_) hsuf.length_le
  rw [hnil] at hpre
  exact List.prefix_nil.mp hpre

/-- The first match from a place on, and the place from which to look for the next one. -/
def next (l : Lexicon) (p : Place) : Option Match × Place :=
  match _hc : p.search? l.matcher with
  | none => (none, p)
  | some c =>
    if c.standsAlone then
      match Vocabulary.find? l.rows c.word with
      | some e => (some (c.classify e), c.place.behind c.word)
      | none => l.next (c.place.behind c.word)
    else l.next c.place.next
termination_by p.rest.length
decreasing_by
  · exact length_behind_lt _hc
  · exact length_next_lt _hc

theorem length_lt_of_next {l : Lexicon} {p q : Place} {m : Match} (h : l.next p = (some m, q)) :
    q.rest.length < p.rest.length := by
  fun_induction next l p with
  | case1 => simp at h
  | case2 p c hc _ e _ =>
    simp only [Prod.mk.injEq] at h
    exact h.2 ▸ length_behind_lt hc
  | case3 p c hc _ _ ih => exact Nat.lt_trans (ih h) (length_behind_lt hc)
  | case4 p c hc _ ih => exact Nat.lt_trans (ih h) (length_next_lt hc)

/-- All matches from a place on, and the place from which a further search would start; `found`
are the matches before, the latest first. -/
def collect (l : Lexicon) (found : List Match) (p : Place) : List Match × Place :=
  match _hn : l.next p with
  | (none, q) => (found.reverse, q)
  | (some m, q) => l.collect (m :: found) q
termination_by p.rest.length
decreasing_by exact length_lt_of_next _hn

def matchesIn (l : Lexicon) (text : Text) : List Match := (l.collect [] (.start text)).1

end Lexicon

/-- A walk over the matches of a text. -/
structure Scan where
  lexicon : Lexicon
  text : Text
  /-- Where the next search starts. -/
  place : Place

namespace Scan

def start (lexicon : Lexicon) (text : Text) : Scan := ⟨lexicon, text, .start text⟩

/-- The offset where the next search starts. -/
def position (s : Scan) : Nat := s.place.offset

def reset (s : Scan) : Scan := start s.lexicon s.text

def next (s : Scan) : Option Match × Scan :=
  let (found, place) := s.lexicon.next s.place
  (found, { s with place })

/-- The match after the next `k` ones; the walk stops early where the matches do. -/
def nth (s : Scan) : Nat → Option Match × Scan
  | 0 => s.next
  | k + 1 =>
    match s.next with
    | (none, s) => (none, s)
    | (some _, s) => s.nth k

def drain (s : Scan) : List Match × Scan :=
  let (found, place) := s.lexicon.collect [] s.place
  (found, { s with place })

end Scan

end DumpMode.Words
