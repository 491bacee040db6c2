import DumpMode.Words.Scan

/-!
# Runs of word characters

What it means to stand alone, said without a search: a text falls into maximal runs of word
characters and the characters between them, and a word stands alone exactly where it fills a run.
`Lexicon.runMatches` takes the matches of a text from its runs. It tries one word per run and
remembers nothing from run to run, so cutting a text between two words cuts its matches.
-/

namespace DumpMode.Words

/-- A maximal run of word characters. -/
structure Run where
  start : Nat
  text : Text
deriving DecidableEq, Repr

def Run.classify (r : Run) (e : Vocabulary.Entry) : Match where
  text := r.text
  start := r.start
  stop := r.start + r.text.byteLength
  wordClass := e.wordClass
  group := e.group

/-- The runs of a text whose first character is at an offset. -/
def runsFrom (offset : Nat) (text : Text) : List Run :=
  match text with
  | [] => []
  | c :: rest =>
    if isWordChar c then
      let word : Text := c :: rest.takeWhile isWordChar
      ⟨offset, word⟩ :: runsFrom (offset + word.byteLength) (rest.dropWhile isWordChar)
    else runsFrom (offset + c.utf8Size) rest
termination_by text.length
decreasing_by
  · have := (List.dropWhile_sublist (l := rest) isWordChar).length_le
    simp only [List.length_cons]
    omega
  · simp

def runs (text : Text) : List Run := runsFrom 0 text

@[simp] theorem runsFrom_nil (offset : Nat) : runsFrom offset [] = [] := by rw [runsFrom]

theorem runsFrom_cons_of_not {offset : Nat} {c : Char} {rest : Text} (h : isWordChar c = false) :
    runsFrom offset (c :: rest) = runsFrom (offset + c.utf8Size) rest := by
  rw [runsFrom]
  simp [h]

theorem runsFrom_cons_of_pos {offset : Nat} {c : Char} {rest : Text} (h : isWordChar c = true) :
    runsFrom offset (c :: rest)
      = ⟨offset, c :: rest.takeWhile isWordChar⟩
        :: runsFrom (offset + Text.byteLength (c :: rest.takeWhile isWordChar))
          (rest.dropWhile isWordChar) := by
  rw [runsFrom, if_pos h]

/-- The matches of a text, read off its runs: those that are words of the table. -/
def Lexicon.runMatches (l : Lexicon) (text : Text) : List Match :=
  (runs text).filterMap fun r ↦ (Vocabulary.find? l.rows r.text).map r.classify

end DumpMode.Words
