import DumpMode.Text.Ranges

/-!
# Blank characters

The characters that separate words and that a value may be padded with: the Unicode property
White_Space. Trimming takes them off both ends of a text.
-/

namespace DumpMode.Text

/-- The blank characters, as ranges of code points: tab to carriage return, the space, the next
line control, and the spaces and separators of general punctuation. -/
def blankRanges : List (Nat × Nat) :=
  [(9, 13), (32, 32), (133, 133), (160, 160), (5760, 5760), (8192, 8202), (8232, 8233),
   (8239, 8239), (8287, 8287), (12288, 12288)]

def isBlank (c : Char) : Bool := inRanges blankRanges c

def trimStart (text : List Char) : List Char := text.dropWhile isBlank

def trimEnd (text : List Char) : List Char := (text.reverse.dropWhile isBlank).reverse

def trim (text : List Char) : List Char := trimEnd (trimStart text)

end DumpMode.Text
