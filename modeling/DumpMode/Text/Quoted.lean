import DumpMode.Text.Bytes
import DumpMode.Text.Digits
import DumpMode.Text.Invisible

/-!
# Quoted texts

How a text is shown in a message: in quotes, on one line, and with nothing in it that cannot be
seen. Quotes and backslashes get a backslash, the usual control characters are shown by a letter,
and whatever has no shape of its own is shown by its code point.
-/

namespace DumpMode.Text

def showChar (c : Char) : Text :=
  match c with
  | '\x00' => ['\\', '0']
  | '\t' => ['\\', 't']
  | '\r' => ['\\', 'r']
  | '\n' => ['\\', 'n']
  | '"' => ['\\', '"']
  | '\\' => ['\\', '\\']
  | c => if isInvisible c then '\\' :: 'u' :: '\x7b' :: (hexadecimal c.toNat ++ ['\x7d']) else [c]

/-- A text as it is shown in a message. -/
def quoted (text : Text) : Text := '"' :: (text.flatMap showChar ++ ['"'])

end DumpMode.Text
