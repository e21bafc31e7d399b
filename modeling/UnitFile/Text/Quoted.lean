import UnitFile.Text.Printable
import UnitFile.Text.ExtendingMark
/-!
# Text — the quoted form of a string

A quoted string stands between double quotes. A quote, a backslash, a tab, the
two line break characters and NUL have short escapes; every other character that
is not printable, or that would merge with the one before it, is written by its
code point in lowercase hexadecimal.
-/

namespace UnitFile

namespace Text

/-- The quoted form of one character. -/
def quotedChar (c : Char) : List Char :=
  if c = '\x00' then ['\\', '0']
  else if c = '\t' then ['\\', 't']
  else if c = '\r' then ['\\', 'r']
  else if c = '\n' then ['\\', 'n']
  else if c = '\\' then ['\\', '\\']
  else if c = '"' then ['\\', '"']
  else if isExtendingMark c || !isPrintable c then
    ['\\', 'u', '\x7b'] ++ Nat.toDigits 16 c.toNat ++ ['\x7d']
  else [c]

/-- The quoted form of a string. -/
def quoted (s : String) : String :=
  String.ofList ('"' :: s.toList.flatMap quotedChar ++ ['"'])

end Text

end UnitFile
