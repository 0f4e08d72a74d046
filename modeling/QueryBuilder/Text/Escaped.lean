import QueryBuilder.Text.Printable

/-! Escaped text.

Between double quotes, with every character that would not show: the quote and the
backslash behind a backslash, line feed, carriage return, tab and null by a letter,
and other characters that are not printable, or that cannot be made out on their own,
by their number. -/
namespace QueryBuilder.Text.Escaped

/-- The number of a character in hexadecimal. -/
def numbered (c : Char) : List Char := "\\u\x7b".toList ++ Nat.toDigits 16 c.toNat ++ ['\x7d']

def escapedChar (c : Char) : List Char :=
  if c = '\x22' || c = '\\' then ['\\', c]
  else if c = '\n' then ['\\', 'n']
  else if c = '\r' then ['\\', 'r']
  else if c = '\t' then ['\\', 't']
  else if c = '\x00' then ['\\', '0']
  else if isPrintable c && !extendsGrapheme c && !isFiller c then [c]
  else numbered c

def escaped (s : String) : String :=
  String.ofList ('\x22' :: s.toList.flatMap escapedChar ++ ['\x22'])

end QueryBuilder.Text.Escaped
