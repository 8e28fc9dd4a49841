import TokenPeg.Text.GraphemeExtend
/-!
  TokenPeg.Text.Literal

  Debugging literals: the quoted, escaped text by which failure reasons show a token.
  A character is written between single quotes, a string between double quotes. Inside,
  NUL, tab, carriage return, line feed, the backslash and the enclosing quote get a
  backslash escape; a character that extends a grapheme, or is not printable, is written
  `\u{h}` with its code point in lowercase hexadecimal; every other character stands for
  itself.
-/

namespace TokenPeg.Text.Literal

/-- The lowercase hexadecimal digits of a number, without leading zeros. -/
def hex (n : Nat) : String := String.ofList (Nat.toDigits 16 n)

/-- How one character is written inside a literal enclosed by the quote `q`. -/
def escape (q : Char) (c : Char) : String :=
  if c = '\x00' then "\\0"
  else if c = '\t' then "\\t"
  else if c = '\r' then "\\r"
  else if c = '\n' then "\\n"
  else if c = '\\' then "\\\\"
  else if c = q then String.ofList ['\\', q]
  else if isGraphemeExtend c || !isPrintable c then "\\u\x7b" ++ hex c.toNat ++ "\x7d"
  else String.singleton c

/-- The literal of a character, in single quotes. -/
def char (c : Char) : String := "'" ++ escape '\'' c ++ "'"

/-- The literal of a string, in double quotes. -/
def string (s : String) : String := "\"" ++ String.join (s.toList.map (escape '"')) ++ "\""

end TokenPeg.Text.Literal
