import TokenPeg.Value
import TokenPeg.Text.Literal
/-!
  TokenPeg.Lexeme

  The kinds of token a grammar can run over. A token kind says which semantic value a
  token stands for when it is matched, how a failure shows it (its debugging literal),
  and which of the named tests it passes. Three kinds come with the library: characters,
  integers and strings.
-/

namespace TokenPeg

/-- A test with a name, applicable to one kind of token and false of the others. -/
inductive NamedTest where
  | asciiDigit
  | asciiAlpha
  | asciiAlnum
  | asciiWhitespace
  | asciiUpper
  | asciiLower
  | asciiPunct
  | even
  | odd
  | positive
  | negative
  | zero
  | empty
  | asciiDigits
  | ident
  deriving Repr, DecidableEq, Inhabited

/-- A kind of token. -/
class Lexeme (α : Type) where
  /-- The value a matched token stands for. -/
  toValue : α → Value
  /-- The debugging literal by which failures show a token. -/
  literal : α → String
  /-- Which named tests a token passes; by default none. -/
  passes : NamedTest → α → Bool := fun _ _ => false

namespace Lexeme

/-- ASCII whitespace: space, tab, line feed, form feed and carriage return. -/
def isAsciiWhitespace (c : Char) : Bool :=
  c = ' ' || c = '\t' || c = '\n' || c = '\x0c' || c = '\r'

/-- ASCII punctuation: the printable ASCII characters that are neither letters, digits
    nor the space. -/
def isAsciiPunct (c : Char) : Bool :=
  let n := c.toNat
  (0x21 ≤ n && n ≤ 0x2f) || (0x3a ≤ n && n ≤ 0x40) || (0x5b ≤ n && n ≤ 0x60) ||
    (0x7b ≤ n && n ≤ 0x7e)

/-- The named tests of a character. -/
def charPasses : NamedTest → Char → Bool
  | .asciiDigit, c => c.isDigit
  | .asciiAlpha, c => c.isAlpha
  | .asciiAlnum, c => c.isAlphanum
  | .asciiWhitespace, c => isAsciiWhitespace c
  | .asciiUpper, c => c.isUpper
  | .asciiLower, c => c.isLower
  | .asciiPunct, c => isAsciiPunct c
  | _, _ => false

/-- The named tests of an integer. -/
def intPasses : NamedTest → Int → Bool
  | .even, n => n % 2 == 0
  | .odd, n => n % 2 != 0
  | .positive, n => decide (0 < n)
  | .negative, n => decide (n < 0)
  | .zero, n => n == 0
  | _, _ => false

/-- Whether a string is an identifier: an ASCII letter or underscore, then ASCII letters,
    digits and underscores. -/
def isIdent (s : String) : Bool :=
  match s.toList with
  | [] => false
  | c :: cs => (c.isAlpha || c = '_') && cs.all (fun d => d.isAlphanum || d = '_')

/-- The named tests of a string. -/
def stringPasses : NamedTest → String → Bool
  | .empty, s => s.isEmpty
  | .asciiDigits, s => !s.isEmpty && s.toList.all Char.isDigit
  | .ident, s => isIdent s
  | _, _ => false

end Lexeme

/-- Characters stand for one-character strings and show as quoted character literals. -/
instance : Lexeme Char where
  toValue c := .str (String.singleton c)
  literal := Text.Literal.char
  passes := Lexeme.charPasses

/-- Integers stand for themselves and show in decimal. -/
instance : Lexeme Int where
  toValue n := .int n
  literal n := toString n
  passes := Lexeme.intPasses

/-- Strings stand for themselves and show as quoted string literals. -/
instance : Lexeme String where
  toValue s := .str s
  literal := Text.Literal.string
  passes := Lexeme.stringPasses

end TokenPeg
