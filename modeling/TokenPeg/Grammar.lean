import TokenPeg.Value
/-!
  TokenPeg.Grammar

  Grammars over tokens, as data: parsing expression grammars whose terminals test one
  token at a time and whose every part yields a semantic value. A grammar may call named
  rules, which is how recursive grammars are written; the rules themselves are kept
  apart, in a list of named grammars.

  The forms here are the primitive ones. Sequencing that keeps one side, optional
  continuation and the usual repetitions are derived from them at the end of the file.
-/

namespace TokenPeg

/-- A grammar over tokens of type `α`. -/
inductive Grammar (α : Type) where
  /-- Any one token. -/
  | any
  /-- One token equal to the given one. -/
  | token (t : α)
  /-- One token from the set. -/
  | oneOf (set : List α)
  /-- One token outside the set. -/
  | noneOf (set : List α)
  /-- One token that passes the test; `desc` says what was expected. -/
  | satisfy (test : α → Bool) (desc : String)
  /-- Nothing, yielding the given value. -/
  | succeed (v : Value)
  /-- The end of the input, yielding `null`. -/
  | endOfInput
  /-- The first grammar, then the second, yielding the pair of their values. -/
  | and (a b : Grammar α)
  /-- The first grammar, or else the second from the same position. -/
  | or (a b : Grammar α)
  /-- The first alternative that matches, each tried from the same position. -/
  | choice (alts : List (Grammar α))
  /-- The items one after the other, yielding the array of their values. -/
  | sequence (items : List (Grammar α))
  /-- The grammar repeated greedily, at least `min` and at most `max` times. -/
  | iterate (g : Grammar α) (min : Nat) (max : Option Nat)
  /-- One or more items with separators between them, yielding the items' values. -/
  | sepBy (item sep : Grammar α)
  /-- The grammar or nothing. -/
  | optional (g : Grammar α)
  /-- Nothing, provided the grammar does not match here. -/
  | not (g : Grammar α)
  /-- The grammar, with its failures labelled. -/
  | label (g : Grammar α) (name : String)
  /-- The grammar, provided its value passes the check. -/
  | filter (g : Grammar α) (keep : Value → Bool) (message : String)
  /-- The grammar, with its value transformed. -/
  | map (g : Grammar α) (f : Value → Value)
  /-- The grammar, provided it reaches the end of the input. -/
  | complete (g : Grammar α)
  /-- The grammar, yielding its value paired with the range it matched. -/
  | withSpan (g : Grammar α)
  /-- The rule of the given name. -/
  | rule (name : String)
  deriving Inhabited

/-- Named grammars, which `Grammar.rule` refers to by name. -/
abbrev Rules (α : Type) := List (String × Grammar α)

namespace Grammar

variable {α : Type}

/-- The first grammar, then the second, yielding the second's value. -/
def seqRight (a b : Grammar α) : Grammar α := .map (.and a b) (·.item 1)

/-- The first grammar, then the second, yielding the first's value. -/
def seqLeft (a b : Grammar α) : Grammar α := .map (.and a b) (·.item 0)

/-- The first grammar, then the second if it matches. -/
def thenOptionally (a b : Grammar α) : Grammar α := .and a (.optional b)

/-- Zero or more repetitions. -/
def many (g : Grammar α) : Grammar α := .iterate g 0 none

/-- One or more repetitions. -/
def many1 (g : Grammar α) : Grammar α := .iterate g 1 none

end Grammar

end TokenPeg
