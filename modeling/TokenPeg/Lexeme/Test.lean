import TokenPeg.Lexeme
/-!
  TokenPeg.Lexeme.Test

  Tests on single tokens, as a small language: constants, named tests, comparisons with
  a given token (by the kind's order: code points for characters, code points
  lexicographically for strings, numbers for integers), membership in a list, and the
  Boolean connectives.
-/

namespace TokenPeg

/-- A test on one token. -/
inductive TokenTest (α : Type) where
  | const (b : Bool)
  | named (test : NamedTest)
  | eq (t : α)
  | lt (t : α)
  | le (t : α)
  | gt (t : α)
  | ge (t : α)
  | mem (ts : List α)
  | not (p : TokenTest α)
  | all (ps : List (TokenTest α))
  | any (ps : List (TokenTest α))
  deriving Repr, Inhabited

namespace TokenTest

variable {α : Type} [Lexeme α] [DecidableEq α] [Ord α]

mutual

/-- Whether a token passes a test. -/
def holds : TokenTest α → α → Bool
  | .const b, _ => b
  | .named test, t => Lexeme.passes test t
  | .eq u, t => t = u
  | .lt u, t => compare t u == .lt
  | .le u, t => compare t u != .gt
  | .gt u, t => compare t u == .gt
  | .ge u, t => compare t u != .lt
  | .mem us, t => us.contains t
  | .not p, t => !holds p t
  | .all ps, t => holdsAll ps t
  | .any ps, t => holdsAny ps t

/-- Whether a token passes every test of a list. -/
def holdsAll : List (TokenTest α) → α → Bool
  | [], _ => true
  | p :: ps, t => holds p t && holdsAll ps t

/-- Whether a token passes some test of a list. -/
def holdsAny : List (TokenTest α) → α → Bool
  | [], _ => false
  | p :: ps, t => holds p t || holdsAny ps t

end

end TokenTest

end TokenPeg
