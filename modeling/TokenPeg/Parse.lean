import TokenPeg.Grammar.Run
import TokenPeg.Grammar.Check
import TokenPeg.Scanner
/-!
  TokenPeg.Parse

  Parsing with a checked grammar: from a scanner's position, from the start of a token
  list, or over a whole token list, which the match must then cover.

  Each parse gets fuel for `Rules.fuelFor` rule calls. A call chain of rules either
  consumes a token between two calls of one rule or never ends, and positions only
  grow along a chain, so a grammar without left recursion needs no more than one call
  per rule and position.
-/

namespace TokenPeg

variable {α : Type} [Lexeme α] [DecidableEq α]

/-- The fuel a parse of `tokens` gets: one call of each rule at each position, and one
    more. -/
def Rules.fuelFor (rules : Rules α) (tokens : List α) : Nat :=
  rules.length * (tokens.length + 1) + 1

/-- Why a parse gave no outcome. -/
inductive ParseError where
  /-- The grammar or its rules failed their checks. -/
  | build (e : BuildError)
  /-- The grammar called rules without end: it is left recursive. -/
  | exhausted
  deriving Repr, DecidableEq, Inhabited

/-- Where a parse starts and what it must cover. -/
inductive Mode where
  /-- From the given position (clamped to the end), with the scanner's final position. -/
  | scanner (start : Nat)
  /-- From the start of the tokens. -/
  | tokens
  /-- From the start of the tokens, and the match must reach their end. -/
  | complete
  deriving Repr, DecidableEq, Inhabited

namespace Grammar

/-- Runs a grammar at a scanner's position: the outcome, and the scanner after it, which
    stands behind a match or back at the start after a failure. -/
def parse (rules : Rules α) (g : Grammar α) (s : Scanner α) : Option (Outcome × Scanner α) :=
  (g.run rules s.tokens (rules.fuelFor s.tokens) s.position).map fun o =>
    (o, s.restore ⟨o.resume s.position⟩)

/-- A parse is the run at the scanner's position with the fuel of its tokens, followed by
    the scanner put where the outcome leaves the input. -/
theorem parse_eq_some_iff {rules : Rules α} {g : Grammar α} {s sc : Scanner α} {o : Outcome} :
    g.parse rules s = some (o, sc) ↔
      g.run rules s.tokens (rules.fuelFor s.tokens) s.position = some o ∧
        sc = s.restore ⟨o.resume s.position⟩ := by
  unfold parse
  constructor
  · intro h
    obtain ⟨o', ho', h⟩ := Option.map_eq_some_iff.1 h
    simp only [Prod.mk.injEq] at h
    obtain ⟨rfl, rfl⟩ := h
    exact ⟨ho', rfl⟩
  · rintro ⟨ho, rfl⟩
    rw [ho, Option.map_some]

/-- A parse keeps the scanner's tokens. -/
theorem tokens_of_parse {rules : Rules α} {g : Grammar α} {s sc : Scanner α} {o : Outcome}
    (h : g.parse rules s = some (o, sc)) : sc.tokens = s.tokens := by
  unfold parse at h
  cases hr : g.run rules s.tokens (rules.fuelFor s.tokens) s.position with
  | none => simp [hr] at h
  | some o' =>
    simp only [hr, Option.map_some, Option.some.injEq, Prod.mk.injEq] at h
    rw [← h.2]
    rfl

/-- Runs a grammar from the start of a token list. -/
def parseTokens (rules : Rules α) (g : Grammar α) (tokens : List α) : Option Outcome :=
  (g.parse rules (Scanner.new tokens)).map (·.1)

/-- Runs a grammar from the start of a token list; a match that stops short of the end
    fails, with the count of tokens left over, at the position where it stopped. -/
def parseComplete (rules : Rules α) (g : Grammar α) (tokens : List α) : Option Outcome :=
  (g.parse rules (Scanner.new tokens)).map fun
    | (.matched v m, s) =>
      if s.atEnd then .matched v m
      else .failed ⟨.trailingInput s.remaining.length, s.position⟩
    | (.failed f, _) => .failed f

/-- Checks a grammar and its rules, then parses in the given mode: the outcome, and in
    scanner mode the scanner's final position. -/
def parseIn (rules : Rules α) (g : Grammar α) (mode : Mode) (tokens : List α) :
    Except ParseError (Outcome × Option Nat) :=
  match rules.firstError g with
  | some e => .error (.build e)
  | none =>
    let result : Option (Outcome × Option Nat) :=
      match mode with
      | .scanner start =>
        (g.parse rules (Scanner.startingAt tokens start)).map fun (o, s) => (o, some s.position)
      | .tokens => (g.parseTokens rules tokens).map ((·, none))
      | .complete => (g.parseComplete rules tokens).map ((·, none))
    match result with
    | some r => .ok r
    | none => .error .exhausted

end Grammar

end TokenPeg
