import TokenPeg.Grammar
import TokenPeg.Lexeme
import TokenPeg.Value.Transform
/-!
  TokenPeg.Arithmetic

  Arithmetic over pre-lexed tokens: numbers, `+`, `*` and parentheses, with `*` binding
  tighter than `+`. The grammar is recursive through one rule, `expr`: an atom is a number
  or an expression in parentheses, a term is atoms separated by `*` with the product of
  their values, and an expression is terms separated by `+` with the sum of their values,
  its failures labelled `expression`. Sums and products are those of the value transforms,
  in 64 bits.

  Beside the grammar stands the language it is meant to read, as syntax trees of
  `E → T (+ T)*`, `T → A (* A)*`, `A → n | ( E )`, with the tokens each tree is written with
  and its integer value. `Expr.Fits` says that every running sum and product, computed
  from the left as the grammar computes them, stays in the 64-bit range.
-/

namespace TokenPeg

/-- The tokens of arithmetic expressions. -/
inductive ArithToken where
  | num (n : Int64)
  | plus
  | star
  | lparen
  | rparen
  deriving DecidableEq, Repr

namespace ArithToken

/-- Whether a token is a number. -/
def isNum : ArithToken → Bool
  | .num _ => true
  | _ => false

/-- The debugging literal of a token. -/
def literal : ArithToken → String
  | .num n => "Num(" ++ toString n.toInt ++ ")"
  | .plus => "Plus"
  | .star => "Star"
  | .lparen => "LParen"
  | .rparen => "RParen"

end ArithToken

/-- A number token stands for its integer, any other token for its literal. -/
instance : Lexeme ArithToken where
  toValue
    | .num n => .int n.toInt
    | t => .str t.literal
  literal := ArithToken.literal

namespace Arith

/-! ## The grammar -/

/-- The integer of a number token's value; any other value counts as `0`. -/
def numberValue : Value → Value
  | .int n => .int n
  | _ => .int 0

/-- A number, with its integer as value. -/
def number : Grammar ArithToken := .map (.satisfy ArithToken.isNum "number") numberValue

/-- An expression in parentheses: a call of the rule `expr` between the two tokens. -/
def parenthesized : Grammar ArithToken :=
  .seqLeft (.seqRight (.token .lparen) (.rule "expr")) (.token .rparen)

/-- A number, or else an expression in parentheses. -/
def atom : Grammar ArithToken := .choice [number, parenthesized]

/-- Atoms separated by `*`, with the product of their values. -/
def term : Grammar ArithToken := .map (.sepBy atom (.token .star)) (Transform.apply .product)

/-- Terms separated by `+`, with the sum of their values, labelled `expression`. -/
def expr : Grammar ArithToken :=
  .label (.map (.sepBy term (.token .plus)) (Transform.apply .sum)) "expression"

/-- The one rule of the grammar, `expr`, which atoms call between parentheses. -/
def rules : Rules ArithToken := [("expr", expr)]

/-! ## The language -/

mutual

/-- An expression: one or more terms joined by `+`. -/
inductive Expr where
  | term (t : Term)
  | plus (t : Term) (rest : Expr)

/-- A term: one or more atoms joined by `*`. -/
inductive Term where
  | atom (a : Atom)
  | times (a : Atom) (rest : Term)

/-- An atom: a number, or an expression in parentheses. -/
inductive Atom where
  | num (n : Int64)
  | paren (e : Expr)

end

mutual

/-- The tokens an expression is written with. -/
def Expr.tokens : Expr → List ArithToken
  | .term t => t.tokens
  | .plus t e => t.tokens ++ .plus :: e.tokens

/-- The tokens a term is written with. -/
def Term.tokens : Term → List ArithToken
  | .atom a => a.tokens
  | .times a t => a.tokens ++ .star :: t.tokens

/-- The tokens an atom is written with. -/
def Atom.tokens : Atom → List ArithToken
  | .num n => [.num n]
  | .paren e => .lparen :: (e.tokens ++ [.rparen])

end

mutual

/-- The integer value of an expression: the sum of its terms. -/
def Expr.value : Expr → Int
  | .term t => t.value
  | .plus t e => t.value + e.value

/-- The integer value of a term: the product of its atoms. -/
def Term.value : Term → Int
  | .atom a => a.value
  | .times a t => a.value * t.value

/-- The integer value of an atom. -/
def Atom.value : Atom → Int
  | .num n => n.toInt
  | .paren e => e.value

end

mutual

/-- The running sums of an expression's terms, from `acc` on, fit 64 bits, and so does
    everything computed inside each term. -/
def Expr.SumFits : Int → Expr → Prop
  | acc, .term t => Value.fitsInt64 (acc + t.value) = true ∧ t.ProductFits 1
  | acc, .plus t e =>
    Value.fitsInt64 (acc + t.value) = true ∧ t.ProductFits 1 ∧ e.SumFits (acc + t.value)

/-- The running products of a term's atoms, from `acc` on, fit 64 bits, and so does
    everything computed inside each atom. -/
def Term.ProductFits : Int → Term → Prop
  | acc, .atom a => Value.fitsInt64 (acc * a.value) = true ∧ a.Fits
  | acc, .times a t =>
    Value.fitsInt64 (acc * a.value) = true ∧ a.Fits ∧ t.ProductFits (acc * a.value)

/-- Everything computed inside an atom fits 64 bits. -/
def Atom.Fits : Atom → Prop
  | .num _ => True
  | .paren e => e.SumFits 0

end

/-- Every running sum and product of an expression, each computed from the left starting
    at `0` for sums and at `1` for products, fits 64 bits. -/
def Expr.Fits (e : Expr) : Prop := e.SumFits 0

end Arith

end TokenPeg
