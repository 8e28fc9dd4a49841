/-!
  TokenPeg.Value

  Semantic values: the data a grammar produces while it matches. They follow the JSON
  data model (null, booleans, numbers, strings, arrays, objects), because a grammar's
  constants, its transforms and its conditions are all phrased in that model.
-/

namespace TokenPeg

/-- A semantic value. Numbers are either integers or decimals `mantissa / 10 ^ scale`,
    and the two kinds are never equal to each other, even at the same magnitude. Object
    fields are kept sorted by key, each key once. -/
inductive Value where
  | null
  | bool (b : Bool)
  | int (n : Int)
  | decimal (mantissa : Int) (scale : Nat)
  | str (s : String)
  | arr (items : List Value)
  | obj (fields : List (String × Value))
  deriving Repr, Inhabited

namespace Value

/-- The least integer of the signed 64-bit range, `-2^63`. -/
def int64Min : Int := -9223372036854775808

/-- The greatest integer of the signed 64-bit range, `2^63 - 1`. -/
def int64Max : Int := 9223372036854775807

/-- The number of values of a 64-bit word, `2^64`. -/
def wordSize : Int := 18446744073709551616

/-- Whether an integer fits the signed 64-bit range. -/
def fitsInt64 (n : Int) : Bool := decide (int64Min ≤ n ∧ n ≤ int64Max)

/-- An integer as a value: exact when it fits 64 bits, signed or unsigned, and otherwise
    an approximate number like any decimal. -/
def ofInt (n : Int) : Value := if int64Min ≤ n ∧ n < wordSize then .int n else .decimal n 0

/-- The number `mantissa / 10 ^ scale` as a decimal value, with the trailing zeros of its
    fraction dropped, so that equal decimals are one value. -/
def ofDecimal : Int → Nat → Value
  | m, 0 => .decimal m 0
  | m, e + 1 => if m % 10 = 0 then ofDecimal (m / 10) e else .decimal m (e + 1)

mutual

/-- Structural equality of values; objects compare field by field in key order. -/
def beq : Value → Value → Bool
  | .null, .null => true
  | .bool a, .bool b => a == b
  | .int a, .int b => a == b
  | .decimal m e, .decimal m' e' => m == m' && e == e'
  | .str a, .str b => a == b
  | .arr xs, .arr ys => beqItems xs ys
  | .obj xs, .obj ys => beqFields xs ys
  | _, _ => false

/-- Pointwise equality of two lists of values. -/
def beqItems : List Value → List Value → Bool
  | [], [] => true
  | x :: xs, y :: ys => beq x y && beqItems xs ys
  | _, _ => false

/-- Pointwise equality of two field lists, keys and values. -/
def beqFields : List (String × Value) → List (String × Value) → Bool
  | [], [] => true
  | (k, x) :: xs, (k', y) :: ys => k == k' && beq x y && beqFields xs ys
  | _, _ => false

end

/-- Values compare structurally. -/
instance : BEq Value := ⟨beq⟩

/-- The length of a value that has one: the item count of an array, the character count
    of a string. -/
def length? : Value → Option Nat
  | .arr xs => some xs.length
  | .str s => some s.length
  | _ => none

/-- The integer that a value holds, when it is an integer in the signed 64-bit range. -/
def int64? : Value → Option Int
  | .int n => if fitsInt64 n then some n else none
  | _ => none

/-- The item at an index of an array, or `null` when there is none. -/
def item (v : Value) (i : Nat) : Value :=
  match v with
  | .arr vs => vs.getD i .null
  | _ => .null

/-- An optional value: `null` for nothing, an object `{"some": v}` for something. -/
def ofOption : Option Value → Value
  | none => .null
  | some v => .obj [("some", v)]

/-- A length or position as a value. -/
def ofNat (n : Nat) : Value := .int n

/-- The value of a half-open range of positions: an object with its two ends. -/
def ofRange (start stop : Nat) : Value := .obj [("end", .ofNat stop), ("start", .ofNat start)]

end Value

end TokenPeg
