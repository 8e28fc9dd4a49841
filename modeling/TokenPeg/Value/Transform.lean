import TokenPeg.Value
/-!
  TokenPeg.Value.Transform

  Transforms of semantic values, applied to the value of a match. Arithmetic is checked
  in the signed 64-bit range: a result outside it, or an operand of the wrong kind, gives
  `null` rather than an error, so a transform never makes a match fail.
-/

namespace TokenPeg

/-- A transform from one semantic value to another. -/
inductive Transform where
  /-- The value unchanged. -/
  | identity
  /-- A fixed value, whatever was matched. -/
  | const (v : Value)
  /-- The length of an array or string. -/
  | length
  /-- The sum of an array of integers. -/
  | sum
  /-- The product of an array of integers. -/
  | product
  /-- The concatenation of an array of strings. -/
  | concat
  /-- An integer plus one. -/
  | increment
  /-- The first item of an array. -/
  | first
  /-- The second item of an array. -/
  | second
  /-- An array with its array items spliced in, one level deep. -/
  | flatten
  /-- The integer written by a string of decimal digits with an optional sign. -/
  | readInt
  deriving Repr, Inhabited

namespace Transform

/-- A result of 64-bit arithmetic, when it is in range. -/
def checked (n : Int) : Option Int := if Value.fitsInt64 n then some n else none

/-- The integers of an array whose items are all 64-bit integers. -/
def int64Items : List Value → Option (List Int)
  | [] => some []
  | v :: vs => do
    let n ← v.int64?
    let ns ← int64Items vs
    return n :: ns

/-- The strings of an array whose items are all strings. -/
def strItems : List Value → Option (List String)
  | [] => some []
  | .str s :: vs => (strItems vs).map (s :: ·)
  | _ :: _ => none

/-- Folds an operation over integers from a seed, stopping with nothing as soon as a
    partial result leaves the 64-bit range. -/
def foldChecked (op : Int → Int → Int) (seed : Int) (ns : List Int) : Option Int :=
  ns.foldlM (fun acc n => checked (op acc n)) seed

/-- The integer a decimal numeral denotes: an optional `+` or `-`, then one or more ASCII
    digits and nothing else, in the signed 64-bit range. -/
def readInt64 (s : String) : Option Int :=
  let (negative, digits) : Bool × List Char :=
    match s.toList with
    | '+' :: ds => (false, ds)
    | '-' :: ds => (true, ds)
    | ds => (false, ds)
  if digits.isEmpty || !digits.all Char.isDigit then none
  else
    let magnitude : Nat := digits.foldl (fun acc d => acc * 10 + (d.toNat - '0'.toNat)) 0
    checked (if negative then -(magnitude : Int) else magnitude)

/-- One level of splicing: array items are replaced by their own items. -/
def splice : List Value → List Value
  | [] => []
  | .arr inner :: vs => inner ++ splice vs
  | v :: vs => v :: splice vs

/-- Applies a transform; a value that the transform does not fit gives `null`. -/
def apply : Transform → Value → Value
  | .identity, v => v
  | .const c, _ => c
  | .length, v => (v.length?.map Value.ofNat).getD .null
  | .sum, .arr vs => ((int64Items vs).bind (foldChecked (· + ·) 0) |>.map Value.int).getD .null
  | .product, .arr vs =>
    ((int64Items vs).bind (foldChecked (· * ·) 1) |>.map Value.int).getD .null
  | .concat, .arr vs => ((strItems vs).map (fun ss => Value.str (String.join ss))).getD .null
  | .increment, v => ((v.int64?.bind (fun n => checked (n + 1))).map Value.int).getD .null
  | .first, .arr (v :: _) => v
  | .second, .arr (_ :: v :: _) => v
  | .flatten, .arr vs => .arr (splice vs)
  | .readInt, .str s => ((readInt64 s).map Value.int).getD .null
  | _, _ => .null

end Transform

end TokenPeg
