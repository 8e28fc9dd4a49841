import TokenPeg.Value
/-!
  TokenPeg.Value.Condition

  Conditions on semantic values, used to accept or reject a match after the fact. A
  condition about a length or an integer is false of a value that has none.
-/

namespace TokenPeg

/-- A condition on a semantic value. -/
inductive Condition where
  /-- Always the given truth value. -/
  | const (b : Bool)
  /-- The length is even. -/
  | lengthEven
  /-- The length is below the bound. -/
  | lengthLt (n : Nat)
  /-- The length is at least the bound. -/
  | lengthGe (n : Nat)
  /-- The value is an even integer. -/
  | intEven
  /-- The value is an integer below the bound. -/
  | intLt (n : Int)
  /-- The value is an integer at least the bound. -/
  | intGe (n : Int)
  /-- The value is `null`. -/
  | isNull
  /-- The value equals the given one. -/
  | eq (v : Value)
  /-- The value differs from the given one. -/
  | ne (v : Value)
  /-- The negation of a condition. -/
  | not (c : Condition)
  /-- Every condition of the list holds. -/
  | all (cs : List Condition)
  /-- Some condition of the list holds. -/
  | any (cs : List Condition)
  deriving Repr, Inhabited

namespace Condition

mutual

/-- Whether a value meets a condition. -/
def holds : Condition → Value → Bool
  | .const b, _ => b
  | .lengthEven, v => (v.length?.map (· % 2 == 0)).getD false
  | .lengthLt n, v => (v.length?.map (fun k => decide (k < n))).getD false
  | .lengthGe n, v => (v.length?.map (fun k => decide (n ≤ k))).getD false
  | .intEven, v => (v.int64?.map (· % 2 == 0)).getD false
  | .intLt n, v => (v.int64?.map (fun k => decide (k < n))).getD false
  | .intGe n, v => (v.int64?.map (fun k => decide (n ≤ k))).getD false
  | .isNull, .null => true
  | .isNull, _ => false
  | .eq w, v => v == w
  | .ne w, v => !(v == w)
  | .not c, v => !holds c v
  | .all cs, v => holdsAll cs v
  | .any cs, v => holdsAny cs v

/-- Whether a value meets every condition of a list. -/
def holdsAll : List Condition → Value → Bool
  | [], _ => true
  | c :: cs, v => holds c v && holdsAll cs v

/-- Whether a value meets some condition of a list. -/
def holdsAny : List Condition → Value → Bool
  | [], _ => false
  | c :: cs, v => holds c v || holdsAny cs v

end

end Condition

end TokenPeg
