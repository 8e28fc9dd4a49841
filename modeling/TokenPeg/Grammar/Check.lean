import TokenPeg.Grammar
/-!
  TokenPeg.Grammar.Check

  The checks a grammar must pass before it runs: every choice has an alternative, no
  repetition has a greatest count below its least, and every rule that is called exists.
  Checking goes depth first, parts from left to right and each part before its parent's
  own condition; the rules come after the main grammar, in the order of their names. The
  first problem met is the one reported.
-/

namespace TokenPeg

/-- A problem that keeps a grammar from running. -/
inductive BuildError where
  /-- A choice without alternatives. -/
  | emptyChoice
  /-- A repetition whose greatest count lies below its least. -/
  | maxBelowMin (max min : Nat)
  /-- A call of a rule that is not defined. -/
  | unknownRule (name : String)
  deriving Repr, DecidableEq, Inhabited

/-- The text of a build error. -/
def BuildError.message : BuildError → String
  | .emptyChoice => "invalid configuration: choice needs at least one alternative"
  | .maxBelowMin max min =>
    "invalid configuration: repetition max " ++ toString max ++ " is below min " ++ toString min
  | .unknownRule name => "unknown definition: " ++ name

namespace Grammar

variable {α : Type}

/-- The problem of a grammar's own form, its parts aside. -/
def ownError (defined : String → Bool) : Grammar α → Option BuildError
  | .choice [] => some .emptyChoice
  | .iterate _ min (some max) => if max < min then some (.maxBelowMin max min) else none
  | .rule name => if defined name then none else some (.unknownRule name)
  | _ => none

mutual

/-- The first problem of a grammar, given which rule names are defined: the parts are
    checked before the grammar's own form. -/
def firstError (defined : String → Bool) (g : Grammar α) : Option BuildError :=
  let parts : Option BuildError :=
    match g with
    | .and a b | .or a b | .sepBy a b => (firstError defined a).or (firstError defined b)
    | .choice gs | .sequence gs => firstErrorAll defined gs
    | .iterate g _ _ | .optional g | .not g | .label g _ | .filter g _ _ | .map g _
    | .complete g | .withSpan g => firstError defined g
    | .rule _ | .any | .token _ | .oneOf _ | .noneOf _ | .satisfy _ _ | .succeed _
    | .endOfInput => none
  parts.or (ownError defined g)

/-- The first problem of a list of grammars, from left to right. -/
def firstErrorAll (defined : String → Bool) : List (Grammar α) → Option BuildError
  | [] => none
  | g :: gs => (firstError defined g).or (firstErrorAll defined gs)

end

end Grammar

namespace Rules

variable {α : Type}

/-- Whether a rule of the given name exists. -/
def defines (rules : Rules α) (name : String) : Bool := rules.any (·.1 == name)

/-- Inserts a rule before the first rule whose name is not smaller. -/
def insertByName (r : String × Grammar α) : Rules α → Rules α
  | [] => [r]
  | r' :: rs => if compare r.1 r'.1 == .gt then r' :: insertByName r rs else r :: r' :: rs

/-- The rules in the order of their names. -/
def byName : Rules α → Rules α
  | [] => []
  | r :: rs => insertByName r (byName rs)

/-- The first problem of the rules, checked in the order of their names. -/
def firstRuleError (rules : Rules α) : Option BuildError :=
  ((byName rules).map (·.2)).findSome? (Grammar.firstError (defines rules))

/-- The first problem of a main grammar together with its rules: the main grammar is
    checked first, then each rule in the order of the names. -/
def firstError (rules : Rules α) (main : Grammar α) : Option BuildError :=
  (main.firstError (defines rules)).or (firstRuleError rules)

end Rules

end TokenPeg
