import TokenPeg.Grammar
import TokenPeg.Lexeme
import TokenPeg.Outcome
/-!
  TokenPeg.Grammar.Run

  Running a grammar over a list of tokens from a position. Every attempt that fails
  leaves the input where it started, so the outcome alone says where the input stands
  afterwards (`Outcome.resume`).

  The run is total. Repetitions and separated lists stop as soon as an iteration
  consumes nothing, so each further iteration lies strictly further on in the input;
  calls of named rules spend one unit of fuel each, and a run that exhausts its fuel, or
  calls a rule that does not exist, yields `none`.
-/

namespace TokenPeg

namespace Grammar

variable {α : Type} [Lexeme α] [DecidableEq α]

/-- Matches one token, which `check` either accepts or refuses with a reason. -/
def single (toks : List α) (pos : Nat) (check : α → Option Reason) : Outcome :=
  match toks[pos]? with
  | none => .failed ⟨.endOfInput, pos⟩
  | some t =>
    match check t with
    | some r => .failed ⟨r, pos⟩
    | none => .matched (Lexeme.toValue t) ⟨pos, 1⟩

/-- The refusal of a token that differs from the expected one. -/
def expectToken (e t : α) : Option Reason :=
  if t = e then none else some (.expected (Lexeme.literal e) (Lexeme.literal t))

/-- The refusal of a token outside a set. -/
def expectMember (set : List α) (t : α) : Option Reason :=
  if t ∈ set then none else some (.invalidValue (Lexeme.literal t))

/-- Whether a set, used as the tokens to avoid, rules a token out. -/
def prohibits (set : List α) (t : α) : Bool := decide (t ∈ set)

/-- The refusal of a token inside a set. -/
def expectNonMember (set : List α) (t : α) : Option Reason :=
  if prohibits set t then some (.invalidValue (Lexeme.literal t)) else none

/-- The refusal of a token that fails a test. -/
def expectPassing (test : α → Bool) (desc : String) (t : α) : Option Reason :=
  if test t then none else some (.expected desc (Lexeme.literal t))

/-- What a repetition collected: the values in order, the position it reached, and the
    failure that stopped it, when a failure did. -/
structure Iteration where
  values : List Value
  stop : Nat
  stoppedBy : Option Failure

/-- The outcome of a repetition from `start` with least count `min`. -/
def Iteration.settle (it : Iteration) (start min : Nat) : Outcome :=
  if it.values.length < min then
    .failed (it.stoppedBy.getD ⟨.tooFewRepetitions min it.values.length, it.stop⟩)
  else .matched (.arr it.values) (.since start it.stop)

mutual

/-- Runs a grammar at a position of `toks`, with `fuel` rule calls to spend. -/
def run (rules : Rules α) (toks : List α) (fuel : Nat) (g : Grammar α) (pos : Nat) :
    Option Outcome :=
  match g with
  | .any => some (single toks pos fun _ => none)
  | .token e => some (single toks pos (expectToken e))
  | .oneOf set => some (single toks pos (expectMember set))
  | .noneOf set => some (single toks pos (expectNonMember set))
  | .satisfy test desc => some (single toks pos (expectPassing test desc))
  | .succeed v => some (.matched v (.empty pos))
  | .endOfInput =>
    match toks[pos]? with
    | none => some (.matched .null (.empty pos))
    | some t => some (.failed ⟨.expected "end of input" (Lexeme.literal t), pos⟩)
  | .and a b =>
    (run rules toks fuel a pos).bind fun
      | .failed f => some (.failed f)
      | .matched va sa =>
        (run rules toks fuel b sa.stop).bind fun
          | .failed f => some (.failed f)
          | .matched vb sb => some (.matched (.arr [va, vb]) (.since pos sb.stop))
  | .or a b =>
    (run rules toks fuel a pos).bind fun
      | .matched v s => some (.matched v s)
      | .failed f =>
        (run rules toks fuel b pos).bind fun
          | .matched v s => some (.matched v s)
          | .failed f' => some (.failed (f.furthest f'))
  | .choice alts => runChoice rules toks fuel alts pos none
  | .sequence items =>
    (runSequence rules toks fuel items pos).map fun
      | .error f => .failed f
      | .ok (vs, stop) => .matched (.arr vs) (.since pos stop)
  | .iterate g min max => (runIteration rules toks fuel g max pos).map (·.settle pos min)
  | .sepBy item sep =>
    (run rules toks fuel item pos).bind fun
      | .failed f => some (.failed f)
      | .matched v s =>
        (runSeparated rules toks fuel item sep s.stop).map fun (vs, stop) =>
          .matched (.arr (v :: vs)) (.since pos stop)
  | .optional g =>
    (run rules toks fuel g pos).map fun
      | .matched v s => .matched (Value.ofOption (some v)) s
      | .failed _ => .matched (Value.ofOption none) (.empty pos)
  | .not g =>
    (run rules toks fuel g pos).map fun
      | .matched _ _ =>
        .failed ⟨.rejected "negative lookahead failed: unexpected match", pos⟩
      | .failed _ => .matched .null (.empty pos)
  | .label g name =>
    (run rules toks fuel g pos).map fun
      | .matched v s => .matched v s
      | .failed f => .failed ⟨.labeled name f.reason, f.position⟩
  | .filter g keep message =>
    (run rules toks fuel g pos).map fun
      | .matched v s => if keep v then .matched v s else .failed ⟨.rejected message, pos⟩
      | .failed f => .failed f
  | .map g f =>
    (run rules toks fuel g pos).map fun
      | .matched v s => .matched (f v) s
      | .failed e => .failed e
  | .complete g =>
    (run rules toks fuel g pos).map fun
      | .matched v s =>
        if toks.length ≤ s.stop then .matched v s
        else .failed ⟨.trailingInput (toks.length - s.stop), s.stop⟩
      | .failed f => .failed f
  | .withSpan g =>
    (run rules toks fuel g pos).map fun
      | .matched v s => .matched (.arr [v, Value.ofRange s.start s.stop]) s
      | .failed f => .failed f
  | .rule name =>
    match fuel with
    | 0 => none
    | fuel + 1 => (rules.lookup name).bind fun body => run rules toks fuel body pos
termination_by (fuel, 2 * sizeOf g, 0)

/-- Tries the alternatives in order from `pos`; `best` is the furthest failure so far. -/
def runChoice (rules : Rules α) (toks : List α) (fuel : Nat) (alts : List (Grammar α))
    (pos : Nat) (best : Option Failure) : Option Outcome :=
  match alts with
  | [] => some (.failed (best.getD ⟨.endOfInput, pos⟩))
  | g :: gs =>
    (run rules toks fuel g pos).bind fun
      | .matched v s => some (.matched v s)
      | .failed f =>
        runChoice rules toks fuel gs pos (some (match best with
          | some b => b.furthest f
          | none => f))
termination_by (fuel, 2 * sizeOf alts, 0)

/-- Runs the items one after the other from `pos`: their values and the position after
    the last, or the first failure. -/
def runSequence (rules : Rules α) (toks : List α) (fuel : Nat) (items : List (Grammar α))
    (pos : Nat) : Option (Except Failure (List Value × Nat)) :=
  match items with
  | [] => some (.ok ([], pos))
  | g :: gs =>
    (run rules toks fuel g pos).bind fun
      | .failed f => some (.error f)
      | .matched v s =>
        (runSequence rules toks fuel gs s.stop).map fun
          | .error f => .error f
          | .ok (vs, stop) => .ok (v :: vs, stop)
termination_by (fuel, 2 * sizeOf items, 0)

/-- Repeats `g` from `pos` while the budget of iterations lasts (none means unbounded),
    up to the first failure or the first iteration that consumes nothing. -/
def runIteration (rules : Rules α) (toks : List α) (fuel : Nat) (g : Grammar α)
    (budget : Option Nat) (pos : Nat) : Option Iteration :=
  if budget = some 0 then some ⟨[], pos, none⟩
  else
    (run rules toks fuel g pos).bind fun
      | .failed f => some ⟨[], pos, some f⟩
      | .matched v s =>
        if pos < s.stop ∧ s.stop ≤ toks.length then
          (runIteration rules toks fuel g (budget.map (· - 1)) s.stop).map fun it =>
            ⟨v :: it.values, it.stop, it.stoppedBy⟩
        else some ⟨[v], s.stop, none⟩
termination_by (fuel, 2 * sizeOf g + 1, toks.length + 1 - pos)

/-- Continues a separated list after an item that ended at `pos`: a separator and an
    item, again and again, until one of them fails (giving the separator back) or the
    two together consume nothing. The items' values and the position reached. -/
def runSeparated (rules : Rules α) (toks : List α) (fuel : Nat) (item sep : Grammar α)
    (pos : Nat) : Option (List Value × Nat) :=
  (run rules toks fuel sep pos).bind fun
    | .failed _ => some ([], pos)
    | .matched _ s =>
      (run rules toks fuel item s.stop).bind fun
        | .failed _ => some ([], pos)
        | .matched v s' =>
          if pos < s'.stop ∧ s'.stop ≤ toks.length then
            (runSeparated rules toks fuel item sep s'.stop).map fun (vs, stop) => (v :: vs, stop)
          else some ([v], s'.stop)
termination_by (fuel, 2 * (sizeOf item + sizeOf sep) + 1, toks.length + 1 - pos)

end

end Grammar

end TokenPeg
