import TokenPeg.Value
/-!
  TokenPeg.Outcome

  What running a grammar at a position yields: a success, which records where the match
  starts and how many tokens it consumed, with the match's value; or a failure, which
  records why the match failed and at which position that was detected. The position of
  a failure may lie beyond the start of the attempt, when a later part of the grammar
  failed.
-/

namespace TokenPeg

/-- A successful match: it starts at `start` and consumed `consumed` tokens. -/
structure Success where
  start : Nat
  consumed : Nat
  deriving Repr, DecidableEq, Inhabited

namespace Success

/-- The position right after the match. -/
def stop (s : Success) : Nat := s.start + s.consumed

/-- The match from `start` to `stop`; a stop before the start counts as an empty match. -/
def since (start stop : Nat) : Success := ⟨start, stop - start⟩

/-- The empty match at a position. -/
def empty (position : Nat) : Success := ⟨position, 0⟩

@[simp] theorem stop_since {start stop : Nat} (h : start ≤ stop) :
    (since start stop).stop = stop := by
  simp [since, Success.stop]; omega

@[simp] theorem stop_empty (position : Nat) : (empty position).stop = position := by
  simp [empty, Success.stop]

end Success

/-- Why a match failed. -/
inductive Reason where
  /-- A token was needed and none was left. -/
  | endOfInput
  /-- A token was refused by a set; the token's literal is given. -/
  | invalidValue (shown : String)
  /-- Something else was expected where the token stands. -/
  | expected (wanted found : String)
  /-- A repetition stopped before reaching its least count. -/
  | tooFewRepetitions (min found : Nat)
  /-- A match that had to reach the end of the input left tokens over. -/
  | trailingInput (remaining : Nat)
  /-- A match was refused by a check of its own. -/
  | rejected (message : String)
  /-- A reason with a label in front, naming the part of the grammar that failed. -/
  | labeled (label : String) (inner : Reason)
  deriving Repr, DecidableEq, Inhabited

/-- The text of a reason. -/
def Reason.message : Reason → String
  | .endOfInput => "unexpected end of input"
  | .invalidValue shown => "invalid value " ++ shown
  | .expected wanted found => "expected " ++ wanted ++ ", found " ++ found
  | .tooFewRepetitions min found =>
    "expected at least " ++ toString min ++ " repetitions, found " ++ toString found
  | .trailingInput remaining => toString remaining ++ " unconsumed tokens after a complete match"
  | .rejected message => message
  | .labeled label inner => label ++ ": " ++ inner.message

/-- A failed match: its reason, and the position at which the failure was detected. -/
structure Failure where
  reason : Reason
  position : Nat
  deriving Repr, DecidableEq, Inhabited

namespace Failure

/-- The text of a failure. -/
def message (f : Failure) : String :=
  f.reason.message ++ " at position " ++ toString f.position

/-- Of two failures, the one detected further on; on a tie, the first. -/
def furthest (f g : Failure) : Failure := if f.position < g.position then g else f

theorem furthest_assoc (f g h : Failure) :
    furthest (furthest f g) h = furthest f (furthest g h) := by
  unfold furthest
  by_cases hfg : f.position < g.position <;> by_cases hgh : g.position < h.position <;>
    by_cases hfh : f.position < h.position <;> simp [hfg, hgh, hfh] <;> omega

end Failure

/-- The outcome of running a grammar at a position. -/
inductive Outcome where
  | matched (value : Value) (success : Success)
  | failed (failure : Failure)
  deriving Repr, Inhabited

namespace Outcome

/-- The number of tokens an outcome consumed: none for a failure. -/
def consumed : Outcome → Nat
  | .matched _ s => s.consumed
  | .failed _ => 0

/-- Where an outcome is located: the start of a match, the position of a failure. -/
def position : Outcome → Nat
  | .matched _ s => s.start
  | .failed f => f.position

/-- Where the input stands after an attempt begun at `start`: after a match, right behind
    it; after a failure, back at the start. -/
def resume (start : Nat) : Outcome → Nat
  | .matched _ s => s.stop
  | .failed _ => start

end Outcome

end TokenPeg
