import TokenPeg.Parse
/-!
  TokenPeg.Session

  Sessions: a scanner driven step by step. Each step looks at the tokens, moves the
  cursor, saves or restores a checkpoint, or parses from the cursor. Saved checkpoints
  are numbered from zero in the order they were made; a checkpoint may also be taken
  from a scanner over other tokens, and restoring it clamps it to this scanner's end.
-/

namespace TokenPeg

/-- One step of a session. -/
inductive Step (α : Type) where
  /-- The token under the cursor. -/
  | current
  /-- The token under the cursor, if any. -/
  | peek
  /-- The token `n` places further on, if any. -/
  | peekNth (n : Nat)
  /-- Move one token on. -/
  | advance
  /-- Whether the cursor is at the end. -/
  | atEnd
  /-- The cursor's position. -/
  | position
  /-- The number of tokens. -/
  | length
  /-- Whether there are no tokens. -/
  | isEmpty
  /-- The tokens from the cursor on. -/
  | remaining
  /-- All the tokens. -/
  | source
  /-- Save the cursor's position. -/
  | checkpoint
  /-- Save the position reached by advancing a scanner over other tokens. -/
  | foreignCheckpoint (tokens : List α) (advances : Nat)
  /-- Go back to a saved position, by its number. -/
  | restore (index : Nat)
  /-- Parse from the cursor. -/
  | parse (g : Grammar α)
  deriving Inhabited

/-- What a step answers. -/
inductive Reply (α : Type) where
  /-- A token. -/
  | token (t : α)
  /-- A token, or none. -/
  | lookahead (t : Option α)
  /-- The step was carried out and has nothing to tell. -/
  | done
  /-- The scanner had no token to give. -/
  | scanError (e : ScanError)
  /-- A truth value. -/
  | flag (b : Bool)
  /-- A count or position. -/
  | count (n : Nat)
  /-- Some tokens. -/
  | tokens (ts : List α)
  /-- A saved position and its number. -/
  | saved (position index : Nat)
  /-- The outcome of a parse. -/
  | parsed (o : Outcome)

/-- Why a session stopped. -/
inductive SessionError where
  /-- Parsing could not run. -/
  | parse (e : ParseError)
  /-- No checkpoint of that number was saved. -/
  | unknownCheckpoint (index : Nat)
  deriving Repr, DecidableEq, Inhabited

/-- The text of a session error. -/
def SessionError.message : SessionError → String
  | .parse (.build e) => e.message
  | .parse .exhausted => "grammar recursion exhausted"
  | .unknownCheckpoint index => "unknown checkpoint: " ++ toString index

namespace Scanner

variable {α : Type}

/-- The scanner `n` tokens further on, or the error of the first advance that finds no
    token. -/
def advanceBy (s : Scanner α) (n : Nat) : Except ScanError (Scanner α) :=
  if h : s.position + n ≤ s.tokens.length then .ok ⟨s.tokens, s.position + n, h⟩
  else .error (.outOfBounds s.tokens.length s.tokens.length)

end Scanner

/-- A scanner with the checkpoints saved so far, oldest first. -/
structure Session (α : Type) where
  scanner : Scanner α
  saved : List Checkpoint

namespace Session

variable {α : Type} [Lexeme α] [DecidableEq α]

/-- Saves a checkpoint and answers its position and number. -/
def save (s : Session α) (c : Checkpoint) : Reply α × Session α :=
  (.saved c.position s.saved.length, { s with saved := s.saved ++ [c] })

/-- Carries out one step. -/
def step (rules : Rules α) (s : Session α) : Step α → Except SessionError (Reply α × Session α)
  | .current =>
    match s.scanner.current with
    | .ok t => .ok (.token t, s)
    | .error e => .ok (.scanError e, s)
  | .peek => .ok (.lookahead s.scanner.peek, s)
  | .peekNth n => .ok (.lookahead (s.scanner.peekNth n), s)
  | .advance =>
    match s.scanner.advance with
    | .ok sc => .ok (.done, { s with scanner := sc })
    | .error e => .ok (.scanError e, s)
  | .atEnd => .ok (.flag s.scanner.atEnd, s)
  | .position => .ok (.count s.scanner.position, s)
  | .length => .ok (.count s.scanner.length, s)
  | .isEmpty => .ok (.flag s.scanner.isEmpty, s)
  | .remaining => .ok (.tokens s.scanner.remaining, s)
  | .source => .ok (.tokens s.scanner.tokens, s)
  | .checkpoint => .ok (s.save s.scanner.checkpoint)
  | .foreignCheckpoint tokens advances =>
    match (Scanner.new tokens).advanceBy advances with
    | .ok other => .ok (s.save other.checkpoint)
    | .error e => .ok (.scanError e, s)
  | .restore index =>
    match s.saved[index]? with
    | some c => .ok (.done, { s with scanner := s.scanner.restore c })
    | none => .error (.unknownCheckpoint index)
  | .parse g =>
    match g.firstError rules.defines with
    | some e => .error (.parse (.build e))
    | none =>
      match g.parse rules s.scanner with
      | some (o, sc) => .ok (.parsed o, { s with scanner := sc })
      | none => .error (.parse .exhausted)

/-- Carries out the steps in order: each reply with the cursor's position after it. -/
def runSteps (rules : Rules α) (s : Session α) :
    List (Step α) → Except SessionError (List (Reply α × Nat))
  | [] => .ok []
  | st :: sts =>
    match s.step rules st with
    | .error e => .error e
    | .ok (r, s') =>
      match s'.runSteps rules sts with
      | .error e => .error e
      | .ok rest => .ok ((r, s'.scanner.position) :: rest)

/-- Checks the rules, then runs the steps on a scanner over `tokens`, at `start` if one
    is given and else at the beginning. -/
def run (rules : Rules α) (tokens : List α) (start : Option Nat) (steps : List (Step α)) :
    Except SessionError (List (Reply α × Nat)) :=
  match rules.firstRuleError with
  | some e => .error (.parse (.build e))
  | none =>
    let scanner := match start with
      | some p => Scanner.startingAt tokens p
      | none => Scanner.new tokens
    (Session.mk scanner []).runSteps rules steps

end Session

end TokenPeg
