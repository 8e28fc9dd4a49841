/-!
  TokenPeg.Scanner

  A scanner is a cursor over a list of tokens. Its position never passes the end of the
  list: every operation that moves it either steps over one existing token or clamps the
  new position to the length. A checkpoint remembers a position; restoring a checkpoint
  from a longer input moves the cursor to the end.
-/

namespace TokenPeg

/-- What goes wrong when a scanner is asked for a token past the end. -/
inductive ScanError where
  | outOfBounds (position length : Nat)
  deriving Repr, DecidableEq, Inhabited

/-- The text of a scanner error. -/
def ScanError.message : ScanError → String
  | .outOfBounds position length =>
    "scanner out of bounds: position " ++ toString position ++ " in input of length " ++
      toString length

/-- A remembered scanner position. -/
structure Checkpoint where
  position : Nat
  deriving Repr, DecidableEq, Inhabited

/-- A cursor over a list of tokens, never past its end. -/
structure Scanner (α : Type) where
  tokens : List α
  position : Nat
  position_le : position ≤ tokens.length := by omega

namespace Scanner

variable {α : Type}

/-- A scanner at the start of a list. -/
def new (tokens : List α) : Scanner α := ⟨tokens, 0, Nat.zero_le _⟩

/-- A scanner at a given position of a list, or at its end if the position lies beyond. -/
def startingAt (tokens : List α) (position : Nat) : Scanner α :=
  ⟨tokens, min position tokens.length, Nat.min_le_right _ _⟩

/-- The number of tokens. -/
def length (s : Scanner α) : Nat := s.tokens.length

/-- Whether the list is empty. -/
def isEmpty (s : Scanner α) : Bool := s.tokens.isEmpty

/-- Whether the cursor is at the end. -/
def atEnd (s : Scanner α) : Bool := s.tokens.length ≤ s.position

/-- The token under the cursor, if any. -/
def peek (s : Scanner α) : Option α := s.tokens[s.position]?

/-- The token `n` places after the cursor, if any. -/
def peekNth (s : Scanner α) (n : Nat) : Option α := s.tokens[s.position + n]?

/-- The token under the cursor, or an error at the end. -/
def current (s : Scanner α) : Except ScanError α :=
  match s.peek with
  | some t => .ok t
  | none => .error (.outOfBounds s.position s.tokens.length)

/-- The scanner one token further on, or an error at the end. -/
def advance (s : Scanner α) : Except ScanError (Scanner α) :=
  if h : s.position < s.tokens.length then .ok ⟨s.tokens, s.position + 1, h⟩
  else .error (.outOfBounds s.position s.tokens.length)

/-- The tokens from the cursor on. -/
def remaining (s : Scanner α) : List α := s.tokens.drop s.position

/-- The current position, to come back to. -/
def checkpoint (s : Scanner α) : Checkpoint := ⟨s.position⟩

/-- The scanner at a remembered position, clamped to the end of the list. -/
def restore (s : Scanner α) (c : Checkpoint) : Scanner α := startingAt s.tokens c.position

/-! ## The operations through the position and the token list -/

@[simp] theorem position_new (tokens : List α) : (new tokens).position = 0 := rfl

@[simp] theorem tokens_new (tokens : List α) : (new tokens).tokens = tokens := rfl

@[simp] theorem tokens_startingAt (tokens : List α) (position : Nat) :
    (startingAt tokens position).tokens = tokens := rfl

theorem atEnd_iff (s : Scanner α) : s.atEnd = true ↔ s.position = s.tokens.length := by
  have := s.position_le
  simp [atEnd]
  omega

theorem peek_eq_none_iff (s : Scanner α) : s.peek = none ↔ s.atEnd = true := by
  simp [peek, atEnd]

theorem peekNth_eq_some_iff (s : Scanner α) (n : Nat) (t : α) :
    s.peekNth n = some t ↔ ∃ h : s.position + n < s.tokens.length, s.tokens[s.position + n] = t := by
  simp [peekNth, List.getElem?_eq_some_iff]

theorem current_eq_error_iff (s : Scanner α) (e : ScanError) :
    s.current = .error e ↔ s.atEnd = true ∧ e = .outOfBounds s.tokens.length s.tokens.length := by
  unfold current
  cases h : s.peek with
  | some t =>
    have hend : s.atEnd = false := by
      cases hh : s.atEnd
      · rfl
      · have := (peek_eq_none_iff s).2 hh
        rw [h] at this
        cases this
    simp [hend]
  | none =>
    have hend := (peek_eq_none_iff s).1 h
    simp [hend, (atEnd_iff s).1 hend, eq_comm]

theorem advance_eq_ok_iff (s s' : Scanner α) :
    s.advance = .ok s' ↔ s.atEnd = false ∧ s'.tokens = s.tokens ∧ s'.position = s.position + 1 := by
  unfold advance
  have := s.position_le
  split
  · rename_i h
    have hne : s.atEnd = false := by simp [atEnd]; omega
    constructor
    · intro hs
      cases hs
      exact ⟨hne, rfl, rfl⟩
    · rintro ⟨-, ht, hp⟩
      obtain ⟨tokens, position, _⟩ := s'
      simp only at ht hp
      subst ht hp
      rfl
  · rename_i h
    simp only [reduceCtorEq, false_iff, not_and]
    intro hne
    simp [atEnd] at hne
    omega

theorem advance_eq_error_iff (s : Scanner α) (e : ScanError) :
    s.advance = .error e ↔ s.atEnd = true ∧ e = .outOfBounds s.tokens.length s.tokens.length := by
  unfold advance
  have := s.position_le
  split
  · rename_i h
    simp only [reduceCtorEq, false_iff, not_and]
    intro hend
    rw [atEnd_iff] at hend
    omega
  · rename_i h
    have hend : s.position = s.tokens.length := by omega
    simp only [Except.error.injEq, (atEnd_iff s).2 hend, true_and, hend]
    exact eq_comm

@[simp] theorem length_remaining (s : Scanner α) :
    s.remaining.length = s.tokens.length - s.position := by
  simp [remaining]

@[simp] theorem tokens_restore (s : Scanner α) (c : Checkpoint) :
    (s.restore c).tokens = s.tokens := rfl

@[simp] theorem position_restore (s : Scanner α) (c : Checkpoint) :
    (s.restore c).position = min c.position s.tokens.length := rfl

@[simp] theorem position_startingAt (tokens : List α) (position : Nat) :
    (startingAt tokens position).position = min position tokens.length := rfl

/-- Restoring the scanner's own position leaves it as it is. -/
@[simp] theorem restore_position (s : Scanner α) : s.restore ⟨s.position⟩ = s := by
  obtain ⟨tokens, position, position_le⟩ := s
  simp only [restore, startingAt, Nat.min_eq_left position_le]

end Scanner

end TokenPeg
