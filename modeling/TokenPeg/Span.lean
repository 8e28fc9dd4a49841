import TokenPeg.Outcome
/-!
  TokenPeg.Span

  Half-open ranges of token positions, `[start, stop)`. A range whose stop lies before
  its start is empty and has length zero; slicing it, or slicing past the end of the
  tokens, gives nothing. The range of a match runs from its start to its stop, so it
  never runs backwards, and its length is the count of tokens the match consumed.
-/

namespace TokenPeg

/-- The positions from `start` up to, not including, `stop`. -/
structure Span where
  start : Nat
  stop : Nat
  deriving Repr, DecidableEq, Inhabited

namespace Span

/-- The number of positions in the range. -/
def length (s : Span) : Nat := s.stop - s.start

/-- Whether the range holds no position. -/
def isEmpty (s : Span) : Bool := s.stop ≤ s.start

/-- The tokens in the range, when it is well formed and within the list. -/
def slice {α : Type} (s : Span) (tokens : List α) : Option (List α) :=
  if s.start ≤ s.stop ∧ s.stop ≤ tokens.length then
    some ((tokens.drop s.start).take (s.stop - s.start))
  else none

/-- The range a match covers, from its start to its stop. -/
def ofSuccess (s : Success) : Span := ⟨s.start, s.stop⟩

/-! ## Slices -/

section Slices

variable {α : Type} {s : Span} {tokens xs : List α}

theorem slice_eq_some_iff :
    s.slice tokens = some xs ↔
      s.start ≤ s.stop ∧ s.stop ≤ tokens.length ∧ xs = (tokens.drop s.start).take s.length := by
  unfold slice length
  constructor
  · intro h
    split at h
    · rename_i hbounds
      exact ⟨hbounds.1, hbounds.2, (Option.some.inj h).symm⟩
    · cases h
  · rintro ⟨hle, hstop, rfl⟩
    rw [if_pos ⟨hle, hstop⟩]

/-- A slice that exists holds as many tokens as the range has positions. -/
theorem length_of_slice (h : s.slice tokens = some xs) : xs.length = s.length := by
  obtain ⟨-, hstop, rfl⟩ := slice_eq_some_iff.1 h
  rw [List.length_take, List.length_drop, length]
  omega

/-- The `i`-th token of a slice is the token `i` places after the start of the range. -/
theorem getElem?_of_slice (h : s.slice tokens = some xs) {i : Nat} (hi : i < s.length) :
    xs[i]? = tokens[s.start + i]? := by
  obtain ⟨-, -, rfl⟩ := slice_eq_some_iff.1 h
  rw [List.getElem?_take_of_lt hi, List.getElem?_drop]

/-- A range of `count` positions from `start` that ends within the tokens slices out
    exactly the `count` tokens from `start` on. -/
theorem slice_of_stop_le {start count : Nat} (h : start + count ≤ tokens.length) :
    ∃ xs, (Span.mk start (start + count)).slice tokens = some xs ∧ xs.length = count ∧
      ∀ i < count, xs[i]? = tokens[start + i]? := by
  have hlen : (Span.mk start (start + count)).length = count := by
    simp only [length]
    omega
  have hslice : (Span.mk start (start + count)).slice tokens =
      some ((tokens.drop start).take (Span.mk start (start + count)).length) :=
    slice_eq_some_iff.2 ⟨Nat.le_add_right _ _, h, rfl⟩
  refine ⟨_, hslice, ?_, fun i hi => ?_⟩
  · rw [length_of_slice hslice, hlen]
  · exact getElem?_of_slice hslice (by rw [hlen]; exact hi)

end Slices

/-! ## The range of a match -/

/-- The range of a match has as many positions as the match consumed tokens: its length
    is never clamped. -/
@[simp] theorem length_ofSuccess (s : Success) : (ofSuccess s).length = s.consumed := by
  simp only [ofSuccess, length, Success.stop]
  omega

/-- The range of a match is empty exactly when the match consumed nothing. -/
theorem isEmpty_ofSuccess (s : Success) : (ofSuccess s).isEmpty = true ↔ s.consumed = 0 := by
  rw [isEmpty, decide_eq_true_iff]
  simp only [ofSuccess, Success.stop]
  omega

end Span

end TokenPeg
