import TokenPeg.Proofs.Contract
import TokenPeg.Span
/-
  TokenPeg.Proofs.MatchRange

  The range that `withSpan` pairs a value with. Pairing changes nothing but the value:
  `withSpan g` fails where `g` fails, with the same failure, and matches where `g` matches,
  with the same success and the scanner behind it at the same place. The range it records
  is the range of the match (`Span.ofSuccess`), and by the cursor contract of
  `TokenPeg.Proofs.Contract` a match from a scanner's position starts there and stops
  within the tokens. So the range runs from the scanner's position over the consumed
  tokens, its length is their count with nothing clamped, and slicing the tokens by it
  always gives exactly those tokens.
-/

namespace TokenPeg

namespace Grammar

variable {α : Type} [Lexeme α] [DecidableEq α] {rules : Rules α} {toks : List α}

/-! ## Pairing a match with its range -/

/-- `withSpan g` fails exactly where `g` fails, with the same failure. -/
theorem run_withSpan_eq_failed_iff {fuel pos : Nat} {g : Grammar α} {f : Failure} :
    (withSpan g).run rules toks fuel pos = some (.failed f) ↔
      g.run rules toks fuel pos = some (.failed f) := by
  rw [run]
  cases g.run rules toks fuel pos with
  | none => simp
  | some o => cases o <;> simp

/-- `withSpan g` matches exactly where `g` matches, with the same success, and pairs the
    value of `g` with the range of the match. -/
theorem run_withSpan_eq_matched_iff {fuel pos : Nat} {g : Grammar α} {w : Value}
    {m : Success} :
    (withSpan g).run rules toks fuel pos = some (.matched w m) ↔
      ∃ v, g.run rules toks fuel pos = some (.matched v m) ∧
        w = .arr [v, Value.ofRange (Span.ofSuccess m).start (Span.ofSuccess m).stop] := by
  rw [run]
  cases g.run rules toks fuel pos with
  | none => simp
  | some o =>
    cases o with
    | matched v s =>
      simp only [Option.map_some, Option.some.injEq, Outcome.matched.injEq]
      constructor
      · rintro ⟨rfl, rfl⟩
        exact ⟨v, ⟨rfl, rfl⟩, rfl⟩
      · rintro ⟨v', ⟨rfl, rfl⟩, rfl⟩
        exact ⟨rfl, rfl⟩
    | failed f => simp

/-! ## The range of a match from a scanner -/

/-- The range of a match from a scanner's position runs from that position over the tokens
    the match consumed, and stops within the tokens. -/
theorem ofSuccess_of_run {fuel : Nat} {g : Grammar α} {s : Scanner α} {v : Value}
    {m : Success} (h : g.run rules s.tokens fuel s.position = some (.matched v m)) :
    Span.ofSuccess m = ⟨s.position, s.position + m.consumed⟩ ∧
      s.position + m.consumed ≤ s.tokens.length := by
  obtain ⟨hstart, hstop⟩ := run_respects s.position_le h
  rw [Success.stop, hstart] at hstop
  refine ⟨?_, hstop⟩
  rw [Span.ofSuccess, Success.stop, hstart]

/-- Pairing a grammar's value with the range of its match changes nothing else. From every
    scanner, `withSpan g` fails exactly when `g` fails, with the same failure and the
    scanner back in place, and matches exactly when `g` matches, with the same success and
    the same scanner behind it, its value being `g`'s value paired with the range of the
    match. That range starts at the scanner's position and stops `c` tokens on, `c` the
    count the match consumed: its length is `c`, never clamped; it is empty exactly when
    `c` is zero; and slicing the tokens by it always gives a slice, the `c` tokens from the
    scanner's position on. -/
theorem withSpan_pairs_match_with_its_range (rules : Rules α) (g : Grammar α) (s : Scanner α) :
    (∀ f sc, (withSpan g).parse rules s = some (.failed f, sc) ↔
      g.parse rules s = some (.failed f, sc)) ∧
    ∀ w m sc, (withSpan g).parse rules s = some (.matched w m, sc) ↔
      ∃ v, g.parse rules s = some (.matched v m, sc) ∧
        w = .arr [v, Value.ofRange s.position (s.position + m.consumed)] ∧
        Span.ofSuccess m = ⟨s.position, s.position + m.consumed⟩ ∧
        (Span.ofSuccess m).length = m.consumed ∧
        ((Span.ofSuccess m).isEmpty = true ↔ m.consumed = 0) ∧
        ∃ xs, (Span.ofSuccess m).slice s.tokens = some xs ∧ xs.length = m.consumed ∧
          ∀ i < m.consumed, xs[i]? = s.tokens[s.position + i]? := by
  refine ⟨fun f sc => ?_, fun w m sc => ?_⟩
  · -- a failure leaves the scanner at the start whichever grammar failed
    rw [parse_eq_some_iff, parse_eq_some_iff, run_withSpan_eq_failed_iff]
  · rw [parse_eq_some_iff, run_withSpan_eq_matched_iff]
    constructor
    · rintro ⟨⟨v, hg, rfl⟩, rfl⟩
      obtain ⟨hrange, hstop⟩ := ofSuccess_of_run hg
      obtain ⟨xs, hslice⟩ := Span.slice_of_stop_le hstop
      refine ⟨v, parse_eq_some_iff.2 ⟨hg, rfl⟩, by rw [hrange], hrange,
        Span.length_ofSuccess m, Span.isEmpty_ofSuccess m, xs, ?_⟩
      rw [hrange]
      exact hslice
    · rintro ⟨v, hparse, rfl, hrange, -⟩
      obtain ⟨hg, rfl⟩ := parse_eq_some_iff.1 hparse
      exact ⟨⟨v, hg, by rw [hrange]⟩, rfl⟩

end Grammar

end TokenPeg
