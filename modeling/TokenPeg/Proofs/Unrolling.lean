import TokenPeg.Proofs.Repetition
/-!
  TokenPeg.Proofs.Unrolling

  One or more repetitions of `q` against `q` followed by `many q`. The textbook law
  `e+ = e e*` holds here only where the first run of `q` consumes. A repetition stops right
  after a run that consumed nothing, and keeps it; so where `q` matches empty, `many1 q`
  keeps that one run and stops, while `q` followed by `many q` runs `q` a second time at
  the same place, where it matches empty again and is kept again. The two then match alike,
  over nothing, but with one value against two.

  The proof takes the first turn off the repetition's loop: a run that fails ends the loop
  with its failure (`runIteration_of_failed`), a run that matched empty ends it with that run
  (`runIteration_of_empty`), and a run that consumed lets the loop go on behind it with its
  bound spent by one (`runIteration_of_consumed`), which for `many1` is the loop of `many`
  from there.
-/

namespace TokenPeg

namespace Grammar

variable {α : Type}

/-- `q` followed by `many q`, with the first value put before the others'. -/
def firstThenMany (q : Grammar α) : Grammar α := .map (.and q (many q)) Value.consItems

variable [Lexeme α] [DecidableEq α] {rules : Rules α} {toks : List α} {fuel : Nat}
  {q : Grammar α} {budget : Option Nat} {pos : Nat}

/-! ## One turn of the loop -/

/-- A run that fails ends the loop where it stands, with that failure. -/
theorem runIteration_of_failed {f : Failure} (hb : budget ≠ some 0)
    (hq : q.run rules toks fuel pos = some (.failed f)) :
    runIteration rules toks fuel q budget pos = some ⟨[], pos, some f⟩ := by
  rw [runIteration, if_neg hb, hq, Option.bind_some]

/-- A run that matched empty is kept and ends the loop where it stands. -/
theorem runIteration_of_empty {v : Value} {s : Success} (hpos : pos ≤ toks.length)
    (hb : budget ≠ some 0) (hq : q.run rules toks fuel pos = some (.matched v s))
    (hc : s.consumed = 0) :
    runIteration rules toks fuel q budget pos = some ⟨[v], pos, none⟩ := by
  have hstay := (goesOn_iff_consumed_pos hpos hq).not.2 (by omega)
  have hstop : s.stop = pos := by
    rw [Success.stop_eq_of_start (run_respects hpos hq).1, hc, Nat.add_zero]
  rw [runIteration, if_neg hb, hq, Option.bind_some]
  dsimp only
  rw [if_neg hstay, hstop]

/-- A run that consumed is kept, and the loop goes on behind it with one turn less. -/
theorem runIteration_of_consumed {v : Value} {s : Success} (hpos : pos ≤ toks.length)
    (hb : budget ≠ some 0) (hq : q.run rules toks fuel pos = some (.matched v s))
    (hc : 0 < s.consumed) :
    runIteration rules toks fuel q budget pos =
      (runIteration rules toks fuel q (budget.map (· - 1)) s.stop).map fun it =>
        ⟨v :: it.values, it.stop, it.stoppedBy⟩ := by
  rw [runIteration, if_neg hb, hq, Option.bind_some]
  dsimp only
  rw [if_pos ((goesOn_iff_consumed_pos hpos hq).2 hc)]

/-! ## `many1` against `q` then `many q` -/

/-- Where `q` fails or consumes, `many1 q` runs as `q` followed by `many q`. -/
theorem run_many1_eq_firstThenMany (hpos : pos ≤ toks.length)
    (hq : ∀ v s, q.run rules toks fuel pos = some (.matched v s) → 0 < s.consumed) :
    (many1 q).run rules toks fuel pos = (firstThenMany q).run rules toks fuel pos := by
  have hb : (none : Option Nat) ≠ some 0 := (Option.some_ne_none 0).symm
  rw [many1, firstThenMany, run, run, run]
  cases hr : q.run rules toks fuel pos with
  | none =>
    rw [runIteration, if_neg hb, hr]
    rfl
  | some o =>
    cases o with
    | failed f =>
      rw [runIteration_of_failed hb hr]
      rfl
    | matched v s =>
      have hc := hq v s hr
      have hle := (run_respects hpos hr).2
      have hnone : (none : Option Nat).map (· - 1) = none := rfl
      rw [runIteration_of_consumed hpos hb hr hc, hnone, Option.bind_some]
      dsimp only
      rw [many, run]
      cases hit : runIteration rules toks fuel q none s.stop with
      | none => rfl
      | some it =>
        -- the loop of `many` stops at or after where the first run stopped
        have hbehind := (runIteration_respects hle hit).1
        simp [Iteration.settle, Value.consItems, Success.stop_since hbehind]

/-- Where `q` matches empty, `many1 q` keeps that one run, and `q` followed by `many q` runs
    it twice at the same place: both match empty, with one value against two. -/
theorem run_many1_of_empty {v : Value} {s : Success} (hpos : pos ≤ toks.length)
    (hq : q.run rules toks fuel pos = some (.matched v s)) (hc : s.consumed = 0) :
    (many1 q).run rules toks fuel pos = some (.matched (.arr [v]) ⟨pos, 0⟩) ∧
      (firstThenMany q).run rules toks fuel pos = some (.matched (.arr [v, v]) ⟨pos, 0⟩) := by
  have hb : (none : Option Nat) ≠ some 0 := (Option.some_ne_none 0).symm
  have hloop := runIteration_of_empty hpos hb hq hc
  have hstop : s.stop = pos := by
    rw [Success.stop_eq_of_start (run_respects hpos hq).1, hc, Nat.add_zero]
  refine ⟨?_, ?_⟩
  · rw [many1, run, hloop, Option.map_some]
    simp [Iteration.settle, Success.since]
  · rw [firstThenMany, run, run, hq, Option.bind_some]
    dsimp only
    rw [hstop, many, run, hloop]
    simp [Iteration.settle, Value.consItems, Success.since]

/-- One or more repetitions of `q` against `q` followed by `many q`, the first value put
    before the others', from every scanner. Where `q` does not match empty, because it fails
    or consumes, the two give the same answer: the same values over the same success, or
    the same failure, and the scanner left at the same place. Where `q` matches empty with
    value `v`, both match empty where the scanner stands and leave it there, but `many1 q`
    with `[v]` and the other with `[v, v]`. -/
theorem one_or_more_is_one_then_many (rules : Rules α) (q : Grammar α) (sc : Scanner α) :
    ((∀ v s sc', q.parse rules sc = some (.matched v s, sc') → 0 < s.consumed) →
      (many1 q).parse rules sc = (firstThenMany q).parse rules sc) ∧
    (∀ v s sc', q.parse rules sc = some (.matched v s, sc') → s.consumed = 0 →
      (many1 q).parse rules sc = some (.matched (.arr [v]) ⟨sc.position, 0⟩, sc) ∧
      (firstThenMany q).parse rules sc = some (.matched (.arr [v, v]) ⟨sc.position, 0⟩, sc)) := by
  refine ⟨fun hcons => ?_, fun v s sc' hmatch hc => ?_⟩
  · unfold parse
    rw [run_many1_eq_firstThenMany sc.position_le
      fun v s h => hcons v s _ (parse_eq_some_iff.2 ⟨h, rfl⟩)]
  · obtain ⟨hrun, -⟩ := parse_eq_some_iff.1 hmatch
    obtain ⟨hmany1, hfirst⟩ := run_many1_of_empty sc.position_le hrun hc
    -- an empty match leaves the scanner where it stood
    have hstay : sc.restore ⟨sc.position + 0⟩ = sc := by
      rw [Nat.add_zero, Scanner.restore_position]
    exact ⟨parse_eq_some_iff.2 ⟨hmany1, hstay.symm⟩, parse_eq_some_iff.2 ⟨hfirst, hstay.symm⟩⟩

end Grammar

end TokenPeg
