import TokenPeg.Proofs.Adequacy
/-
  TokenPeg.Proofs.Repetition

  The loop of a repetition, run by run. A repetition of `q`, at least `min` and at most
  `max` times, runs `q` where it stands for as long as it may run again: a failure of `q`
  stops the loop there, a match of `q` that consumed nothing is kept and stops it, and a
  match that consumed is kept and the loop goes on behind it. `Loop` states that loop
  apart from the run, in the manner of the big-step rules of a `while` loop, and
  `runIteration_eq_some_iff` shows it to be exactly what the run does. The repetition then
  answers from its loop alone: the values of the runs when there are at least `min` of
  them, and otherwise the failure that stopped the loop, or too few repetitions when an
  empty run stopped it. A loop that made all the runs it may made at least `min`.

  Two consequences. A repetition bounded by `m` follows the unbounded one run for run
  until the bound cuts it (`Loop.bounded`), so it answers with the first `m` values of
  `many`, or with the failure of `many`'s loop when that made fewer than `min` runs. And
  a separated list is its first item followed by `many` of a separator then an item, the
  item's value put before the others: the separated list's own loop, which stops where the
  separator stood when the separator or the item after it fails, is the repetition's loop
  of the pair (`runSeparated_eq_runIteration` of `TokenPeg.Proofs.Adequacy`).
-/

namespace TokenPeg

/-- How the loop of a repetition ended. -/
inductive LoopEnd where
  /-- The repeated grammar failed where the loop stood, with this failure. -/
  | failure (f : Failure)
  /-- The last run matched without consuming. -/
  | emptyRun
  /-- The loop had made as many runs as it may. -/
  | atMost
  deriving Repr, DecidableEq

/-- The failure a loop ended on, if it ended on one. -/
def LoopEnd.failure? : LoopEnd → Option Failure
  | .failure f => some f
  | _ => none

namespace Value

/-- A value put before an array of values: `[x, [y₁, …, yₙ]]` becomes `[x, y₁, …, yₙ]`. -/
def consItems : Value → Value
  | .arr [x, .arr xs] => .arr (x :: xs)
  | v => v

end Value

namespace Grammar

variable {α : Type}

/-- A separated list written with the other forms: an item, then `many` separators each
    followed by an item, with the first item's value put before the others'. -/
def sepByViaMany (item sep : Grammar α) : Grammar α :=
  .map (.and item (many (seqRight sep item))) Value.consItems

/-- Where a loop that began at `pos` stands after the runs `runs`: behind the last of them,
    or still at `pos` when there are none. -/
def stopAfter : Nat → List (Value × Success) → Nat
  | pos, [] => pos
  | _, r :: runs => stopAfter r.2.stop runs

@[simp] theorem stopAfter_nil (pos : Nat) : stopAfter pos [] = pos := rfl

@[simp] theorem stopAfter_cons (pos : Nat) (r : Value × Success) (runs : List (Value × Success)) :
    stopAfter pos (r :: runs) = stopAfter r.2.stop runs := rfl

/-! ## Counting the runs

The run of a repetition counts down a budget, `max.map (· - count)` after `count` runs; the
loop counts its runs up and asks, as the library does, whether there is no bound or the
count is still below it. -/

/-- The budget is spent exactly when the count has reached the bound. -/
theorem budget_eq_some_zero_iff {max : Option Nat} {count : Nat} :
    max.map (· - count) = some 0 ↔ max.all (count < ·) = false := by
  cases max with
  | none => simp
  | some m =>
    simp only [Option.map_some, Option.some.injEq, Option.all_some, decide_eq_false_iff_not,
      Nat.not_lt]
    omega

/-- The budget is left exactly while the count is below the bound. -/
theorem budget_ne_some_zero_iff {max : Option Nat} {count : Nat} :
    max.map (· - count) ≠ some 0 ↔ max.all (count < ·) = true := by
  rw [Ne, budget_eq_some_zero_iff, Bool.not_eq_false]

/-- One run spends one unit of the budget. -/
theorem budget_pred (max : Option Nat) (count : Nat) :
    (max.map (· - count)).map (· - 1) = max.map (· - (count + 1)) := by
  cases max with
  | none => rfl
  | some m => simp only [Option.map_some, Nat.sub_sub]

/-- Before any run the budget is the bound. -/
theorem budget_zero (max : Option Nat) : max.map (· - 0) = max := by
  cases max <;> rfl

/-- While a loop may run again, its count is below the bound. -/
theorem lt_of_all_lt {max : Option Nat} {count m : Nat} (hroom : max.all (count < ·) = true)
    (hm : m ∈ max) : count < m := by
  rw [Option.mem_def] at hm
  subst hm
  simpa using hroom

/-- A loop that may not run again has reached its bound. -/
theorem exists_le_of_all_lt_eq_false {max : Option Nat} {count : Nat}
    (hfull : max.all (count < ·) = false) : ∃ m ∈ max, m ≤ count := by
  cases max with
  | none => simp at hfull
  | some m => exact ⟨m, rfl, by simpa using hfull⟩

/-! ## The loop -/

variable [Lexeme α] [DecidableEq α]

/-- `Loop rules toks fuel q max count pos runs e`: the loop of a repetition of `q` that may
    make at most `max` runs in all (`none`: no bound), having made `count` of them and
    standing at `pos`, makes the further runs `runs`, each a value with its success, and ends
    as `e` says. While it may run again it runs `q` where it stands. -/
inductive Loop (rules : Rules α) (toks : List α) (fuel : Nat) (q : Grammar α)
    (max : Option Nat) : Nat → Nat → List (Value × Success) → LoopEnd → Prop where
  /-- The loop has made all the runs it may. -/
  | atMost {count pos : Nat} : max.all (count < ·) = false →
      Loop rules toks fuel q max count pos [] .atMost
  /-- `q` fails where the loop stands: the loop stops there. -/
  | failure {count pos : Nat} {f : Failure} : max.all (count < ·) = true →
      q.run rules toks fuel pos = some (.failed f) →
      Loop rules toks fuel q max count pos [] (.failure f)
  /-- `q` matches without consuming: the run is kept, and the loop stops. -/
  | emptyRun {count pos : Nat} {v : Value} {s : Success} : max.all (count < ·) = true →
      q.run rules toks fuel pos = some (.matched v s) → s.consumed = 0 →
      Loop rules toks fuel q max count pos [(v, s)] .emptyRun
  /-- `q` consumes: the run is kept, and the loop goes on behind it. -/
  | more {count pos : Nat} {v : Value} {s : Success} {runs : List (Value × Success)}
      {e : LoopEnd} : max.all (count < ·) = true →
      q.run rules toks fuel pos = some (.matched v s) → 0 < s.consumed →
      Loop rules toks fuel q max (count + 1) s.stop runs e →
      Loop rules toks fuel q max count pos ((v, s) :: runs) e

variable {rules : Rules α} {toks : List α} {fuel : Nat} {q : Grammar α} {max : Option Nat}
  {count pos : Nat} {runs : List (Value × Success)} {e : LoopEnd}

/-- After a match of `q` from where it stands, the run of a repetition goes on exactly when
    the match consumed. -/
theorem goesOn_iff_consumed_pos {v : Value} {s : Success} (hpos : pos ≤ toks.length)
    (hq : q.run rules toks fuel pos = some (.matched v s)) :
    (pos < s.stop ∧ s.stop ≤ toks.length) ↔ 0 < s.consumed := by
  obtain ⟨hstart, hle⟩ := run_respects hpos hq
  rw [Success.stop_eq_of_start hstart] at hle ⊢
  omega

/-- A loop is what the run of a repetition does: the values of its runs, where it stopped,
    and the failure it ended on. -/
theorem Loop.runIteration_eq (h : Loop rules toks fuel q max count pos runs e)
    (hpos : pos ≤ toks.length) :
    runIteration rules toks fuel q (max.map (· - count)) pos =
      some ⟨runs.map Prod.fst, stopAfter pos runs, e.failure?⟩ := by
  induction h with
  | atMost hfull =>
    rw [runIteration, if_pos (budget_eq_some_zero_iff.2 hfull)]
    rfl
  | failure hroom hq =>
    rw [runIteration, if_neg (budget_ne_some_zero_iff.2 hroom), hq, Option.bind_some]
    rfl
  | @emptyRun count pos v s hroom hq hc =>
    have hstay := (goesOn_iff_consumed_pos hpos hq).not.2 (by omega)
    rw [runIteration, if_neg (budget_ne_some_zero_iff.2 hroom), hq, Option.bind_some]
    dsimp only
    rw [if_neg hstay]
    rfl
  | @more count pos v s runs e hroom hq hc _ ih =>
    have hmore := (goesOn_iff_consumed_pos hpos hq).2 hc
    rw [runIteration, if_neg (budget_ne_some_zero_iff.2 hroom), hq, Option.bind_some]
    dsimp only
    rw [if_pos hmore, budget_pred, ih hmore.2, Option.map_some]
    rfl

/-- Every run of a repetition that gives an answer follows a loop. -/
theorem exists_loop_of_runIteration {count pos : Nat} {it : Iteration} (hpos : pos ≤ toks.length)
    (h : runIteration rules toks fuel q (max.map (· - count)) pos = some it) :
    ∃ runs e, Loop rules toks fuel q max count pos runs e ∧
      it = ⟨runs.map Prod.fst, stopAfter pos runs, e.failure?⟩ := by
  rw [runIteration] at h
  split at h
  · rename_i hspent
    cases h
    exact ⟨[], .atMost, .atMost (budget_eq_some_zero_iff.1 hspent), rfl⟩
  · rename_i hspent
    have hroom := budget_ne_some_zero_iff.1 hspent
    obtain ⟨oq, hq, h⟩ := Option.bind_eq_some_iff.1 h
    cases oq with
    | failed f =>
      cases h
      exact ⟨[], .failure f, .failure hroom hq, rfl⟩
    | matched v s =>
      dsimp only at h
      split at h
      · rename_i hmore
        obtain ⟨it', hit', rfl⟩ := Option.map_eq_some_iff.1 h
        rw [budget_pred] at hit'
        obtain ⟨runs, e, hloop, rfl⟩ := exists_loop_of_runIteration hmore.2 hit'
        exact ⟨(v, s) :: runs, e,
          .more hroom hq ((goesOn_iff_consumed_pos hpos hq).1 hmore) hloop, rfl⟩
      · rename_i hstay
        cases h
        have hc : s.consumed = 0 := by
          have := (goesOn_iff_consumed_pos hpos hq).not.1 hstay
          omega
        exact ⟨[(v, s)], .emptyRun, .emptyRun hroom hq hc, rfl⟩
termination_by toks.length + 1 - pos

/-- The run of a repetition is its loop: it gives an answer exactly when a loop runs, and
    the answer is the loop's values, where it stopped and the failure it ended on. -/
theorem runIteration_eq_some_iff {it : Iteration} (hpos : pos ≤ toks.length) :
    runIteration rules toks fuel q (max.map (· - count)) pos = some it ↔
      ∃ runs e, Loop rules toks fuel q max count pos runs e ∧
        it = ⟨runs.map Prod.fst, stopAfter pos runs, e.failure?⟩ := by
  constructor
  · exact exists_loop_of_runIteration hpos
  · rintro ⟨runs, e, hloop, rfl⟩
    exact hloop.runIteration_eq hpos

/-! ## The shape of a loop -/

namespace Loop

/-- A loop makes no more runs than it may. -/
theorem count_add_length_le (h : Loop rules toks fuel q max count pos runs e)
    (hcount : ∀ m ∈ max, count ≤ m) : ∀ m ∈ max, count + runs.length ≤ m := by
  induction h with
  | atMost _ => simpa using hcount
  | failure _ _ => simpa using hcount
  | emptyRun hroom _ _ =>
    intro m hm
    exact lt_of_all_lt hroom hm
  | more hroom _ _ _ ih =>
    intro m hm
    have hlt := lt_of_all_lt hroom hm
    have hrest := ih (fun m' hm' => lt_of_all_lt hroom hm') m hm
    simp only [List.length_cons]
    omega

/-- A loop that ended for making all the runs it may made as many as the bound. -/
theorem exists_le_of_atMost (h : Loop rules toks fuel q max count pos runs e)
    (he : e = .atMost) : ∃ m ∈ max, m ≤ count + runs.length := by
  induction h with
  | atMost hfull => simpa using exists_le_of_all_lt_eq_false hfull
  | failure _ _ => cases he
  | emptyRun _ _ _ => cases he
  | more _ _ _ _ ih =>
    obtain ⟨m, hm, hle⟩ := ih he
    exact ⟨m, hm, by simp only [List.length_cons]; omega⟩

/-- Every run of a loop but the last consumed. -/
theorem consumed_pos_of_mem_dropLast (h : Loop rules toks fuel q max count pos runs e) :
    ∀ r ∈ runs.dropLast, 0 < r.2.consumed := by
  induction h with
  | atMost _ => simp
  | failure _ _ => simp
  | emptyRun _ _ _ => simp
  | @more count pos v s runs e _ _ hc _ ih =>
    cases runs with
    | nil => simp
    | cons r runs =>
      rw [List.dropLast_cons_cons]
      rintro r' (_ | ⟨_, hr'⟩)
      · exact hc
      · exact ih r' hr'

/-- A loop stops at or after where it stands, and within the tokens. -/
theorem le_stopAfter_le (h : Loop rules toks fuel q max count pos runs e)
    (hpos : pos ≤ toks.length) : pos ≤ stopAfter pos runs ∧ stopAfter pos runs ≤ toks.length :=
  ⟨(runIteration_respects hpos (h.runIteration_eq hpos)).1,
    (runIteration_respects hpos (h.runIteration_eq hpos)).2.1⟩

/-- The positions of a loop never go back: each run ends at or after where it began. -/
theorem chain_le (h : Loop rules toks fuel q max count pos runs e) (hpos : pos ≤ toks.length) :
    List.IsChain (· ≤ ·) (pos :: runs.map (·.2.stop)) := by
  induction h with
  | atMost _ => exact .singleton _
  | failure _ _ => exact .singleton _
  | emptyRun _ hq _ =>
    have hstart := (run_respects hpos hq).1
    exact .cons_cons (hstart ▸ Success.start_le_stop _) (.singleton _)
  | more _ hq _ _ ih =>
    obtain ⟨hstart, hle⟩ := run_respects hpos hq
    exact .cons_cons (hstart ▸ Success.start_le_stop _) (ih hle)

/-- The positions of a loop before its last run strictly increase: every run before the
    last consumed, and each run begins where the one before it ended. -/
theorem chain_lt (h : Loop rules toks fuel q max count pos runs e) (hpos : pos ≤ toks.length) :
    List.IsChain (· < ·) (pos :: runs.map (·.2.stop)).dropLast := by
  induction h with
  | atMost _ => simp
  | failure _ _ => simp
  | emptyRun _ _ _ => simp
  | @more count pos v s runs e _ hq hc _ ih =>
    obtain ⟨hstart, hle⟩ := run_respects hpos hq
    have hlt : pos < s.stop := by
      rw [Success.stop_eq_of_start hstart]
      omega
    have hrest := ih hle
    rw [List.map_cons, List.dropLast_cons_cons]
    cases runs with
    | nil => exact .singleton _
    | cons r runs =>
      rw [List.map_cons, List.dropLast_cons_cons] at hrest ⊢
      exact .cons_cons hlt hrest

/-- A loop makes at most one run per position it moves over, and one more. -/
theorem length_le (h : Loop rules toks fuel q max count pos runs e) (hpos : pos ≤ toks.length) :
    runs.length ≤ stopAfter pos runs - pos + 1 := by
  induction h with
  | atMost _ => simp
  | failure _ _ => simp
  | emptyRun _ _ _ => simp
  | @more count pos v s runs e _ hq hc hrest ih =>
    obtain ⟨hstart, hle⟩ := run_respects hpos hq
    have hstop := Success.stop_eq_of_start hstart
    have hbehind := (hrest.le_stopAfter_le hle).1
    have ih := ih hle
    simp only [List.length_cons, stopAfter_cons]
    omega

/-! ## Cutting a loop at a bound -/

/-- A loop that has reached its bound makes no further run. -/
theorem take_of_full {M : Nat} (runs : List (Value × Success)) (hfull : M ≤ count) :
    Loop rules toks fuel q (some M) count pos (runs.take (M - count)) .atMost := by
  rw [Nat.sub_eq_zero_of_le hfull, List.take_zero]
  exact .atMost (by simpa using hfull)

/-- The loop with no bound, cut at `M` runs in all: the runs it made up to the bound, and
    the same end when it ended before the bound. -/
theorem bounded {M : Nat} (h : Loop rules toks fuel q none count pos runs e) (hc : count ≤ M) :
    ∃ e', Loop rules toks fuel q (some M) count pos (runs.take (M - count)) e' ∧
      (count + runs.length < M → e' = e) := by
  induction h with
  | atMost hfull => simp at hfull
  | @failure count pos f _ hq =>
    by_cases hlt : count < M
    · have hroom : (some M).all (count < ·) = true := by simpa using hlt
      rw [List.take_nil]
      exact ⟨_, .failure hroom hq, fun _ => rfl⟩
    · exact ⟨.atMost, take_of_full _ (by omega), fun hbefore => by simp at hbefore; omega⟩
  | @emptyRun count pos v s _ hq hc0 =>
    by_cases hlt : count < M
    · refine ⟨.emptyRun, ?_, fun _ => rfl⟩
      rw [show M - count = (M - count - 1) + 1 by omega, List.take_succ_cons, List.take_nil]
      exact .emptyRun (by simpa using hlt) hq hc0
    · exact ⟨.atMost, take_of_full _ (by omega), fun hbefore => by simp at hbefore; omega⟩
  | @more count pos v s runs e _ hq hc0 _ ih =>
    by_cases hlt : count < M
    · obtain ⟨e', hcut, he'⟩ := ih (by omega)
      refine ⟨e', ?_, fun hbefore => he' (by simp only [List.length_cons] at hbefore; omega)⟩
      rw [show M - count = (M - (count + 1)) + 1 by omega, List.take_succ_cons]
      exact .more (by simpa using hlt) hq hc0 hcut
    · exact ⟨.atMost, take_of_full _ (by omega), fun hbefore => by simp at hbefore; omega⟩

end Loop

/-! ## What a repetition answers -/

/-- A repetition answers from its loop: it settles the loop's values, where the loop
    stopped and the failure it ended on. -/
theorem run_iterate_of_loop {min : Nat} (hpos : pos ≤ toks.length)
    (h : Loop rules toks fuel q max 0 pos runs e) :
    (iterate q min max).run rules toks fuel pos =
      some (Iteration.settle ⟨runs.map Prod.fst, stopAfter pos runs, e.failure?⟩ pos min) := by
  have hrun := h.runIteration_eq hpos
  rw [budget_zero] at hrun
  rw [run, hrun, Option.map_some]

/-- A repetition whose loop made at least `min` runs matches with their values, from where
    it started to where the loop stopped, and the scanner moves there. -/
theorem parse_iterate_of_le {min : Nat} {sc : Scanner α}
    (h : Loop rules sc.tokens (rules.fuelFor sc.tokens) q max 0 sc.position runs e)
    (hmin : min ≤ runs.length) :
    (iterate q min max).parse rules sc =
      some (.matched (.arr (runs.map Prod.fst))
          ⟨sc.position, stopAfter sc.position runs - sc.position⟩,
        sc.restore ⟨stopAfter sc.position runs⟩) := by
  have hbehind := (h.le_stopAfter_le sc.position_le).1
  rw [parse_eq_some_iff, run_iterate_of_loop sc.position_le h, Iteration.settle,
    if_neg (by simpa using hmin)]
  refine ⟨rfl, ?_⟩
  simp only [Outcome.resume, Success.stop_mk, Nat.add_sub_cancel' hbehind]

/-- A repetition whose loop made fewer than `min` runs fails with the failure the loop
    ended on, or for too few repetitions where the loop stopped, and the scanner stays. -/
theorem parse_iterate_of_lt {min : Nat} {sc : Scanner α}
    (h : Loop rules sc.tokens (rules.fuelFor sc.tokens) q max 0 sc.position runs e)
    (hmin : runs.length < min) :
    (iterate q min max).parse rules sc =
      some (.failed (e.failure?.getD
        ⟨.tooFewRepetitions min runs.length, stopAfter sc.position runs⟩), sc) := by
  rw [parse_eq_some_iff, run_iterate_of_loop sc.position_le h, Iteration.settle,
    if_pos (by simpa using hmin)]
  refine ⟨by simp, ?_⟩
  rw [Outcome.resume, Scanner.restore_position]

/-- A repetition of `q`, at least `min` and at most `max` times with `min` within the bound,
    answers by its loop from the scanner's position `p`, whose runs end at `x₁, x₂, …, xₖ`.
    It matches exactly when `min ≤ k`, with the runs' values in order, from `p` to where
    the loop stopped, `xₖ`, and moves the scanner there. The loop makes at most `max` runs;
    every run but the last consumed, so `p = x₀ < x₁ < … < xₖ₋₁ ≤ xₖ`, the loop stops
    within the tokens and makes at most one run per position it moves over, and one more.
    With fewer than `min` runs, the repetition fails with the failure of `q` that stopped
    the loop, or for too few repetitions at `xₖ` when an empty run stopped it, and the
    scanner stays where it was; a loop that made all the runs it may never ends so. -/
theorem repetition_answers_by_its_loop (rules : Rules α) (q : Grammar α) (min : Nat)
    (max : Option Nat) (hbounds : ∀ m ∈ max, min ≤ m) (sc : Scanner α)
    (runs : List (Value × Success)) (e : LoopEnd)
    (hloop : Loop rules sc.tokens (rules.fuelFor sc.tokens) q max 0 sc.position runs e) :
    (min ≤ runs.length ↔
      (iterate q min max).parse rules sc =
        some (.matched (.arr (runs.map Prod.fst))
            ⟨sc.position, stopAfter sc.position runs - sc.position⟩,
          sc.restore ⟨stopAfter sc.position runs⟩)) ∧
    (∀ m ∈ max, runs.length ≤ m) ∧
    (∀ r ∈ runs.dropLast, 0 < r.2.consumed) ∧
    List.IsChain (· < ·) (sc.position :: runs.map (·.2.stop)).dropLast ∧
    List.IsChain (· ≤ ·) (sc.position :: runs.map (·.2.stop)) ∧
    stopAfter sc.position runs ≤ sc.tokens.length ∧
    runs.length ≤ stopAfter sc.position runs - sc.position + 1 ∧
    (runs.length < min →
      (∀ f, e = .failure f → (iterate q min max).parse rules sc = some (.failed f, sc)) ∧
      (e = .emptyRun → (iterate q min max).parse rules sc =
        some (.failed ⟨.tooFewRepetitions min runs.length, stopAfter sc.position runs⟩, sc)) ∧
      e ≠ .atMost) := by
  have hpos := sc.position_le
  refine ⟨⟨parse_iterate_of_le hloop, fun hmatch => ?_⟩, fun m hm => ?_,
    hloop.consumed_pos_of_mem_dropLast, hloop.chain_lt hpos, hloop.chain_le hpos,
    (hloop.le_stopAfter_le hpos).2, hloop.length_le hpos,
    fun hlt => ⟨fun f hf => ?_, fun he => ?_, ?_⟩⟩
  · -- with fewer runs the repetition would fail
    by_contra hlt
    rw [parse_iterate_of_lt hloop (Nat.lt_of_not_le hlt)] at hmatch
    cases hmatch
  · simpa using hloop.count_add_length_le (fun m _ => Nat.zero_le m) m hm
  · rw [parse_iterate_of_lt hloop hlt, hf]
    rfl
  · rw [parse_iterate_of_lt hloop hlt, he]
    rfl
  · -- a loop that made all its runs made at least the bound, hence at least `min`
    rintro rfl
    obtain ⟨m, hm, hle⟩ := hloop.exists_le_of_atMost rfl
    have := hbounds m hm
    omega

/-- Three of four `a`s, at least one and at most three: the loop stops at its bound behind the
    third `a`, and the repetition matches the three. -/
theorem repeat_stops_at_its_bound :
    (iterate (.token 'a') 1 (some 3)).parse ([] : Rules Char) (Scanner.new ['a', 'a', 'a', 'a']) =
      some (.matched (.arr [Lexeme.toValue 'a', Lexeme.toValue 'a', Lexeme.toValue 'a']) ⟨0, 3⟩,
        (Scanner.new ['a', 'a', 'a', 'a']).restore ⟨3⟩) :=
  (repetition_answers_by_its_loop [] (.token 'a') 1 (some 3) (fun m hm => by cases hm; decide)
    (Scanner.new ['a', 'a', 'a', 'a'])
    [(Lexeme.toValue 'a', ⟨0, 1⟩), (Lexeme.toValue 'a', ⟨1, 1⟩), (Lexeme.toValue 'a', ⟨2, 1⟩)]
    .atMost
    (.more rfl (by simp [run, single, expectToken]) (by decide)
      (.more rfl (by simp [run, single, expectToken]) (by decide)
        (.more rfl (by simp [run, single, expectToken]) (by decide) (.atMost rfl))))).1.1
    (by decide)

/-- A repetition of `q` at least `min` times, bounded by `m ≥ min` or not, against `many q`,
    from the scanner's position `p`, where the loop of `many q` makes the runs `runs`, the
    `i`-th ending at `xᵢ`. `many q` never fails: it matches with the values of all the runs,
    from `p` to `xₖ`. With at least `min` runs the bounded repetition matches with the first
    `m` of those values, from `p` to where the last run it keeps ends, and the unbounded one
    matches as `many q` does. With fewer, both fail alike: with the failure that stopped the
    loop, or for too few repetitions at `xₖ` when an empty run stopped it, and the scanner
    stays where it was. -/
theorem bounded_repetition_takes_from_many (rules : Rules α) (q : Grammar α) (min m : Nat)
    (hmin : min ≤ m) (sc : Scanner α) (runs : List (Value × Success)) (e : LoopEnd)
    (hmany : Loop rules sc.tokens (rules.fuelFor sc.tokens) q none 0 sc.position runs e) :
    (many q).parse rules sc =
      some (.matched (.arr (runs.map Prod.fst))
          ⟨sc.position, stopAfter sc.position runs - sc.position⟩,
        sc.restore ⟨stopAfter sc.position runs⟩) ∧
    (min ≤ runs.length →
      (iterate q min (some m)).parse rules sc =
        some (.matched (.arr ((runs.map Prod.fst).take m))
            ⟨sc.position, stopAfter sc.position (runs.take m) - sc.position⟩,
          sc.restore ⟨stopAfter sc.position (runs.take m)⟩) ∧
      (iterate q min none).parse rules sc = (many q).parse rules sc) ∧
    (runs.length < min →
      (iterate q min (some m)).parse rules sc = (iterate q min none).parse rules sc ∧
      (iterate q min none).parse rules sc =
        some (.failed (e.failure?.getD
          ⟨.tooFewRepetitions min runs.length, stopAfter sc.position runs⟩), sc)) := by
  obtain ⟨e', hcut, hsame⟩ := hmany.bounded (Nat.zero_le m)
  rw [Nat.sub_zero] at hcut
  have hmany_parse := parse_iterate_of_le hmany (Nat.zero_le runs.length)
  refine ⟨hmany_parse, fun hle => ⟨?_, ?_⟩, fun hlt => ⟨?_, parse_iterate_of_lt hmany hlt⟩⟩
  · -- the bound keeps the first `m` runs, and at least `min` of them
    have hkept : min ≤ (runs.take m).length := by
      rw [List.length_take]
      omega
    rw [parse_iterate_of_le hcut hkept, List.map_take]
  · rw [parse_iterate_of_le hmany hle]
    exact hmany_parse.symm
  · -- below `min` the bound is never reached: the two loops are one
    rw [List.take_of_length_le (by omega), hsame (by omega)] at hcut
    rw [parse_iterate_of_lt hcut hlt, parse_iterate_of_lt hmany hlt]

/-- On `aab`, at least three `a`s fail alike with a bound of four or with none: the loop
    stops at the `b` after two runs. -/
theorem too_few_repetitions_fail_alike_with_or_without_bound :
    (iterate (.token 'a') 3 (some 4)).parse ([] : Rules Char) (Scanner.new ['a', 'a', 'b']) =
      (iterate (.token 'a') 3 none).parse ([] : Rules Char) (Scanner.new ['a', 'a', 'b']) :=
  ((bounded_repetition_takes_from_many [] (.token 'a') 3 4 (by decide)
    (Scanner.new ['a', 'a', 'b']) [(Lexeme.toValue 'a', ⟨0, 1⟩), (Lexeme.toValue 'a', ⟨1, 1⟩)]
    (.failure ⟨.expected (Lexeme.literal 'a') (Lexeme.literal 'b'), 2⟩)
    (.more rfl (by simp [run, single, expectToken]) (by decide)
      (.more rfl (by simp [run, single, expectToken]) (by decide)
        (.failure rfl (by simp [run, single, expectToken]))))).2.2 (by decide)).1

/-! ## Separated lists -/

/-- Repeating a grammar whose values are transformed repeats the grammar and transforms the
    values. -/
theorem runIteration_map {g : Grammar α} {f : Value → Value} {budget : Option Nat} {pos : Nat} :
    runIteration rules toks fuel (.map g f) budget pos =
      (runIteration rules toks fuel g budget pos).map fun it =>
        ⟨it.values.map f, it.stop, it.stoppedBy⟩ := by
  unfold runIteration
  by_cases hspent : budget = some 0
  · rw [if_pos hspent, if_pos hspent]
    rfl
  · rw [if_neg hspent, if_neg hspent, run]
    cases g.run rules toks fuel pos with
    | none => rfl
    | some o =>
      cases o with
      | failed f => rfl
      | matched v s =>
        simp only [Option.map_some, Option.bind_some]
        by_cases hmore : pos < s.stop ∧ s.stop ≤ toks.length
        · rw [if_pos hmore, if_pos hmore, runIteration_map]
          cases runIteration rules toks fuel g (budget.map (· - 1)) s.stop with
          | none => rfl
          | some it => rfl
        · rw [if_neg hmore, if_neg hmore]
          rfl
termination_by toks.length + 1 - pos

/-- The rest of a separated list is `many` of a separator then an item. -/
theorem runSeparated_eq_runIteration_seqRight {item sep : Grammar α} (hpos : pos ≤ toks.length) :
    runSeparated rules toks fuel item sep pos =
      (runIteration rules toks fuel (seqRight sep item) none pos).map fun it =>
        (it.values, it.stop) := by
  rw [runSeparated_eq_runIteration hpos, seqRight, runIteration_map, Option.map_map]
  rfl

/-- A separated list runs as its first item followed by `many` of a separator then an item. -/
theorem run_sepBy_eq_run_sepByViaMany {item sep : Grammar α} (hpos : pos ≤ toks.length) :
    (sepBy item sep).run rules toks fuel pos = (sepByViaMany item sep).run rules toks fuel pos := by
  rw [sepByViaMany, run, run, run]
  cases hi : item.run rules toks fuel pos with
  | none => rfl
  | some oi =>
    cases oi with
    | failed f => rfl
    | matched v s =>
      have hle := (run_respects hpos hi).2
      simp only [Option.bind_some]
      rw [runSeparated_eq_runIteration_seqRight hle, many, run]
      cases hit : runIteration rules toks fuel (seqRight sep item) none s.stop with
      | none => rfl
      | some it =>
        -- the repetition's success ends where its loop stopped
        have hbehind := (runIteration_respects hle hit).1
        simp [Iteration.settle, Value.consItems, Success.stop_since hbehind]

/-- A separated list fails only as its first item does. -/
theorem run_sepBy_eq_failed_iff {item sep : Grammar α} {f : Failure} :
    (sepBy item sep).run rules toks fuel pos = some (.failed f) ↔
      item.run rules toks fuel pos = some (.failed f) := by
  rw [run]
  cases item.run rules toks fuel pos with
  | none => simp
  | some o =>
    cases o with
    | failed f' => simp
    | matched v s =>
      simp only [Option.bind_some]
      constructor
      · intro h
        obtain ⟨_, _, h⟩ := Option.map_eq_some_iff.1 h
        cases h
      · intro h
        cases h

/-- After a first item that matched, a separated list runs the loop of a separator then an
    item from behind it, and matches with the first item's value before the loop's values. -/
theorem parse_sepBy_of_loop {item sep : Grammar α} {sc : Scanner α} {v : Value} {s : Success}
    (hitem : item.run rules sc.tokens (rules.fuelFor sc.tokens) sc.position = some (.matched v s))
    (hloop : Loop rules sc.tokens (rules.fuelFor sc.tokens) (seqRight sep item) none 0 s.stop
      runs e) :
    (sepBy item sep).parse rules sc =
      some (.matched (.arr (v :: runs.map Prod.fst))
          ⟨sc.position, stopAfter s.stop runs - sc.position⟩,
        sc.restore ⟨stopAfter s.stop runs⟩) := by
  obtain ⟨hstart, hle⟩ := run_respects sc.position_le hitem
  have hrest := hloop.runIteration_eq hle
  rw [budget_zero] at hrest
  -- the list ends at or after where its first item ended
  have hfrom : sc.position ≤ stopAfter s.stop runs :=
    Nat.le_trans (hstart ▸ s.start_le_stop) (hloop.le_stopAfter_le hle).1
  rw [parse_eq_some_iff, run, hitem, Option.bind_some]
  dsimp only
  rw [runSeparated_eq_runIteration_seqRight hle, hrest]
  refine ⟨rfl, ?_⟩
  simp only [Outcome.resume, Success.stop_mk, Nat.add_sub_cancel' hfrom]

/-- A separated list is its first item followed by `many` of a separator then an item, with
    the first item's value put before the others': from every scanner the two give the same
    values, the same success or the same failure, and leave the scanner at the same place.
    The only failure is the first item's own. After a first item that matched, the list goes
    on with the loop of a separator then an item: a separator that fails, or an item after a
    separator that fails, is given back, and a separator and item that together consumed
    nothing are kept and end the list. -/
theorem separated_list_is_item_then_many (rules : Rules α) (item sep : Grammar α)
    (sc : Scanner α) :
    (sepBy item sep).parse rules sc = (sepByViaMany item sep).parse rules sc ∧
    (∀ f sc', (sepBy item sep).parse rules sc = some (.failed f, sc') ↔
      item.parse rules sc = some (.failed f, sc')) ∧
    (∀ v s runs e,
      item.run rules sc.tokens (rules.fuelFor sc.tokens) sc.position = some (.matched v s) →
      Loop rules sc.tokens (rules.fuelFor sc.tokens) (seqRight sep item) none 0 s.stop runs e →
      (sepBy item sep).parse rules sc =
        some (.matched (.arr (v :: runs.map Prod.fst))
            ⟨sc.position, stopAfter s.stop runs - sc.position⟩,
          sc.restore ⟨stopAfter s.stop runs⟩)) := by
  refine ⟨?_, fun f sc' => ?_, fun v s runs e hitem hloop => parse_sepBy_of_loop hitem hloop⟩
  · unfold parse
    rw [run_sepBy_eq_run_sepByViaMany sc.position_le]
  · rw [parse_eq_some_iff, parse_eq_some_iff, run_sepBy_eq_failed_iff]

/-- In `a,b,` the trailing separator is given back: the list holds `a` and `b` and stops
    behind the `b`. -/
theorem separated_list_gives_back_trailing_separator :
    (sepBy (.noneOf [',']) (.token ',')).parse ([] : Rules Char)
        (Scanner.new ['a', ',', 'b', ',']) =
      some (.matched (.arr [Lexeme.toValue 'a', Lexeme.toValue 'b']) ⟨0, 3⟩,
        (Scanner.new ['a', ',', 'b', ',']).restore ⟨3⟩) :=
  (separated_list_is_item_then_many [] (.noneOf [',']) (.token ',')
    (Scanner.new ['a', ',', 'b', ','])).2.2 (Lexeme.toValue 'a') ⟨0, 1⟩
    [(Lexeme.toValue 'b', ⟨1, 2⟩)] (.failure ⟨.endOfInput, 4⟩)
    (by simp [run, single, expectNonMember, prohibits])
    (.more rfl (by simp [seqRight, run, single, expectToken, expectNonMember, prohibits,
        Value.item, Success.since]) (by decide)
      (.failure rfl (by simp [seqRight, run, single, expectToken, expectNonMember, prohibits])))

end Grammar

end TokenPeg
