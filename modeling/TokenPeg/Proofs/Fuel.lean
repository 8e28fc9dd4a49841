import TokenPeg.Proofs.Termination
/-
  TokenPeg.Proofs.Fuel

  Fuel is only a bound on rule calls, never a part of the answer. More fuel keeps a
  finished answer (`run_mono`); and the fuel a parse gets, `Rules.fuelFor`, is enough for
  every attempt that some fuel finishes (`run_fuelFor_of_run`). So whatever a grammar gives
  with any amount of fuel, a parse gives too, left recursion or not.

  Sufficiency rests on the budget of `TokenPeg.Proofs.Termination`, counted along a finished
  run instead of along the grammar. Take the least fuel with which a rule finishes at a
  position: with one unit less it does not finish there, and neither does any rule that
  is already being called at that position. So a finished run never calls a rule at a
  position inside a call of the same rule at the same position, and the budget covers it.
-/

namespace TokenPeg

namespace Grammar

variable {α : Type} [Lexeme α] [DecidableEq α] {rules : Rules α} {toks : List α}

/-! ## More fuel keeps a finished answer -/

mutual

/-- One more unit of fuel keeps a finished answer. -/
theorem run_succ {fuel : Nat} {g : Grammar α} {pos : Nat} {o : Outcome}
    (h : g.run rules toks fuel pos = some o) : g.run rules toks (fuel + 1) pos = some o := by
  match g with
  | .any | .token _ | .oneOf _ | .noneOf _ | .satisfy _ _ | .succeed _ | .endOfInput =>
    rw [run] at h ⊢
    exact h
  | .and a b =>
    rw [run] at h ⊢
    obtain ⟨oa, ha, h⟩ := Option.bind_eq_some_iff.1 h
    rw [run_succ ha, Option.bind_some]
    cases oa with
    | failed f => exact h
    | matched va sa =>
      dsimp only at h ⊢
      obtain ⟨ob, hb, h⟩ := Option.bind_eq_some_iff.1 h
      rw [run_succ hb, Option.bind_some]
      exact h
  | .or a b =>
    rw [run] at h ⊢
    obtain ⟨oa, ha, h⟩ := Option.bind_eq_some_iff.1 h
    rw [run_succ ha, Option.bind_some]
    cases oa with
    | matched va sa => exact h
    | failed f =>
      dsimp only at h ⊢
      obtain ⟨ob, hb, h⟩ := Option.bind_eq_some_iff.1 h
      rw [run_succ hb, Option.bind_some]
      exact h
  | .choice alts =>
    rw [run] at h ⊢
    exact runChoice_succ h
  | .sequence items =>
    rw [run] at h ⊢
    obtain ⟨r, hr, h⟩ := Option.map_eq_some_iff.1 h
    rw [runSequence_succ hr, Option.map_some]
    exact congrArg some h
  | .iterate g min max =>
    rw [run] at h ⊢
    obtain ⟨it, hit, h⟩ := Option.map_eq_some_iff.1 h
    rw [runIteration_succ hit, Option.map_some]
    exact congrArg some h
  | .sepBy item sep =>
    rw [run] at h ⊢
    obtain ⟨oi, hi, h⟩ := Option.bind_eq_some_iff.1 h
    rw [run_succ hi, Option.bind_some]
    cases oi with
    | failed f => exact h
    | matched v s =>
      dsimp only at h ⊢
      obtain ⟨res, hres, h⟩ := Option.map_eq_some_iff.1 h
      rw [runSeparated_succ hres, Option.map_some]
      exact congrArg some h
  | .optional g | .not g | .label g _ | .filter g _ _ | .map g _ | .complete g | .withSpan g =>
    rw [run] at h ⊢
    obtain ⟨og, hg, h⟩ := Option.map_eq_some_iff.1 h
    rw [run_succ hg, Option.map_some]
    exact congrArg some h
  | .rule name =>
    match fuel with
    | 0 =>
      rw [run] at h
      cases h
    | fuel + 1 =>
      rw [run] at h ⊢
      obtain ⟨body, found, h⟩ := Option.bind_eq_some_iff.1 h
      rw [found, Option.bind_some]
      exact run_succ h
termination_by (fuel, 2 * sizeOf g, 0)

theorem runChoice_succ {fuel : Nat} {alts : List (Grammar α)} {pos : Nat}
    {best : Option Failure} {o : Outcome} (h : runChoice rules toks fuel alts pos best = some o) :
    runChoice rules toks (fuel + 1) alts pos best = some o := by
  match alts with
  | [] =>
    rw [runChoice] at h ⊢
    exact h
  | g :: gs =>
    rw [runChoice] at h ⊢
    obtain ⟨og, hg, h⟩ := Option.bind_eq_some_iff.1 h
    rw [run_succ hg, Option.bind_some]
    cases og with
    | matched v s => exact h
    | failed f => exact runChoice_succ h
termination_by (fuel, 2 * sizeOf alts, 0)

theorem runSequence_succ {fuel : Nat} {items : List (Grammar α)} {pos : Nat}
    {r : Except Failure (List Value × Nat)} (h : runSequence rules toks fuel items pos = some r) :
    runSequence rules toks (fuel + 1) items pos = some r := by
  match items with
  | [] =>
    rw [runSequence] at h ⊢
    exact h
  | g :: gs =>
    rw [runSequence] at h ⊢
    obtain ⟨og, hg, h⟩ := Option.bind_eq_some_iff.1 h
    rw [run_succ hg, Option.bind_some]
    cases og with
    | failed f => exact h
    | matched v s =>
      dsimp only at h ⊢
      obtain ⟨r', hr', h⟩ := Option.map_eq_some_iff.1 h
      rw [runSequence_succ hr', Option.map_some]
      exact congrArg some h
termination_by (fuel, 2 * sizeOf items, 0)

theorem runIteration_succ {fuel : Nat} {g : Grammar α} {budget : Option Nat} {pos : Nat}
    {it : Iteration} (h : runIteration rules toks fuel g budget pos = some it) :
    runIteration rules toks (fuel + 1) g budget pos = some it := by
  rw [runIteration] at h ⊢
  by_cases hb : budget = some 0
  · rw [if_pos hb] at h ⊢
    exact h
  · rw [if_neg hb] at h ⊢
    obtain ⟨og, hg, h⟩ := Option.bind_eq_some_iff.1 h
    rw [run_succ hg, Option.bind_some]
    cases og with
    | failed f => exact h
    | matched v s =>
      dsimp only at h ⊢
      by_cases hmore : pos < s.stop ∧ s.stop ≤ toks.length
      · rw [if_pos hmore] at h ⊢
        obtain ⟨it', hit', h⟩ := Option.map_eq_some_iff.1 h
        rw [runIteration_succ hit', Option.map_some]
        exact congrArg some h
      · rw [if_neg hmore] at h ⊢
        exact h
termination_by (fuel, 2 * sizeOf g + 1, toks.length + 1 - pos)

theorem runSeparated_succ {fuel : Nat} {item sep : Grammar α} {pos : Nat}
    {res : List Value × Nat} (h : runSeparated rules toks fuel item sep pos = some res) :
    runSeparated rules toks (fuel + 1) item sep pos = some res := by
  rw [runSeparated] at h ⊢
  obtain ⟨os, hs, h⟩ := Option.bind_eq_some_iff.1 h
  rw [run_succ hs, Option.bind_some]
  cases os with
  | failed f => exact h
  | matched v s =>
    dsimp only at h ⊢
    obtain ⟨oi, hi, h⟩ := Option.bind_eq_some_iff.1 h
    rw [run_succ hi, Option.bind_some]
    cases oi with
    | failed f => exact h
    | matched v' s' =>
      dsimp only at h ⊢
      by_cases hmore : pos < s'.stop ∧ s'.stop ≤ toks.length
      · rw [if_pos hmore] at h ⊢
        obtain ⟨res', hres', h⟩ := Option.map_eq_some_iff.1 h
        rw [runSeparated_succ hres', Option.map_some]
        exact congrArg some h
      · rw [if_neg hmore] at h ⊢
        exact h
termination_by (fuel, 2 * (sizeOf item + sizeOf sep) + 1, toks.length + 1 - pos)

end

/-- More fuel keeps a finished answer. -/
theorem run_mono {fuel fuel' : Nat} {g : Grammar α} {pos : Nat} {o : Outcome}
    (h : g.run rules toks fuel pos = some o) (hle : fuel ≤ fuel') :
    g.run rules toks fuel' pos = some o := by
  induction hle with
  | refl => exact h
  | step _ ih => exact run_succ ih

/-- An attempt that does not finish with some fuel does not finish with less. -/
theorem run_eq_none_of_le {fuel fuel' : Nat} {g : Grammar α} {pos : Nat}
    (h : g.run rules toks fuel' pos = none) (hle : fuel ≤ fuel') :
    g.run rules toks fuel pos = none := by
  cases hr : g.run rules toks fuel pos with
  | none => rfl
  | some o =>
    rw [run_mono hr hle] at h
    cases h

/-! ## The budget is enough for every finished run -/

mutual

/-- An attempt finished with fuel `j`, inside calls of the rules `visited` at `pos` that do
    not finish there with fuel `j`, finishes alike with any fuel that covers the budget. -/
theorem run_eq_of_budget_le {j : Nat} {g : Grammar α} {pos : Nat} {o : Outcome}
    {visited : List String} {fuel : Nat} (hpos : pos ≤ toks.length)
    (h : g.run rules toks j pos = some o)
    (hblk : ∀ name ∈ visited, (Grammar.rule name).run rules toks j pos = none)
    (hfuel : rules.budget toks.length pos visited ≤ fuel) :
    g.run rules toks fuel pos = some o := by
  match g with
  | .any | .token _ | .oneOf _ | .noneOf _ | .satisfy _ _ | .succeed _ | .endOfInput =>
    rw [run] at h ⊢
    exact h
  | .and a b =>
    rw [run] at h ⊢
    obtain ⟨oa, ha, h⟩ := Option.bind_eq_some_iff.1 h
    rw [run_eq_of_budget_le hpos ha hblk hfuel, Option.bind_some]
    cases oa with
    | failed f => exact h
    | matched va sa =>
      dsimp only at h ⊢
      obtain ⟨ob, hb, h⟩ := Option.bind_eq_some_iff.1 h
      -- the second part runs with the rules visited here, or afresh further on
      obtain ⟨hstop, visited', hfuel', hblk'⟩ := exists_visited_after
        (Q := fun name => (Grammar.rule name).run rules toks j sa.stop = none) hpos ha hfuel
        (fun heq name hn => by rw [heq]; exact hblk name hn)
      rw [run_eq_of_budget_le hstop hb hblk' hfuel', Option.bind_some]
      exact h
  | .or a b =>
    rw [run] at h ⊢
    obtain ⟨oa, ha, h⟩ := Option.bind_eq_some_iff.1 h
    rw [run_eq_of_budget_le hpos ha hblk hfuel, Option.bind_some]
    cases oa with
    | matched va sa => exact h
    | failed f =>
      dsimp only at h ⊢
      obtain ⟨ob, hb, h⟩ := Option.bind_eq_some_iff.1 h
      rw [run_eq_of_budget_le hpos hb hblk hfuel, Option.bind_some]
      exact h
  | .choice alts =>
    rw [run] at h ⊢
    exact runChoice_eq_of_budget_le hpos h hblk hfuel
  | .sequence items =>
    rw [run] at h ⊢
    obtain ⟨r, hr, h⟩ := Option.map_eq_some_iff.1 h
    rw [runSequence_eq_of_budget_le hpos hr hblk hfuel, Option.map_some]
    exact congrArg some h
  | .iterate g min max =>
    rw [run] at h ⊢
    obtain ⟨it, hit, h⟩ := Option.map_eq_some_iff.1 h
    rw [runIteration_eq_of_budget_le hpos hit hblk hfuel, Option.map_some]
    exact congrArg some h
  | .sepBy item sep =>
    rw [run] at h ⊢
    obtain ⟨oi, hi, h⟩ := Option.bind_eq_some_iff.1 h
    rw [run_eq_of_budget_le hpos hi hblk hfuel, Option.bind_some]
    cases oi with
    | failed f => exact h
    | matched v s =>
      dsimp only at h ⊢
      obtain ⟨res, hres, h⟩ := Option.map_eq_some_iff.1 h
      -- the rest of the list runs with the rules visited here, or afresh further on
      obtain ⟨hstop, visited', hfuel', hblk'⟩ := exists_visited_after
        (Q := fun name => (Grammar.rule name).run rules toks j s.stop = none) hpos hi hfuel
        (fun heq name hn => by rw [heq]; exact hblk name hn)
      rw [runSeparated_eq_of_budget_le hstop hres hblk' hfuel', Option.map_some]
      exact congrArg some h
  | .optional g | .not g | .label g _ | .filter g _ _ | .map g _ | .complete g | .withSpan g =>
    rw [run] at h ⊢
    obtain ⟨og, hg, h⟩ := Option.map_eq_some_iff.1 h
    rw [run_eq_of_budget_le hpos hg hblk hfuel, Option.map_some]
    exact congrArg some h
  | .rule name =>
    match j with
    | 0 =>
      rw [run] at h
      cases h
    | j + 1 =>
      have hcall := h
      rw [run] at hcall
      obtain ⟨body, found, hbody⟩ := Option.bind_eq_some_iff.1 hcall
      -- a rule already being called here does not finish here, so this one is new
      have hname : name ∉ visited := fun hn => by
        rw [hblk name hn] at h
        cases h
      have henter := rules.budget_enter toks.length pos found hname
      have hblk' : ∀ n ∈ visited, (Grammar.rule n).run rules toks j pos = none :=
        fun n hn => run_eq_none_of_le (hblk n hn) (Nat.le_succ j)
      cases hless : (Grammar.rule name).run rules toks j pos with
      | some o' =>
        -- one unit less already finishes the call, with the same answer
        have ho : o' = o := by
          have hmore := run_succ hless
          rw [h] at hmore
          exact (Option.some.inj hmore).symm
        subst ho
        exact run_eq_of_budget_le hpos hless hblk' hfuel
      | none =>
        -- the least fuel for this call: inside it, the rule counts as visited here
        obtain ⟨fuel', rfl⟩ : ∃ fuel', fuel = fuel' + 1 := ⟨fuel - 1, by omega⟩
        have hfuel' : rules.budget toks.length pos (name :: visited) ≤ fuel' := by omega
        have hblk'' : ∀ n ∈ name :: visited, (Grammar.rule n).run rules toks j pos = none := by
          intro n hn
          rcases List.mem_cons.1 hn with rfl | hn
          · exact hless
          · exact hblk' n hn
        rw [run, found, Option.bind_some]
        exact run_eq_of_budget_le hpos hbody hblk'' hfuel'
termination_by (j, 2 * sizeOf g, 0)

theorem runChoice_eq_of_budget_le {j : Nat} {alts : List (Grammar α)} {pos : Nat}
    {best : Option Failure} {o : Outcome} {visited : List String} {fuel : Nat}
    (hpos : pos ≤ toks.length) (h : runChoice rules toks j alts pos best = some o)
    (hblk : ∀ name ∈ visited, (Grammar.rule name).run rules toks j pos = none)
    (hfuel : rules.budget toks.length pos visited ≤ fuel) :
    runChoice rules toks fuel alts pos best = some o := by
  match alts with
  | [] =>
    rw [runChoice] at h ⊢
    exact h
  | g :: gs =>
    rw [runChoice] at h ⊢
    obtain ⟨og, hg, h⟩ := Option.bind_eq_some_iff.1 h
    rw [run_eq_of_budget_le hpos hg hblk hfuel, Option.bind_some]
    cases og with
    | matched v s => exact h
    | failed f => exact runChoice_eq_of_budget_le hpos h hblk hfuel
termination_by (j, 2 * sizeOf alts, 0)

theorem runSequence_eq_of_budget_le {j : Nat} {items : List (Grammar α)} {pos : Nat}
    {r : Except Failure (List Value × Nat)} {visited : List String} {fuel : Nat}
    (hpos : pos ≤ toks.length) (h : runSequence rules toks j items pos = some r)
    (hblk : ∀ name ∈ visited, (Grammar.rule name).run rules toks j pos = none)
    (hfuel : rules.budget toks.length pos visited ≤ fuel) :
    runSequence rules toks fuel items pos = some r := by
  match items with
  | [] =>
    rw [runSequence] at h ⊢
    exact h
  | g :: gs =>
    rw [runSequence] at h ⊢
    obtain ⟨og, hg, h⟩ := Option.bind_eq_some_iff.1 h
    rw [run_eq_of_budget_le hpos hg hblk hfuel, Option.bind_some]
    cases og with
    | failed f => exact h
    | matched v s =>
      dsimp only at h ⊢
      obtain ⟨r', hr', h⟩ := Option.map_eq_some_iff.1 h
      -- the later items run with the rules visited here, or afresh further on
      obtain ⟨hstop, visited', hfuel', hblk'⟩ := exists_visited_after
        (Q := fun name => (Grammar.rule name).run rules toks j s.stop = none) hpos hg hfuel
        (fun heq name hn => by rw [heq]; exact hblk name hn)
      rw [runSequence_eq_of_budget_le hstop hr' hblk' hfuel', Option.map_some]
      exact congrArg some h
termination_by (j, 2 * sizeOf items, 0)

theorem runIteration_eq_of_budget_le {j : Nat} {g : Grammar α} {budget : Option Nat}
    {pos : Nat} {it : Iteration} {visited : List String} {fuel : Nat}
    (hpos : pos ≤ toks.length) (h : runIteration rules toks j g budget pos = some it)
    (hblk : ∀ name ∈ visited, (Grammar.rule name).run rules toks j pos = none)
    (hfuel : rules.budget toks.length pos visited ≤ fuel) :
    runIteration rules toks fuel g budget pos = some it := by
  rw [runIteration] at h ⊢
  by_cases hb : budget = some 0
  · rw [if_pos hb] at h ⊢
    exact h
  · rw [if_neg hb] at h ⊢
    obtain ⟨og, hg, h⟩ := Option.bind_eq_some_iff.1 h
    rw [run_eq_of_budget_le hpos hg hblk hfuel, Option.bind_some]
    cases og with
    | failed f => exact h
    | matched v s =>
      dsimp only at h ⊢
      by_cases hmore : pos < s.stop ∧ s.stop ≤ toks.length
      · rw [if_pos hmore] at h ⊢
        obtain ⟨it', hit', h⟩ := Option.map_eq_some_iff.1 h
        -- every further iteration starts afresh, further on
        have hfuel' := Nat.le_trans (rules.budget_advance visited hmore.1 hmore.2) hfuel
        rw [runIteration_eq_of_budget_le hmore.2 hit' (fun name hn => by cases hn) hfuel',
          Option.map_some]
        exact congrArg some h
      · rw [if_neg hmore] at h ⊢
        exact h
termination_by (j, 2 * sizeOf g + 1, toks.length + 1 - pos)

theorem runSeparated_eq_of_budget_le {j : Nat} {item sep : Grammar α} {pos : Nat}
    {res : List Value × Nat} {visited : List String} {fuel : Nat}
    (hpos : pos ≤ toks.length) (h : runSeparated rules toks j item sep pos = some res)
    (hblk : ∀ name ∈ visited, (Grammar.rule name).run rules toks j pos = none)
    (hfuel : rules.budget toks.length pos visited ≤ fuel) :
    runSeparated rules toks fuel item sep pos = some res := by
  rw [runSeparated] at h ⊢
  obtain ⟨os, hs, h⟩ := Option.bind_eq_some_iff.1 h
  rw [run_eq_of_budget_le hpos hs hblk hfuel, Option.bind_some]
  cases os with
  | failed f => exact h
  | matched v s =>
    dsimp only at h ⊢
    obtain ⟨oi, hi, h⟩ := Option.bind_eq_some_iff.1 h
    -- the item after the separator runs with the rules visited here, or afresh further on
    obtain ⟨hstop, visited', hfuel', hblk'⟩ := exists_visited_after
      (Q := fun name => (Grammar.rule name).run rules toks j s.stop = none) hpos hs hfuel
      (fun heq name hn => by rw [heq]; exact hblk name hn)
    rw [run_eq_of_budget_le hstop hi hblk' hfuel', Option.bind_some]
    cases oi with
    | failed f => exact h
    | matched v' s' =>
      dsimp only at h ⊢
      by_cases hmore : pos < s'.stop ∧ s'.stop ≤ toks.length
      · rw [if_pos hmore] at h ⊢
        obtain ⟨res', hres', h⟩ := Option.map_eq_some_iff.1 h
        have hfuel'' := Nat.le_trans (rules.budget_advance visited hmore.1 hmore.2) hfuel
        rw [runSeparated_eq_of_budget_le hmore.2 hres' (fun name hn => by cases hn) hfuel'',
          Option.map_some]
        exact congrArg some h
      · rw [if_neg hmore] at h ⊢
        exact h
termination_by (j, 2 * (sizeOf item + sizeOf sep) + 1, toks.length + 1 - pos)

end

/-- The fuel a parse gets finishes every attempt that some fuel finishes, with the same
    answer. -/
theorem run_fuelFor_of_run {j : Nat} {g : Grammar α} {pos : Nat} {o : Outcome}
    (hpos : pos ≤ toks.length) (h : g.run rules toks j pos = some o) :
    g.run rules toks (rules.fuelFor toks) pos = some o :=
  run_eq_of_budget_le hpos h (fun name hn => by cases hn)
    (Nat.le_of_lt (rules.budget_lt_fuelFor toks pos))

/-- Any fuel from the one a parse gets on gives the same answer: the same outcome, or none
    at all. -/
theorem run_fuelFor_eq {fuel : Nat} {g : Grammar α} {pos : Nat} (hpos : pos ≤ toks.length)
    (hfuel : rules.fuelFor toks ≤ fuel) :
    g.run rules toks (rules.fuelFor toks) pos = g.run rules toks fuel pos := by
  cases hr : g.run rules toks fuel pos with
  | none => exact run_eq_none_of_le hr hfuel
  | some o => exact run_fuelFor_of_run hpos hr

end Grammar

end TokenPeg
