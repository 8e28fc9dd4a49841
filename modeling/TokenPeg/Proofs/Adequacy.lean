import TokenPeg.Proofs.Judgement
/-
  TokenPeg.Proofs.Adequacy

  Parsing is the big-step judgement of `TokenPeg.Proofs.Judgement`: from every scanner, a
  parse matches `c` tokens with value `v`, leaving the scanner `c` tokens further on,
  exactly when the judgement yields `(v, c)` there, and it fails, leaving the scanner
  where it was, exactly when the judgement yields a failure.

  One direction is `yields_of_run`. The other, `run_of_yields`, goes by recursion on the
  derivation and runs every part with the fuel a parse gets, `Rules.fuelFor`: a rule call
  spends one unit of it, and `run_fuelFor_of_run` of `TokenPeg.Proofs.Fuel` gives the unit
  back. A derivation is finite, so a grammar that calls itself at the start has none, and
  neither has a call of a rule that does not exist: there the parse gives no outcome at
  all, and both sides of the agreement are false.

  The judgement reads a separated list as `item (sep item)*`; the run keeps its own loop,
  which `runSeparated_eq_runIteration` shows to be the repetition of `sep item`.
-/

namespace TokenPeg

namespace Grammar

variable {α : Type} [Lexeme α] [DecidableEq α] {rules : Rules α} {toks : List α}

/-- The rest of a separated list is the repetition, with no bound, of a separator followed
    by an item, keeping the items' values. -/
theorem runSeparated_eq_runIteration {fuel : Nat} {item sep : Grammar α} {pos : Nat}
    (hpos : pos ≤ toks.length) :
    runSeparated rules toks fuel item sep pos =
      (runIteration rules toks fuel (.and sep item) none pos).map fun it =>
        (it.values.map (·.item 1), it.stop) := by
  rw [runSeparated, runIteration, if_neg (by simp), run]
  cases hs : sep.run rules toks fuel pos with
  | none => rfl
  | some os =>
    cases os with
    | failed f => rfl
    | matched w s =>
      obtain ⟨hss, hsstop⟩ := run_respects hpos hs
      simp only [Option.bind_some]
      cases hi : item.run rules toks fuel s.stop with
      | none => rfl
      | some oi =>
        cases oi with
        | failed f => rfl
        | matched v s' =>
          have hs' := (run_respects hsstop hi).1
          -- the pair stops where the item stops, at or after the start
          have hle : pos ≤ s'.stop := by
            rw [Success.stop_eq_of_start hs', Success.stop_eq_of_start hss]
            omega
          simp only [Option.bind_some, Success.stop_since hle]
          by_cases hmore : pos < s'.stop ∧ s'.stop ≤ toks.length
          · have hnone : (none : Option Nat).map (· - 1) = none := rfl
            rw [if_pos hmore, if_pos hmore, runSeparated_eq_runIteration hmore.2, hnone]
            cases runIteration rules toks fuel (.and sep item) none s'.stop with
            | none => rfl
            | some it => rfl
          · rw [if_neg hmore, if_neg hmore]
            rfl
termination_by toks.length + 1 - pos

/-- A run whose result is a match from `p` gives that match. -/
theorem run_eq_matched {fuel : Nat} {g : Grammar α} {p : Nat} {v : Value} {c : Nat}
    (hp : p ≤ toks.length)
    (h : (g.run rules toks fuel p).map Outcome.result = some (some (v, c))) :
    g.run rules toks fuel p = some (.matched v ⟨p, c⟩) := by
  obtain ⟨o, ho, hres⟩ := Option.map_eq_some_iff.1 h
  rw [← Outcome.eq_matched_of_result (run_respects hp ho) hres]
  exact ho

/-- A match from `p` ends within the tokens. -/
theorem add_le_length_of_run {fuel : Nat} {g : Grammar α} {p : Nat} {v : Value} {c : Nat}
    (hp : p ≤ toks.length) (h : g.run rules toks fuel p = some (.matched v ⟨p, c⟩)) :
    p + c ≤ toks.length :=
  (run_respects hp h).2

/-- A run whose result is a failure gives a failure. -/
theorem exists_run_eq_failed {fuel : Nat} {g : Grammar α} {p : Nat}
    (h : (g.run rules toks fuel p).map Outcome.result = some none) :
    ∃ f, g.run rules toks fuel p = some (.failed f) := by
  obtain ⟨o, ho, hres⟩ := Option.map_eq_some_iff.1 h
  obtain ⟨f, rfl⟩ := Outcome.exists_failed_of_result hres
  exact ⟨f, ho⟩

/-- A rule call with one more unit of fuel runs the rule's body. -/
theorem run_rule_succ {fuel : Nat} {name : String} {body : Grammar α} {pos : Nat}
    (found : rules.lookup name = some body) :
    (Grammar.rule name).run rules toks (fuel + 1) pos = body.run rules toks fuel pos := by
  rw [run, found, Option.bind_some]

/-- The end of the input is tested as `!.` tests it. -/
theorem run_endOfInput_result (fuel pos : Nat) :
    (Grammar.endOfInput.run rules toks fuel pos).map Outcome.result =
      ((Grammar.not .any).run rules toks fuel pos).map Outcome.result := by
  rw [run, run, run]
  cases ht : toks[pos]? with
  | none => simp [single, ht]
  | some t => simp [single, ht]

/-- Where `!.` matches, no token is left. -/
theorem length_le_of_run_notAny {fuel pos : Nat}
    (h : ((Grammar.not .any).run rules toks fuel pos).map Outcome.result = some (some (.null, 0))) :
    toks.length ≤ pos := by
  rw [run, run] at h
  cases ht : toks[pos]? with
  | none => exact List.getElem?_eq_none_iff.1 ht
  | some t => simp [single, ht] at h

/-- Where `!.` fails, a token is left. -/
theorem lt_length_of_run_notAny {fuel pos : Nat}
    (h : ((Grammar.not .any).run rules toks fuel pos).map Outcome.result = some none) :
    pos < toks.length := by
  rw [run, run] at h
  cases ht : toks[pos]? with
  | none => simp [single, ht] at h
  | some t => exact (List.getElem?_eq_some_iff.1 ht).1

mutual

/-- Every derivation is a run with the fuel a parse gets, whose result is the derivation's. -/
theorem run_of_yields {g : Grammar α} {p : Nat} {r : Option (Value × Nat)}
    (h : Yields rules toks g p r) (hp : p ≤ toks.length) :
    (g.run rules toks (rules.fuelFor toks) p).map Outcome.result = some r := by
  match h with
  | .take hg ht hpass =>
    obtain ⟨check, hcheck, hrun⟩ := run_terminal rules toks hg
    rw [hrun]
    simp [single, ht, (hcheck _).2 hpass]
  | .refuse hg hno =>
    obtain ⟨check, hcheck, hrun⟩ := run_terminal rules toks hg
    rw [hrun, Option.map_some]
    unfold single
    cases ht : toks[p]? with
    | none => rfl
    | some t =>
      -- the token fails the test, so the check refuses it
      dsimp only
      cases hc : check t with
      | none =>
        have hpass := (hcheck t).1 hc
        rw [hno t ht] at hpass
        cases hpass
      | some reason => rfl
  | .succeed =>
    rw [run]
    rfl
  | .endOfInput hy =>
    rw [run_endOfInput_result]
    exact run_of_yields hy hp
  | .and ha hb =>
    have hra := run_eq_matched hp (run_of_yields ha hp)
    have hq := add_le_length_of_run hp hra
    have hrb := run_eq_matched hq (run_of_yields hb hq)
    rw [run, hra, Option.bind_some]
    dsimp only
    rw [Success.stop_mk, hrb, Option.bind_some]
    dsimp only
    rw [Success.stop_mk, Option.map_some, Nat.add_assoc, Outcome.result_matched_since]
  | .and_left ha =>
    obtain ⟨f, hra⟩ := exists_run_eq_failed (run_of_yields ha hp)
    rw [run, hra, Option.bind_some]
    rfl
  | .and_right ha hb =>
    have hra := run_eq_matched hp (run_of_yields ha hp)
    have hq := add_le_length_of_run hp hra
    obtain ⟨f, hrb⟩ := exists_run_eq_failed (run_of_yields hb hq)
    rw [run, hra, Option.bind_some]
    dsimp only
    rw [Success.stop_mk, hrb, Option.bind_some]
    rfl
  | .or_left ha =>
    have hra := run_eq_matched hp (run_of_yields ha hp)
    rw [run, hra, Option.bind_some]
    rfl
  | .or_right ha hb =>
    obtain ⟨f, hra⟩ := exists_run_eq_failed (run_of_yields ha hp)
    obtain ⟨o, hrb, rfl⟩ := Option.map_eq_some_iff.1 (run_of_yields hb hp)
    -- the second alternative's result stands, whatever failure it is combined with
    rw [run_or, hra, Option.bind_some]
    dsimp only
    rw [hrb, Option.map_some, Option.map_some, Outcome.result_after]
  | .choice hf =>
    rw [run]
    exact runChoice_of_yieldsFirst hf hp none
  | .sequence hs =>
    obtain ⟨e, hre, hres⟩ := Option.map_eq_some_iff.1 (runSequence_of_yieldsAll hs hp)
    cases e with
    | error f => cases hres
    | ok res =>
      obtain ⟨vs, stop⟩ := res
      rw [sequenceResult_ok, Option.some.injEq, Prod.mk.injEq] at hres
      obtain ⟨rfl, rfl⟩ := hres
      rw [run, hre]
      rfl
  | .sequence_fail hs =>
    obtain ⟨e, hre, hres⟩ := Option.map_eq_some_iff.1 (runSequence_of_yieldsAll hs hp)
    cases e with
    | error f =>
      rw [run, hre]
      rfl
    | ok res =>
      obtain ⟨vs, stop⟩ := res
      cases hres
  | .iterate hrep hmin =>
    obtain ⟨it, hrit, hit⟩ := Option.map_eq_some_iff.1 (runIteration_of_repeats hrep hp)
    rw [Prod.mk.injEq] at hit
    rw [run, hrit, Option.map_some, Option.map_some, Iteration.settle, hit.1, hit.2,
      if_neg (Nat.not_lt.2 hmin), Outcome.result_matched_since]
  | .iterate_few hrep hfew =>
    obtain ⟨it, hrit, hit⟩ := Option.map_eq_some_iff.1 (runIteration_of_repeats hrep hp)
    rw [Prod.mk.injEq] at hit
    rw [run, hrit, Option.map_some, Option.map_some, Iteration.settle, hit.1, if_pos hfew]
    rfl
  | .sepBy hi hrep =>
    have hri := run_eq_matched hp (run_of_yields hi hp)
    have hq := add_le_length_of_run hp hri
    obtain ⟨it, hrit, hit⟩ := Option.map_eq_some_iff.1 (runIteration_of_repeats hrep hq)
    rw [Prod.mk.injEq] at hit
    rw [run, hri, Option.bind_some]
    dsimp only
    -- the rest of the list is the repetition of `sep item`
    rw [Success.stop_mk, runSeparated_eq_runIteration hq, hrit, Option.map_some, Option.map_some, Option.map_some]
    dsimp only
    rw [hit.1, hit.2, Nat.add_assoc, Outcome.result_matched_since]
  | .sepBy_fail hi =>
    obtain ⟨f, hri⟩ := exists_run_eq_failed (run_of_yields hi hp)
    rw [run, hri, Option.bind_some]
    rfl
  | .optional hg =>
    have hrg := run_eq_matched hp (run_of_yields hg hp)
    rw [run, hrg]
    rfl
  | .optional_none hg =>
    obtain ⟨f, hrg⟩ := exists_run_eq_failed (run_of_yields hg hp)
    rw [run, hrg]
    rfl
  | .not hg =>
    obtain ⟨f, hrg⟩ := exists_run_eq_failed (run_of_yields hg hp)
    rw [run, hrg]
    rfl
  | .not_matched hg =>
    have hrg := run_eq_matched hp (run_of_yields hg hp)
    rw [run, hrg]
    rfl
  | .label hg =>
    obtain ⟨o, hrg, rfl⟩ := Option.map_eq_some_iff.1 (run_of_yields hg hp)
    rw [run, hrg]
    cases o <;> rfl
  | .filter hg hkeep =>
    have hrg := run_eq_matched hp (run_of_yields hg hp)
    rw [run, hrg, Option.map_some, Option.map_some]
    dsimp only
    rw [if_pos hkeep]
    rfl
  | .filter_reject hg hdrop =>
    have hrg := run_eq_matched hp (run_of_yields hg hp)
    rw [run, hrg, Option.map_some, Option.map_some]
    dsimp only
    rw [if_neg (by simp [hdrop])]
    rfl
  | .filter_fail hg =>
    obtain ⟨f, hrg⟩ := exists_run_eq_failed (run_of_yields hg hp)
    rw [run, hrg]
    rfl
  | .map hg =>
    obtain ⟨o, hrg, rfl⟩ := Option.map_eq_some_iff.1 (run_of_yields hg hp)
    rw [run, hrg]
    cases o <;> rfl
  | .complete hg hend =>
    have hrg := run_eq_matched hp (run_of_yields hg hp)
    have hq := add_le_length_of_run hp hrg
    rw [run, hrg, Option.map_some, Option.map_some]
    dsimp only
    -- `!.` matched where `g` stopped: no token is left there
    rw [Success.stop_mk, if_pos (length_le_of_run_notAny (run_of_yields hend hq))]
    rfl
  | .complete_trailing hg hmore =>
    have hrg := run_eq_matched hp (run_of_yields hg hp)
    have hq := add_le_length_of_run hp hrg
    rw [run, hrg, Option.map_some, Option.map_some]
    dsimp only
    -- `!.` failed where `g` stopped: a token is left there
    rw [Success.stop_mk, if_neg (Nat.not_le.2 (lt_length_of_run_notAny (run_of_yields hmore hq)))]
    rfl
  | .complete_fail hg =>
    obtain ⟨f, hrg⟩ := exists_run_eq_failed (run_of_yields hg hp)
    rw [run, hrg]
    rfl
  | .withSpan hg =>
    obtain ⟨o, hrg, rfl⟩ := Option.map_eq_some_iff.1 (run_of_yields hg hp)
    rw [run, hrg]
    cases o with
    | matched v s =>
      -- the range of the match is `[p, p + consumed)`
      have hs := (run_respects hp hrg).1
      rw [Option.map_some, Option.map_some]
      dsimp only
      rw [Success.stop_eq_of_start hs, hs]
      rfl
    | failed f => rfl
  | .rule found hy =>
    obtain ⟨o, hrun, hres⟩ := Option.map_eq_some_iff.1 (run_of_yields hy hp)
    -- the call spends one unit more than the body, which the parse's fuel covers
    rw [run_fuelFor_of_run hp ((run_rule_succ found).trans hrun), Option.map_some, hres]

/-- Every derivation of an ordered choice is a run of the choice, whatever failure the choice
    carries. -/
theorem runChoice_of_yieldsFirst {alts : List (Grammar α)} {p : Nat} {r : Option (Value × Nat)}
    (h : YieldsFirst rules toks alts p r) (hp : p ≤ toks.length) (best : Option Failure) :
    (runChoice rules toks (rules.fuelFor toks) alts p best).map Outcome.result = some r := by
  match h with
  | .nil =>
    rw [runChoice]
    rfl
  | .head hg =>
    have hrg := run_eq_matched hp (run_of_yields hg hp)
    rw [runChoice, hrg, Option.bind_some]
    rfl
  | .next hg hgs =>
    obtain ⟨f, hrg⟩ := exists_run_eq_failed (run_of_yields hg hp)
    rw [runChoice, hrg, Option.bind_some]
    exact runChoice_of_yieldsFirst hgs hp _

/-- Every derivation of a sequence's items is a run of them. -/
theorem runSequence_of_yieldsAll {items : List (Grammar α)} {p : Nat}
    {r : Option (List Value × Nat)} (h : YieldsAll rules toks items p r) (hp : p ≤ toks.length) :
    (runSequence rules toks (rules.fuelFor toks) items p).map (sequenceResult p) = some r := by
  match h with
  | .nil =>
    rw [runSequence, Option.map_some, sequenceResult_ok, Nat.sub_self]
  | .cons hg hgs =>
    have hrg := run_eq_matched hp (run_of_yields hg hp)
    have hq := add_le_length_of_run hp hrg
    obtain ⟨e, hre, hres⟩ := Option.map_eq_some_iff.1 (runSequence_of_yieldsAll hgs hq)
    cases e with
    | error f => cases hres
    | ok res =>
      obtain ⟨vs, stop⟩ := res
      -- the other items stop at or after where the first stopped
      have hle := ((runSequence_respects hq hre).2 vs stop rfl).1
      rw [sequenceResult_ok, Option.some.injEq, Prod.mk.injEq] at hres
      obtain ⟨rfl, rfl⟩ := hres
      rw [runSequence, hrg, Option.bind_some]
      dsimp only
      rw [Success.stop_mk, hre, Option.map_some, Option.map_some]
      dsimp only
      rw [sequenceResult_ok, Option.some.injEq, Option.some.injEq, Prod.mk.injEq]
      exact ⟨rfl, by omega⟩
  | .cons_rest_fail hg hgs =>
    have hrg := run_eq_matched hp (run_of_yields hg hp)
    have hq := add_le_length_of_run hp hrg
    obtain ⟨e, hre, hres⟩ := Option.map_eq_some_iff.1 (runSequence_of_yieldsAll hgs hq)
    cases e with
    | error f =>
      rw [runSequence, hrg, Option.bind_some]
      dsimp only
      rw [Success.stop_mk, hre]
      rfl
    | ok res =>
      obtain ⟨vs, stop⟩ := res
      cases hres
  | .cons_fail hg =>
    obtain ⟨f, hrg⟩ := exists_run_eq_failed (run_of_yields hg hp)
    rw [runSequence, hrg, Option.bind_some]
    rfl

/-- Every derivation of a greedy repetition is a run of it, with the same values and the
    same stop. -/
theorem runIteration_of_repeats {g : Grammar α} {bound : Option Nat} {p : Nat}
    {vs : List Value} {c : Nat} (h : Repeats rules toks g bound p vs c) (hp : p ≤ toks.length) :
    (runIteration rules toks (rules.fuelFor toks) g bound p).map (fun it => (it.values, it.stop)) =
      some (vs, p + c) := by
  match h with
  | .spent =>
    rw [runIteration, if_pos rfl]
    rfl
  | .stop hb hg =>
    obtain ⟨f, hrg⟩ := exists_run_eq_failed (run_of_yields hg hp)
    rw [runIteration, if_neg hb, hrg, Option.bind_some]
    rfl
  | .empty hb hg =>
    have hrg := run_eq_matched hp (run_of_yields hg hp)
    -- an iteration that consumed nothing ends the repetition
    have hstay : ¬ (p < p + 0 ∧ p + 0 ≤ toks.length) := fun h => Nat.lt_irrefl p h.1
    rw [runIteration, if_neg hb, hrg, Option.bind_some]
    dsimp only
    rw [Success.stop_mk, if_neg hstay]
    rfl
  | .more hb hg hc hrest =>
    have hrg := run_eq_matched hp (run_of_yields hg hp)
    have hq := add_le_length_of_run hp hrg
    obtain ⟨it, hrit, hit⟩ := Option.map_eq_some_iff.1 (runIteration_of_repeats hrest hq)
    rw [Prod.mk.injEq] at hit
    -- an iteration that consumed tokens lets the repetition go on after it
    have hmore : p < p + _ ∧ p + _ ≤ toks.length := ⟨Nat.lt_add_of_pos_right hc, hq⟩
    rw [runIteration, if_neg hb, hrg, Option.bind_some]
    dsimp only
    rw [Success.stop_mk, if_pos hmore, hrit, Option.map_some, Option.map_some]
    dsimp only
    rw [hit.1, hit.2, Nat.add_assoc]

end

/-- The judgement is a function: at a position within the tokens, a grammar yields one
    result. -/
theorem Yields.unique {g : Grammar α} {p : Nat} {r r' : Option (Value × Nat)}
    (h : Yields rules toks g p r) (h' : Yields rules toks g p r') (hp : p ≤ toks.length) :
    r = r' := by
  have hr := run_of_yields h hp
  rw [run_of_yields h' hp, Option.some.injEq] at hr
  exact hr.symm

/-- Parsing agrees with the big-step judgement. From every scanner, a parse matches `c`
    tokens with value `v` and moves the scanner `c` tokens on exactly when the judgement
    yields `(v, c)` at the scanner's position; and a parse fails, leaving the scanner where
    it was, exactly when the judgement yields a failure there. -/
theorem parse_agrees_with_yields (rules : Rules α) (g : Grammar α) (s : Scanner α) (v : Value)
    (c : Nat) :
    ((∃ sc, g.parse rules s = some (.matched v ⟨s.position, c⟩, sc) ∧
        sc.position = s.position + c) ↔
      Yields rules s.tokens g s.position (some (v, c))) ∧
    ((∃ f sc, g.parse rules s = some (.failed f, sc) ∧ sc.position = s.position) ↔
      Yields rules s.tokens g s.position none) := by
  have hpos := s.position_le
  refine ⟨⟨?_, fun hy => ?_⟩, ⟨?_, fun hy => ?_⟩⟩
  · rintro ⟨sc, hparse, -⟩
    obtain ⟨o, hrun, ho⟩ := Option.map_eq_some_iff.1 hparse
    cases ho
    exact yields_of_run hpos hrun
  · -- the parse matches, and the scanner stands right behind the match
    have hrun := run_eq_matched hpos (run_of_yields hy hpos)
    refine ⟨s.restore ⟨s.position + c⟩, ?_, ?_⟩
    · rw [parse, hrun, Option.map_some]
      rfl
    · rw [Scanner.position_restore]
      exact Nat.min_eq_left (add_le_length_of_run hpos hrun)
  · rintro ⟨f, sc, hparse, -⟩
    obtain ⟨o, hrun, ho⟩ := Option.map_eq_some_iff.1 hparse
    cases ho
    exact yields_of_run hpos hrun
  · -- the parse fails, and the scanner goes back to where it was
    obtain ⟨f, hrun⟩ := exists_run_eq_failed (run_of_yields hy hpos)
    refine ⟨f, s.restore ⟨s.position⟩, ?_, ?_⟩
    · rw [parse, hrun, Option.map_some]
      rfl
    · rw [Scanner.position_restore]
      exact Nat.min_eq_left hpos

end Grammar

end TokenPeg
