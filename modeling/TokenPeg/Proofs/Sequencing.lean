import TokenPeg.Proofs.Contract
import Mathlib.Algebra.GroupWithZero.Nat
/-
  TokenPeg.Proofs.Sequencing

  A sequence over a list of items and binary `and` nested to the left over the same items
  are one attempt. Both run the items one after another, each from where the one before
  stopped. They give the same success, over the same tokens, or the same failure, that of
  the first item that fails, and they leave the scanner at the same place. Only the shape
  of the value differs: the sequence collects the items' values in one array, the nesting
  pairs them up from the left.

  Both are read off the run of the first item and the run of the rest as a sequence
  (`run_sequence_cons`, `run_foldl_and`). The nesting needs the cursor contract of
  `TokenPeg.Proofs.Contract`: each inner `and` reports a success from the nesting's own
  start, and the next item must still run where the last one stopped. The items' runs are
  described on their own by `ItemsMatch` (each item matches from where the one before
  stopped) and `ItemsFail` (the items before one match, and that one fails).
-/

namespace TokenPeg

namespace Value

/-- Values paired up from the left: `v`, then `[v, w₁]`, then `[[v, w₁], w₂]`, and so on. -/
def pairLeft (v : Value) (ws : List Value) : Value := ws.foldl (fun acc w => .arr [acc, w]) v

@[simp] theorem pairLeft_nil (v : Value) : pairLeft v [] = v := rfl

@[simp] theorem pairLeft_cons (v w : Value) (ws : List Value) :
    pairLeft v (w :: ws) = pairLeft (.arr [v, w]) ws := rfl

/-- Pairing up from the left loses nothing: lists of one length pair up alike only when they
    are equal. -/
theorem pairLeft_inj {v v' : Value} {ws ws' : List Value} (hlen : ws.length = ws'.length)
    (h : pairLeft v ws = pairLeft v' ws') : v = v' ∧ ws = ws' := by
  induction ws generalizing v v' ws' with
  | nil =>
    cases ws' with
    | nil => exact ⟨h, rfl⟩
    | cons _ _ => cases hlen
  | cons w ws ih =>
    cases ws' with
    | nil => cases hlen
    | cons w' ws' =>
      obtain ⟨hpair, rfl⟩ := ih (Nat.succ.inj hlen) h
      simp only [arr.injEq, List.cons.injEq] at hpair
      obtain ⟨rfl, rfl, -⟩ := hpair
      exact ⟨rfl, rfl⟩

end Value

namespace Success

/-- A match that starts at `pos` is the match from `pos` to where it stops. -/
theorem since_stop {s : Success} {pos : Nat} (h : s.start = pos) : since pos s.stop = s := by
  obtain ⟨start, consumed⟩ := s
  subst h
  simp [since, stop]

end Success

namespace Outcome

/-- A sequence's outcome with the items' values paired up from the left. -/
def pairItems : Outcome → Outcome
  | .matched (.arr (v :: vs)) s => .matched (v.pairLeft vs) s
  | o => o

@[simp] theorem pairItems_failed (f : Failure) : (failed f).pairItems = failed f := rfl

/-- Pairing the values up keeps the input where the outcome leaves it. -/
@[simp] theorem resume_pairItems (start : Nat) (o : Outcome) :
    o.pairItems.resume start = o.resume start := by
  unfold pairItems
  split <;> rfl

/-- Pairing the values up turns no match into a failure and changes no failure. -/
theorem pairItems_eq_failed_iff {o : Outcome} {f : Failure} :
    o.pairItems = failed f ↔ o = failed f := by
  cases o with
  | failed f' => exact Iff.rfl
  | matched w s =>
    constructor
    · intro h
      unfold pairItems at h
      split at h <;> cases h
    · intro h
      cases h

/-- The paired-up value of a sequence's match gives back the items' values, once their
    count is known. -/
theorem matched_pairItems_eq {ws vs : List Value} {v : Value} {s m : Success}
    (hlen : ws.length = vs.length + 1)
    (h : (matched (.arr ws) s).pairItems = matched (v.pairLeft vs) m) : ws = v :: vs ∧ s = m := by
  cases ws with
  | nil => cases hlen
  | cons w ws =>
    simp only [pairItems, matched.injEq] at h
    obtain ⟨hvals, rfl⟩ := h
    obtain ⟨rfl, rfl⟩ := Value.pairLeft_inj (Nat.succ.inj hlen) hvals
    exact ⟨rfl, rfl⟩

end Outcome

namespace Grammar

variable {α : Type}

/-- The items nested to the left with `and`: `((a₁.and a₂).and …).and aₙ`. -/
def andLeft (a : Grammar α) (as : List (Grammar α)) : Grammar α := as.foldl .and a

variable [Lexeme α] [DecidableEq α] {rules : Rules α} {toks : List α} {fuel : Nat}

/-! ## The items' runs -/

/-- `ItemsMatch rules toks fuel items pos ms stop`: the items, run one after another from
    `pos`, each from where the one before stopped, all match; `ms` holds their values and
    successes in order, and the last one stops at `stop`. -/
inductive ItemsMatch (rules : Rules α) (toks : List α) (fuel : Nat) :
    List (Grammar α) → Nat → List (Value × Success) → Nat → Prop where
  /-- No items match where they start. -/
  | nil (pos : Nat) : ItemsMatch rules toks fuel [] pos [] pos
  /-- An item matches from `pos`, and the rest match from where it stopped. -/
  | cons {g : Grammar α} {gs : List (Grammar α)} {pos : Nat} {v : Value} {s : Success}
      {ms : List (Value × Success)} {stop : Nat} :
      g.run rules toks fuel pos = some (.matched v s) →
      ItemsMatch rules toks fuel gs s.stop ms stop →
      ItemsMatch rules toks fuel (g :: gs) pos ((v, s) :: ms) stop

/-- `ItemsFail rules toks fuel items pos f`: run one after another from `pos`, the items
    before one of them match, each from where the one before stopped, and that one fails
    with `f`. -/
inductive ItemsFail (rules : Rules α) (toks : List α) (fuel : Nat) :
    List (Grammar α) → Nat → Failure → Prop where
  /-- The first item fails. -/
  | here {g : Grammar α} {gs : List (Grammar α)} {pos : Nat} {f : Failure} :
      g.run rules toks fuel pos = some (.failed f) → ItemsFail rules toks fuel (g :: gs) pos f
  /-- The first item matches, and one of the rest fails after it. -/
  | later {g : Grammar α} {gs : List (Grammar α)} {pos : Nat} {v : Value} {s : Success}
      {f : Failure} :
      g.run rules toks fuel pos = some (.matched v s) → ItemsFail rules toks fuel gs s.stop f →
      ItemsFail rules toks fuel (g :: gs) pos f

/-- Matching items give one success each. -/
theorem ItemsMatch.length_eq {items : List (Grammar α)} {pos stop : Nat}
    {ms : List (Value × Success)} (h : ItemsMatch rules toks fuel items pos ms stop) :
    ms.length = items.length := by
  induction h with
  | nil => rfl
  | cons _ _ ih => exact congrArg Nat.succ ih

/-- Matching items that start within the tokens stop as far on as they consumed together. -/
theorem ItemsMatch.stop_eq {items : List (Grammar α)} {pos stop : Nat}
    {ms : List (Value × Success)} (hpos : pos ≤ toks.length)
    (h : ItemsMatch rules toks fuel items pos ms stop) :
    stop = pos + (ms.map fun m => m.2.consumed).sum := by
  induction h with
  | nil => rfl
  | cons hg _ ih =>
    obtain ⟨hstart, hstop⟩ := run_respects hpos hg
    rw [ih hstop, Success.stop, hstart, List.map_cons, List.sum_cons, Nat.add_assoc]

/-- A run of a sequence's items matches exactly when the items match one after another. -/
theorem runSequence_eq_ok_iff {items : List (Grammar α)} {pos : Nat} {vs : List Value}
    {stop : Nat} :
    runSequence rules toks fuel items pos = some (.ok (vs, stop)) ↔
      ∃ ms, ItemsMatch rules toks fuel items pos ms stop ∧ vs = ms.map Prod.fst := by
  induction items generalizing pos vs with
  | nil =>
    rw [runSequence]
    constructor
    · intro h
      cases h
      exact ⟨[], .nil _, rfl⟩
    · rintro ⟨ms, hms, rfl⟩
      cases hms
      rfl
  | cons g gs ih =>
    rw [runSequence]
    constructor
    · intro h
      obtain ⟨og, hg, h⟩ := Option.bind_eq_some_iff.1 h
      cases og with
      | failed f => cases h
      | matched v s =>
        obtain ⟨r, hr, h⟩ := Option.map_eq_some_iff.1 h
        cases r with
        | error f => cases h
        | ok res =>
          obtain ⟨vs', stop'⟩ := res
          cases h
          obtain ⟨ms, hms, rfl⟩ := ih.1 hr
          exact ⟨(v, s) :: ms, .cons hg hms, rfl⟩
    · rintro ⟨ms, hms, rfl⟩
      cases hms with
      | cons hg hrest =>
        rw [hg, Option.bind_some]
        dsimp only
        rw [ih.2 ⟨_, hrest, rfl⟩, Option.map_some]
        rfl

/-- A run of a sequence's items fails exactly when, after items that match one after
    another, one fails; its failure is the run's. -/
theorem runSequence_eq_error_iff {items : List (Grammar α)} {pos : Nat} {f : Failure} :
    runSequence rules toks fuel items pos = some (.error f) ↔
      ItemsFail rules toks fuel items pos f := by
  induction items generalizing pos with
  | nil =>
    rw [runSequence]
    exact ⟨fun h => (by cases h), fun h => (by cases h)⟩
  | cons g gs ih =>
    rw [runSequence]
    constructor
    · intro h
      obtain ⟨og, hg, h⟩ := Option.bind_eq_some_iff.1 h
      cases og with
      | failed f' =>
        cases h
        exact .here hg
      | matched v s =>
        obtain ⟨r, hr, h⟩ := Option.map_eq_some_iff.1 h
        cases r with
        | error f' =>
          cases h
          exact .later hg (ih.1 hr)
        | ok res => cases h
    · intro h
      cases h with
      | here hg =>
        rw [hg, Option.bind_some]
      | later hg hrest =>
        rw [hg, Option.bind_some]
        dsimp only
        rw [ih.2 hrest, Option.map_some]

/-! ## Sequence and nested `and` -/

/-- A sequence with a first item: the item, then the rest as a sequence from where it
    stopped. -/
theorem run_sequence_cons (a : Grammar α) (as : List (Grammar α)) (pos : Nat) :
    (Grammar.sequence (a :: as)).run rules toks fuel pos =
      (a.run rules toks fuel pos).bind fun
        | .failed f => some (.failed f)
        | .matched v s =>
          (runSequence rules toks fuel as s.stop).map fun
            | .error f => .failed f
            | .ok (vs, stop) => .matched (.arr (v :: vs)) (.since pos stop) := by
  rw [run, runSequence]
  cases a.run rules toks fuel pos with
  | none => rfl
  | some o =>
    cases o with
    | failed f => rfl
    | matched v s =>
      simp only [Option.bind_some]
      cases runSequence rules toks fuel as s.stop with
      | none => rfl
      | some r =>
        cases r with
        | error f => rfl
        | ok res => rfl

/-- The left nesting with a first part `acc` already formed: `acc`, then the remaining
    items one after another, with the values paired up from the left. -/
theorem run_foldl_and {pos : Nat} (hpos : pos ≤ toks.length) (acc : Grammar α)
    (bs : List (Grammar α)) :
    (bs.foldl .and acc).run rules toks fuel pos =
      (acc.run rules toks fuel pos).bind fun
        | .failed f => some (.failed f)
        | .matched v s =>
          (runSequence rules toks fuel bs s.stop).map fun
            | .error f => .failed f
            | .ok (vs, stop) => .matched (v.pairLeft vs) (.since pos stop) := by
  induction bs generalizing acc with
  | nil =>
    rw [List.foldl_nil]
    cases hacc : acc.run rules toks fuel pos with
    | none => rfl
    | some o =>
      cases o with
      | failed f => rfl
      | matched v s =>
        -- a lone first part reports its own success, which starts at `pos`
        have hstart := (run_respects hpos hacc).1
        simp only [Option.bind_some, runSequence, Option.map_some, Value.pairLeft_nil,
          Success.since_stop hstart]
  | cons b bs ih =>
    rw [List.foldl_cons, ih, run]
    cases hacc : acc.run rules toks fuel pos with
    | none => rfl
    | some o =>
      cases o with
      | failed f => rfl
      | matched va sa =>
        obtain ⟨hsa, hstop⟩ := run_respects hpos hacc
        simp only [Option.bind_some]
        rw [runSequence]
        cases hb : b.run rules toks fuel sa.stop with
        | none => rfl
        | some ob =>
          cases ob with
          | failed f => rfl
          | matched vb sb =>
            -- the pair reports a success from `pos`, and the next item runs where `b` stopped
            have hsb := (run_respects hstop hb).1
            have hle : pos ≤ sb.stop := by
              have := sa.start_le_stop
              have := sb.start_le_stop
              omega
            simp only [Option.bind_some, Success.stop_since hle]
            cases runSequence rules toks fuel bs sb.stop with
            | none => rfl
            | some r =>
              cases r with
              | error f => rfl
              | ok res => rfl

/-- The left nesting is the sequence with its values paired up: the same success or the same
    failure. -/
theorem run_andLeft {pos : Nat} (hpos : pos ≤ toks.length) (a : Grammar α)
    (as : List (Grammar α)) :
    (andLeft a as).run rules toks fuel pos =
      ((Grammar.sequence (a :: as)).run rules toks fuel pos).map Outcome.pairItems := by
  rw [andLeft, run_foldl_and hpos, run_sequence_cons]
  cases a.run rules toks fuel pos with
  | none => rfl
  | some o =>
    cases o with
    | failed f => rfl
    | matched v s =>
      simp only [Option.bind_some]
      cases runSequence rules toks fuel as s.stop with
      | none => rfl
      | some r =>
        cases r with
        | error f => rfl
        | ok res => rfl

/-- A sequence that matches collects one value per item, from the items matching one after
    another. -/
theorem run_sequence_eq_matched {items : List (Grammar α)} {pos : Nat} {w : Value}
    {m : Success} (h : (Grammar.sequence items).run rules toks fuel pos = some (.matched w m)) :
    ∃ ms stop, ItemsMatch rules toks fuel items pos ms stop ∧ w = .arr (ms.map Prod.fst) ∧
      m = .since pos stop := by
  rw [run] at h
  obtain ⟨r, hr, h⟩ := Option.map_eq_some_iff.1 h
  cases r with
  | error f => cases h
  | ok res =>
    obtain ⟨vs, stop⟩ := res
    cases h
    obtain ⟨ms, hms, rfl⟩ := runSequence_eq_ok_iff.1 hr
    exact ⟨ms, stop, hms, rfl, rfl⟩

/-- A sequence fails exactly when its items do: with the failure of the first item that
    fails. -/
theorem run_sequence_eq_failed_iff {items : List (Grammar α)} {pos : Nat} {f : Failure} :
    (Grammar.sequence items).run rules toks fuel pos = some (.failed f) ↔
      ItemsFail rules toks fuel items pos f := by
  rw [run, ← runSequence_eq_error_iff]
  constructor
  · intro h
    obtain ⟨r, hr, h⟩ := Option.map_eq_some_iff.1 h
    cases r with
    | error f' =>
      cases h
      exact hr
    | ok res => cases h
  · intro h
    rw [h, Option.map_some]

/-- The values of a sequence that matches are one per item. -/
theorem run_sequence_matched_shape {items : List (Grammar α)} {pos : Nat} {w : Value}
    {m : Success} (h : (Grammar.sequence items).run rules toks fuel pos = some (.matched w m)) :
    ∃ vs : List Value, w = .arr vs ∧ vs.length = items.length := by
  obtain ⟨ms, _, hms, rfl, -⟩ := run_sequence_eq_matched h
  exact ⟨_, rfl, (List.length_map _).trans hms.length_eq⟩

/-! ## Parsing from a scanner -/

/-- The left nesting parses as the sequence, with the values paired up. -/
theorem parse_andLeft (a : Grammar α) (as : List (Grammar α)) (sc : Scanner α) :
    (andLeft a as).parse rules sc =
      ((Grammar.sequence (a :: as)).parse rules sc).map fun r => (r.1.pairItems, r.2) := by
  unfold parse
  rw [run_andLeft sc.position_le]
  cases (Grammar.sequence (a :: as)).run rules sc.tokens (rules.fuelFor sc.tokens) sc.position with
  | none => rfl
  | some o => simp only [Option.map_some, Outcome.resume_pairItems]

/-- The left nesting parses to an outcome exactly when the sequence parses to the outcome
    that pairs up to it, leaving the scanner at the same place. -/
theorem parse_andLeft_eq_some_iff {a : Grammar α} {as : List (Grammar α)} {sc sc' : Scanner α}
    {o : Outcome} :
    (andLeft a as).parse rules sc = some (o, sc') ↔
      ∃ o', (Grammar.sequence (a :: as)).parse rules sc = some (o', sc') ∧ o'.pairItems = o := by
  rw [parse_andLeft, Option.map_eq_some_iff]
  constructor
  · rintro ⟨⟨o', sc''⟩, ho, h⟩
    simp only [Prod.mk.injEq] at h
    obtain ⟨rfl, rfl⟩ := h
    exact ⟨o', ho, rfl⟩
  · rintro ⟨o', ho, rfl⟩
    exact ⟨(o', sc'), ho, rfl⟩

/-- A sequence matches from a scanner exactly when its items match one after another from
    there; it consumes what they consumed together, and the scanner moves to its end. -/
theorem parse_sequence_eq_matched_iff (items : List (Grammar α)) (sc : Scanner α)
    (vs : List Value) (m : Success) (sc' : Scanner α) :
    (Grammar.sequence items).parse rules sc = some (.matched (.arr vs) m, sc') ↔
      ∃ ms, ItemsMatch rules sc.tokens (rules.fuelFor sc.tokens) items sc.position ms m.stop ∧
        vs = ms.map Prod.fst ∧ m = ⟨sc.position, (ms.map fun x => x.2.consumed).sum⟩ ∧
        sc' = sc.restore ⟨m.stop⟩ := by
  rw [parse_eq_some_iff]
  constructor
  · rintro ⟨h, rfl⟩
    obtain ⟨ms, stop, hms, hvs, rfl⟩ := run_sequence_eq_matched h
    -- the items stop as far on as they consumed together
    have hstop := hms.stop_eq sc.position_le
    have hm : Success.since sc.position stop = ⟨sc.position, (ms.map fun x => x.2.consumed).sum⟩ := by
      rw [Success.since, hstop, Nat.add_sub_cancel_left]
    have hm_stop : (Success.since sc.position stop).stop = stop := by
      rw [hm]
      exact hstop.symm
    refine ⟨ms, ?_, Value.arr.inj hvs, hm, rfl⟩
    rw [hm_stop]
    exact hms
  · rintro ⟨ms, hms, rfl, rfl, rfl⟩
    refine ⟨?_, rfl⟩
    rw [run, runSequence_eq_ok_iff.2 ⟨ms, hms, rfl⟩, Option.map_some]
    simp only [Success.since, Success.stop, Nat.add_sub_cancel_left]

/-- A sequence fails from a scanner exactly when one of its items fails after the ones
    before it matched one after another; the failure is that item's, and the scanner stays
    where it was. -/
theorem parse_sequence_eq_failed_iff (items : List (Grammar α)) (sc : Scanner α)
    (f : Failure) (sc' : Scanner α) :
    (Grammar.sequence items).parse rules sc = some (.failed f, sc') ↔
      ItemsFail rules sc.tokens (rules.fuelFor sc.tokens) items sc.position f ∧ sc' = sc := by
  rw [parse_eq_some_iff, run_sequence_eq_failed_iff, Outcome.resume, Scanner.restore_position]

/-- A sequence of no items matches nothing, and the scanner stays where it was. -/
theorem parse_sequence_nil (sc : Scanner α) :
    (Grammar.sequence []).parse rules sc = some (.matched (.arr []) (.empty sc.position), sc) := by
  rw [parse_eq_some_iff]
  refine ⟨?_, ?_⟩
  · rw [run, runSequence, Option.map_some]
    simp only [Success.since, Success.empty, Nat.sub_self]
  · rw [Outcome.resume, Success.stop_empty, Scanner.restore_position]

/-- A sequence and the same items nested to the left with `and` parse alike, from any
    scanner. They match with the same success, the sequence with the items' values in one
    array and the nesting with them paired up from the left, and leave the scanner at the
    same place; or they fail with the same failure. A match is the items matching one after
    another, each from where the one before stopped, and consumes what they consumed
    together. A failure is that of the first item that fails, detected where that item
    failed, and the scanner stays where it was. A sequence of no items matches nothing. -/
theorem sequence_parse_agrees_with_nested_and (rules : Rules α) (a : Grammar α)
    (as : List (Grammar α)) (sc : Scanner α) :
    (∀ (v : Value) (vs : List Value) (m : Success) (sc' : Scanner α), vs.length = as.length →
      ((Grammar.sequence (a :: as)).parse rules sc = some (.matched (.arr (v :: vs)) m, sc') ↔
        (andLeft a as).parse rules sc = some (.matched (v.pairLeft vs) m, sc'))) ∧
    (∀ (f : Failure) (sc' : Scanner α),
      (Grammar.sequence (a :: as)).parse rules sc = some (.failed f, sc') ↔
        (andLeft a as).parse rules sc = some (.failed f, sc')) ∧
    (∀ (vs : List Value) (m : Success) (sc' : Scanner α),
      (Grammar.sequence (a :: as)).parse rules sc = some (.matched (.arr vs) m, sc') ↔
        ∃ ms, ItemsMatch rules sc.tokens (rules.fuelFor sc.tokens) (a :: as) sc.position ms
            m.stop ∧
          vs = ms.map Prod.fst ∧ m = ⟨sc.position, (ms.map fun x => x.2.consumed).sum⟩ ∧
          sc' = sc.restore ⟨m.stop⟩) ∧
    (∀ (f : Failure) (sc' : Scanner α),
      (Grammar.sequence (a :: as)).parse rules sc = some (.failed f, sc') ↔
        ItemsFail rules sc.tokens (rules.fuelFor sc.tokens) (a :: as) sc.position f ∧
          sc' = sc) ∧
    (Grammar.sequence []).parse rules sc = some (.matched (.arr []) (.empty sc.position), sc) := by
  refine ⟨fun v vs m sc' hlen => ?_, fun f sc' => ?_, parse_sequence_eq_matched_iff _ sc,
    parse_sequence_eq_failed_iff _ sc, parse_sequence_nil sc⟩
  · rw [parse_andLeft_eq_some_iff]
    constructor
    · intro h
      exact ⟨_, h, rfl⟩
    · rintro ⟨o, ho, hpair⟩
      cases o with
      | failed f => cases hpair
      | matched w m' =>
        -- the sequence's values are one per item, so the pairing gives them back
        obtain ⟨ws, rfl, hws⟩ := run_sequence_matched_shape (parse_eq_some_iff.1 ho).1
        obtain ⟨rfl, rfl⟩ := Outcome.matched_pairItems_eq (by simp [hws, hlen]) hpair
        exact ho
  · rw [parse_andLeft_eq_some_iff]
    constructor
    · intro h
      exact ⟨_, h, rfl⟩
    · rintro ⟨o, ho, hpair⟩
      rw [Outcome.pairItems_eq_failed_iff] at hpair
      rw [← hpair]
      exact ho

/-- Over `let `, the letters `l`, `e`, `t` nested to the left match as the sequence of them
    does, with the values paired up from the left. -/
theorem nested_and_pairs_up_letters :
    (andLeft (.token 'l') [.token 'e', .token 't']).parse ([] : Rules Char)
        (Scanner.new ['l', 'e', 't', ' ']) =
      some (.matched (.arr [.arr [Lexeme.toValue 'l', Lexeme.toValue 'e'], Lexeme.toValue 't'])
        ⟨0, 3⟩, (Scanner.new ['l', 'e', 't', ' ']).restore ⟨3⟩) :=
  ((sequence_parse_agrees_with_nested_and [] (.token 'l') [.token 'e', .token 't']
      (Scanner.new ['l', 'e', 't', ' '])).1 (Lexeme.toValue 'l')
      [Lexeme.toValue 'e', Lexeme.toValue 't'] ⟨0, 3⟩ _ rfl).1
    (by simp [parse, run, runSequence, single, expectToken, Success.since, Success.stop,
      Outcome.resume])

end Grammar

end TokenPeg
