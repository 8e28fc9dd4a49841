import TokenPeg.Proofs.Fuel
import TokenPeg.Proofs.Alternation
/-
  TokenPeg.Proofs.Judgement

  The big-step judgement of parsing expression grammars, over a list of tokens and with
  semantic values. `Yields rules toks g p r` says that the grammar `g`, applied to `toks`
  at position `p`, yields `r`: `some (v, c)` when it matches the `c` tokens from `p` with
  value `v`, `none` when it fails. The rules are the textbook ones, read for this
  library's forms:

  * `any`, `token`, `oneOf`, `noneOf` and `satisfy` are terminals that test one token;
  * `succeed` is the empty expression, with its value, and `endOfInput` is `!.`;
  * `and` and `sequence` are sequencing, `or` and `choice` are ordered choice;
  * `optional g` is `g?`, `not g` is `!g`, `complete g` is `g !.`;
  * `sepBy item sep` is `item (sep item)*`;
  * labels are transparent, `map` applies its function to the value, `withSpan` pairs the
    value with the range `[p, p + c)`, a filter is a semantic predicate on the value, and a
    rule call unfolds the rule's body.

  Repetition is greedy: it stops at the first failure of the repeated grammar, right after
  an iteration that consumed nothing (which it keeps), or when its bound of iterations is
  spent, and it succeeds when at least its least count of iterations matched.

  Every finished run is a derivation of the judgement (`yields_of_run`). The proof follows
  the recursion of the run, and the cursor contract of `TokenPeg.Proofs.Contract` places
  each part where the judgement expects it: a part that matched from `p` stops at `p`
  plus what it consumed.
-/

namespace TokenPeg

/-! ## Outcomes as results of the judgement -/

namespace Success

@[simp] theorem consumed_since (start stop : Nat) : (since start stop).consumed = stop - start :=
  rfl

@[simp] theorem stop_mk (start consumed : Nat) : (⟨start, consumed⟩ : Success).stop = start + consumed :=
  rfl

/-- A match that starts at `p` stops at `p` plus what it consumed. -/
theorem stop_eq_of_start {s : Success} {p : Nat} (h : s.start = p) : s.stop = p + s.consumed := by
  rw [Success.stop, h]

end Success

namespace Outcome

/-- What an outcome says in the judgement's terms: the value and the count of tokens
    consumed for a match, nothing for a failure. -/
def result : Outcome → Option (Value × Nat)
  | .matched v s => some (v, s.consumed)
  | .failed _ => none

@[simp] theorem result_matched (v : Value) (s : Success) : (matched v s).result = some (v, s.consumed) :=
  rfl

@[simp] theorem result_failed (f : Failure) : (failed f).result = none := rfl

theorem result_matched_since (v : Value) (p c : Nat) :
    (matched v (.since p (p + c))).result = some (v, c) := by
  simp

/-- Alternation passes a later alternative's result on unchanged. -/
@[simp] theorem result_after (f : Failure) (o : Outcome) : (o.after f).result = o.result := by
  cases o <;> rfl

/-- An outcome that keeps the cursor contract from `p` is known from its result, up to the
    failure: a match of `c` tokens with value `v` is the match `⟨p, c⟩`. -/
theorem eq_matched_of_result {len p : Nat} {o : Outcome} {v : Value} {c : Nat}
    (hr : o.Respects len p) (h : o.result = some (v, c)) : o = .matched v ⟨p, c⟩ := by
  cases o with
  | matched v' s =>
    obtain ⟨start, consumed⟩ := s
    simp only [result_matched, Option.some.injEq, Prod.mk.injEq] at h
    obtain ⟨rfl, rfl⟩ := h
    have hstart : start = p := hr.1
    rw [hstart]
  | failed f => cases h

theorem exists_failed_of_result {o : Outcome} (h : o.result = none) : ∃ f, o = .failed f := by
  cases o with
  | matched v s => cases h
  | failed f => exact ⟨f, rfl⟩

end Outcome

namespace Grammar

variable {α : Type} [Lexeme α] [DecidableEq α]

/-- The test of a single-token terminal: which tokens it takes. The other forms are not
    terminals. -/
def terminalTest : Grammar α → Option (α → Bool)
  | .any => some fun _ => true
  | .token e => some fun t => decide (t = e)
  | .oneOf set => some fun t => decide (t ∈ set)
  | .noneOf set => some fun t => decide (t ∉ set)
  | .satisfy test _ => some test
  | _ => none

/-! ## The judgement -/

mutual

/-- `Yields rules toks g p r`: the grammar `g`, applied to `toks` at position `p`, yields `r`,
    a match `some (v, c)` of `c` tokens with value `v`, or a failure `none`. -/
inductive Yields (rules : Rules α) (toks : List α) :
    Grammar α → Nat → Option (Value × Nat) → Prop
  /-- A terminal takes the token at `p` when the token passes its test. -/
  | take {g : Grammar α} {test : α → Bool} {p : Nat} {t : α} :
      g.terminalTest = some test → toks[p]? = some t → test t = true →
      Yields rules toks g p (some (Lexeme.toValue t, 1))
  /-- A terminal fails when there is no token at `p` that passes its test. -/
  | refuse {g : Grammar α} {test : α → Bool} {p : Nat} :
      g.terminalTest = some test → (∀ t, toks[p]? = some t → test t = false) →
      Yields rules toks g p none
  | succeed {v : Value} {p : Nat} : Yields rules toks (.succeed v) p (some (v, 0))
  /-- The end of the input is `!.`. -/
  | endOfInput {p : Nat} {r : Option (Value × Nat)} :
      Yields rules toks (.not .any) p r → Yields rules toks .endOfInput p r
  | and {a b : Grammar α} {p : Nat} {va vb : Value} {ca cb : Nat} :
      Yields rules toks a p (some (va, ca)) → Yields rules toks b (p + ca) (some (vb, cb)) →
      Yields rules toks (.and a b) p (some (.arr [va, vb], ca + cb))
  | and_left {a b : Grammar α} {p : Nat} :
      Yields rules toks a p none → Yields rules toks (.and a b) p none
  | and_right {a b : Grammar α} {p : Nat} {va : Value} {ca : Nat} :
      Yields rules toks a p (some (va, ca)) → Yields rules toks b (p + ca) none →
      Yields rules toks (.and a b) p none
  | or_left {a b : Grammar α} {p : Nat} {v : Value} {c : Nat} :
      Yields rules toks a p (some (v, c)) → Yields rules toks (.or a b) p (some (v, c))
  | or_right {a b : Grammar α} {p : Nat} {r : Option (Value × Nat)} :
      Yields rules toks a p none → Yields rules toks b p r → Yields rules toks (.or a b) p r
  | choice {alts : List (Grammar α)} {p : Nat} {r : Option (Value × Nat)} :
      YieldsFirst rules toks alts p r → Yields rules toks (.choice alts) p r
  | sequence {items : List (Grammar α)} {p : Nat} {vs : List Value} {c : Nat} :
      YieldsAll rules toks items p (some (vs, c)) →
      Yields rules toks (.sequence items) p (some (.arr vs, c))
  | sequence_fail {items : List (Grammar α)} {p : Nat} :
      YieldsAll rules toks items p none → Yields rules toks (.sequence items) p none
  /-- A repetition that reached its least count matches, with the iterations' values. -/
  | iterate {g : Grammar α} {min : Nat} {max : Option Nat} {p : Nat} {vs : List Value} {c : Nat} :
      Repeats rules toks g max p vs c → min ≤ vs.length →
      Yields rules toks (.iterate g min max) p (some (.arr vs, c))
  | iterate_few {g : Grammar α} {min : Nat} {max : Option Nat} {p : Nat} {vs : List Value}
      {c : Nat} :
      Repeats rules toks g max p vs c → vs.length < min →
      Yields rules toks (.iterate g min max) p none
  /-- A separated list is `item (sep item)*`, with the values of the items. -/
  | sepBy {item sep : Grammar α} {p : Nat} {v : Value} {c : Nat} {ws : List Value} {c' : Nat} :
      Yields rules toks item p (some (v, c)) → Repeats rules toks (.and sep item) none (p + c) ws c' →
      Yields rules toks (.sepBy item sep) p (some (.arr (v :: ws.map (·.item 1)), c + c'))
  | sepBy_fail {item sep : Grammar α} {p : Nat} :
      Yields rules toks item p none → Yields rules toks (.sepBy item sep) p none
  | optional {g : Grammar α} {p : Nat} {v : Value} {c : Nat} :
      Yields rules toks g p (some (v, c)) →
      Yields rules toks (.optional g) p (some (Value.ofOption (some v), c))
  | optional_none {g : Grammar α} {p : Nat} :
      Yields rules toks g p none → Yields rules toks (.optional g) p (some (Value.ofOption none, 0))
  | not {g : Grammar α} {p : Nat} :
      Yields rules toks g p none → Yields rules toks (.not g) p (some (.null, 0))
  | not_matched {g : Grammar α} {p : Nat} {v : Value} {c : Nat} :
      Yields rules toks g p (some (v, c)) → Yields rules toks (.not g) p none
  | label {g : Grammar α} {name : String} {p : Nat} {r : Option (Value × Nat)} :
      Yields rules toks g p r → Yields rules toks (.label g name) p r
  | filter {g : Grammar α} {keep : Value → Bool} {message : String} {p : Nat} {v : Value}
      {c : Nat} :
      Yields rules toks g p (some (v, c)) → keep v = true →
      Yields rules toks (.filter g keep message) p (some (v, c))
  | filter_reject {g : Grammar α} {keep : Value → Bool} {message : String} {p : Nat} {v : Value}
      {c : Nat} :
      Yields rules toks g p (some (v, c)) → keep v = false →
      Yields rules toks (.filter g keep message) p none
  | filter_fail {g : Grammar α} {keep : Value → Bool} {message : String} {p : Nat} :
      Yields rules toks g p none → Yields rules toks (.filter g keep message) p none
  | map {g : Grammar α} {f : Value → Value} {p : Nat} {r : Option (Value × Nat)} :
      Yields rules toks g p r → Yields rules toks (.map g f) p (r.map fun (v, c) => (f v, c))
  /-- A complete match is `g !.`, with the value of `g`. -/
  | complete {g : Grammar α} {p : Nat} {v : Value} {c : Nat} :
      Yields rules toks g p (some (v, c)) → Yields rules toks (.not .any) (p + c) (some (.null, 0)) →
      Yields rules toks (.complete g) p (some (v, c))
  | complete_trailing {g : Grammar α} {p : Nat} {v : Value} {c : Nat} :
      Yields rules toks g p (some (v, c)) → Yields rules toks (.not .any) (p + c) none →
      Yields rules toks (.complete g) p none
  | complete_fail {g : Grammar α} {p : Nat} :
      Yields rules toks g p none → Yields rules toks (.complete g) p none
  | withSpan {g : Grammar α} {p : Nat} {r : Option (Value × Nat)} :
      Yields rules toks g p r →
      Yields rules toks (.withSpan g) p (r.map fun (v, c) => (.arr [v, Value.ofRange p (p + c)], c))
  /-- A rule call yields what the rule's body yields. -/
  | rule {name : String} {body : Grammar α} {p : Nat} {r : Option (Value × Nat)} :
      rules.lookup name = some body → Yields rules toks body p r →
      Yields rules toks (.rule name) p r

/-- Ordered choice over a list: the first alternative that matches, or a failure when all
    of them fail. -/
inductive YieldsFirst (rules : Rules α) (toks : List α) :
    List (Grammar α) → Nat → Option (Value × Nat) → Prop
  | nil {p : Nat} : YieldsFirst rules toks [] p none
  | head {g : Grammar α} {gs : List (Grammar α)} {p : Nat} {v : Value} {c : Nat} :
      Yields rules toks g p (some (v, c)) → YieldsFirst rules toks (g :: gs) p (some (v, c))
  | next {g : Grammar α} {gs : List (Grammar α)} {p : Nat} {r : Option (Value × Nat)} :
      Yields rules toks g p none → YieldsFirst rules toks gs p r →
      YieldsFirst rules toks (g :: gs) p r

/-- Sequencing over a list: the items' values and the tokens they consumed together, or a
    failure as soon as one item fails. -/
inductive YieldsAll (rules : Rules α) (toks : List α) :
    List (Grammar α) → Nat → Option (List Value × Nat) → Prop
  | nil {p : Nat} : YieldsAll rules toks [] p (some ([], 0))
  | cons {g : Grammar α} {gs : List (Grammar α)} {p : Nat} {v : Value} {c : Nat}
      {vs : List Value} {c' : Nat} :
      Yields rules toks g p (some (v, c)) → YieldsAll rules toks gs (p + c) (some (vs, c')) →
      YieldsAll rules toks (g :: gs) p (some (v :: vs, c + c'))
  | cons_rest_fail {g : Grammar α} {gs : List (Grammar α)} {p : Nat} {v : Value} {c : Nat} :
      Yields rules toks g p (some (v, c)) → YieldsAll rules toks gs (p + c) none →
      YieldsAll rules toks (g :: gs) p none
  | cons_fail {g : Grammar α} {gs : List (Grammar α)} {p : Nat} :
      Yields rules toks g p none → YieldsAll rules toks (g :: gs) p none

/-- `Repeats rules toks g bound p vs c`: greedy repetition of `g` from `p`, with `bound`
    iterations left (`none` for no bound), collects the values `vs` and consumes `c` tokens. -/
inductive Repeats (rules : Rules α) (toks : List α) :
    Grammar α → Option Nat → Nat → List Value → Nat → Prop
  /-- No iteration is left. -/
  | spent {g : Grammar α} {p : Nat} : Repeats rules toks g (some 0) p [] 0
  /-- The iteration fails: the repetition stops there. -/
  | stop {g : Grammar α} {bound : Option Nat} {p : Nat} :
      bound ≠ some 0 → Yields rules toks g p none → Repeats rules toks g bound p [] 0
  /-- The iteration matches without consuming: it is kept, and the repetition stops. -/
  | empty {g : Grammar α} {bound : Option Nat} {p : Nat} {v : Value} :
      bound ≠ some 0 → Yields rules toks g p (some (v, 0)) → Repeats rules toks g bound p [v] 0
  /-- The iteration consumes: the repetition goes on after it, with one iteration less. -/
  | more {g : Grammar α} {bound : Option Nat} {p : Nat} {v : Value} {c : Nat} {vs : List Value}
      {c' : Nat} :
      bound ≠ some 0 → Yields rules toks g p (some (v, c)) → 0 < c →
      Repeats rules toks g (bound.map (· - 1)) (p + c) vs c' →
      Repeats rules toks g bound p (v :: vs) (c + c')

end

variable {rules : Rules α} {toks : List α}

/-! ## Terminals and the end of the input -/

/-- A terminal runs as `single`, with a check that refuses exactly the tokens its test
    rejects. -/
theorem run_terminal (rules : Rules α) (toks : List α) {g : Grammar α} {test : α → Bool}
    (hg : g.terminalTest = some test) :
    ∃ check : α → Option Reason, (∀ t, check t = none ↔ test t = true) ∧
      ∀ fuel pos, g.run rules toks fuel pos = some (single toks pos check) := by
  match g, hg with
  | .any, rfl => exact ⟨fun _ => none, fun _ => by simp, fun fuel pos => by rw [run]⟩
  | .token e, rfl =>
    refine ⟨expectToken e, fun t => ?_, fun fuel pos => by rw [run]⟩
    by_cases h : t = e <;> simp [expectToken, h]
  | .oneOf set, rfl =>
    refine ⟨expectMember set, fun t => ?_, fun fuel pos => by rw [run]⟩
    by_cases h : t ∈ set <;> simp [expectMember, h]
  | .noneOf set, rfl =>
    refine ⟨expectNonMember set, fun t => ?_, fun fuel pos => by rw [run]⟩
    by_cases h : t ∈ set <;> simp [expectNonMember, prohibits, h]
  | .satisfy test desc, rfl =>
    refine ⟨expectPassing test desc, fun t => ?_, fun fuel pos => by rw [run]⟩
    cases h : test t <;> simp [expectPassing, h]

/-- A run of a terminal is a derivation of its result. -/
theorem yields_of_run_terminal {fuel : Nat} {g : Grammar α} {test : α → Bool} {pos : Nat}
    {o : Outcome} (hg : g.terminalTest = some test) (h : g.run rules toks fuel pos = some o) :
    Yields rules toks g pos o.result := by
  obtain ⟨check, hcheck, hrun⟩ := run_terminal rules toks hg
  rw [hrun fuel pos, Option.some.injEq] at h
  subst h
  unfold single
  cases ht : toks[pos]? with
  | none => exact .refuse hg fun t h => nomatch ht.symm.trans h
  | some t =>
    dsimp only
    cases hc : check t with
    | none => exact .take hg ht ((hcheck t).1 hc)
    | some reason =>
      -- the check refuses the token, so the test rejects it
      have hfail : test t = false :=
        Bool.eq_false_iff.2 fun hpass => by rw [(hcheck t).2 hpass] at hc; cases hc
      refine .refuse hg fun t' ht' => ?_
      rw [ht, Option.some.injEq] at ht'
      exact ht' ▸ hfail

/-- At the end of the input, `!.` matches nothing. -/
theorem yields_notAny_of_le {p : Nat} (h : toks.length ≤ p) :
    Yields rules toks (.not .any) p (some (.null, 0)) :=
  .not (.refuse rfl fun t ht => by rw [List.getElem?_eq_none h] at ht; cases ht)

/-- Before a token, `!.` fails. -/
theorem yields_notAny_of_lt {p : Nat} (h : p < toks.length) :
    Yields rules toks (.not .any) p none :=
  .not_matched (.take rfl (List.getElem?_eq_getElem h) rfl)

/-! ## Every finished run is a derivation -/

/-- What a run of a sequence's items says in the judgement's terms. -/
def sequenceResult (pos : Nat) : Except Failure (List Value × Nat) → Option (List Value × Nat)
  | .error _ => none
  | .ok (vs, stop) => some (vs, stop - pos)

@[simp] theorem sequenceResult_error (pos : Nat) (f : Failure) : sequenceResult pos (.error f) = none :=
  rfl

@[simp] theorem sequenceResult_ok (pos : Nat) (vs : List Value) (stop : Nat) :
    sequenceResult pos (.ok (vs, stop)) = some (vs, stop - pos) :=
  rfl

mutual

/-- A finished run yields its result: its outcome is a derivation of the judgement. -/
theorem yields_of_run {fuel : Nat} {g : Grammar α} {pos : Nat} {o : Outcome}
    (hpos : pos ≤ toks.length) (h : g.run rules toks fuel pos = some o) :
    Yields rules toks g pos o.result := by
  match g with
  | .any | .token _ | .oneOf _ | .noneOf _ | .satisfy _ _ => exact yields_of_run_terminal rfl h
  | .succeed v =>
    rw [run] at h
    cases h
    exact .succeed
  | .endOfInput =>
    rw [run] at h
    -- at the end `!.` matches, and before a token it fails
    split at h <;> cases h
    · rename_i hend
      exact .endOfInput (yields_notAny_of_le (List.getElem?_eq_none_iff.1 hend))
    · rename_i t hat
      exact .endOfInput (yields_notAny_of_lt (List.getElem?_eq_some_iff.1 hat).1)
  | .and a b =>
    rw [run] at h
    obtain ⟨oa, ha, h⟩ := Option.bind_eq_some_iff.1 h
    have hya := yields_of_run hpos ha
    cases oa with
    | failed f =>
      cases h
      exact .and_left hya
    | matched va sa =>
      obtain ⟨hsa, hstop⟩ := run_respects hpos ha
      obtain ⟨ob, hb, h⟩ := Option.bind_eq_some_iff.1 h
      -- the second part runs where the first stopped
      have hyb := yields_of_run hstop hb
      rw [Success.stop_eq_of_start hsa] at hyb
      cases ob with
      | failed f =>
        cases h
        exact .and_right hya hyb
      | matched vb sb =>
        cases h
        have hsb := Success.stop_eq_of_start (run_respects hstop hb).1
        rw [Outcome.result_matched, Success.consumed_since, hsb, Success.stop_eq_of_start hsa,
          Nat.add_assoc, Nat.add_sub_cancel_left]
        exact .and hya hyb
  | .or a b =>
    rw [run_or] at h
    obtain ⟨oa, ha, h⟩ := Option.bind_eq_some_iff.1 h
    have hya := yields_of_run hpos ha
    cases oa with
    | matched va sa =>
      cases h
      exact .or_left hya
    | failed f =>
      -- the second alternative's result stands
      obtain ⟨ob, hb, rfl⟩ := Option.map_eq_some_iff.1 h
      rw [Outcome.result_after]
      exact .or_right hya (yields_of_run hpos hb)
  | .choice alts =>
    rw [run] at h
    exact .choice (yieldsFirst_of_runChoice hpos h)
  | .sequence items =>
    rw [run] at h
    obtain ⟨e, he, h⟩ := Option.map_eq_some_iff.1 h
    have hy := yieldsAll_of_runSequence hpos he
    cases e with
    | error f =>
      cases h
      exact .sequence_fail hy
    | ok res =>
      obtain ⟨vs, stop⟩ := res
      cases h
      exact .sequence hy
  | .iterate g min max =>
    rw [run] at h
    obtain ⟨it, hit, rfl⟩ := Option.map_eq_some_iff.1 h
    have hrep := repeats_of_runIteration hpos hit
    -- the repetition fails with too few iterations and matches with enough
    unfold Iteration.settle
    split
    · rename_i hfew
      exact .iterate_few hrep hfew
    · rename_i henough
      exact .iterate hrep (Nat.le_of_not_lt henough)
  | .sepBy item sep =>
    rw [run] at h
    obtain ⟨oi, hi, h⟩ := Option.bind_eq_some_iff.1 h
    have hyi := yields_of_run hpos hi
    cases oi with
    | failed f =>
      cases h
      exact .sepBy_fail hyi
    | matched v s =>
      obtain ⟨hs, hstop⟩ := run_respects hpos hi
      obtain ⟨res, hres, h⟩ := Option.map_eq_some_iff.1 h
      obtain ⟨vs, stop⟩ := res
      cases h
      -- the rest of the list is the repetition of `sep item` after the first item
      have hle := (runSeparated_respects hstop hres).1
      obtain ⟨ws, hrep, rfl⟩ := repeats_of_runSeparated hstop hres
      have hat := Success.stop_eq_of_start hs
      rw [hat] at hrep hle
      rw [Outcome.result_matched, Success.consumed_since,
        show stop - pos = s.consumed + (stop - (pos + s.consumed)) by omega]
      exact .sepBy hyi hrep
  | .optional g =>
    rw [run] at h
    obtain ⟨og, hg, rfl⟩ := Option.map_eq_some_iff.1 h
    have hy := yields_of_run hpos hg
    cases og with
    | matched v s => exact .optional hy
    | failed f => exact .optional_none hy
  | .not g =>
    rw [run] at h
    obtain ⟨og, hg, rfl⟩ := Option.map_eq_some_iff.1 h
    have hy := yields_of_run hpos hg
    cases og with
    | matched v s => exact .not_matched hy
    | failed f => exact .not hy
  | .label g name =>
    rw [run] at h
    obtain ⟨og, hg, rfl⟩ := Option.map_eq_some_iff.1 h
    have hy := yields_of_run hpos hg
    cases og with
    | matched v s => exact .label hy
    | failed f => exact .label hy
  | .filter g keep message =>
    rw [run] at h
    obtain ⟨og, hg, rfl⟩ := Option.map_eq_some_iff.1 h
    have hy := yields_of_run hpos hg
    cases og with
    | matched v s =>
      dsimp only
      cases hk : keep v with
      | true => exact .filter hy hk
      | false => exact .filter_reject hy hk
    | failed f => exact .filter_fail hy
  | .map g f =>
    rw [run] at h
    obtain ⟨og, hg, rfl⟩ := Option.map_eq_some_iff.1 h
    have hy := yields_of_run hpos hg
    cases og with
    | matched v s => exact .map hy
    | failed e => exact .map hy
  | .complete g =>
    rw [run] at h
    obtain ⟨og, hg, rfl⟩ := Option.map_eq_some_iff.1 h
    have hy := yields_of_run hpos hg
    cases og with
    | matched v s =>
      -- the test for the end of the input is made where the match stopped
      have hat := Success.stop_eq_of_start (run_respects hpos hg).1
      dsimp only
      split
      · rename_i hend
        rw [hat] at hend
        exact .complete hy (yields_notAny_of_le hend)
      · rename_i hmore
        rw [hat] at hmore
        exact .complete_trailing hy (yields_notAny_of_lt (Nat.lt_of_not_le hmore))
    | failed f => exact .complete_fail hy
  | .withSpan g =>
    rw [run] at h
    obtain ⟨og, hg, rfl⟩ := Option.map_eq_some_iff.1 h
    have hy := yields_of_run hpos hg
    cases og with
    | matched v s =>
      -- the span of the match is `[pos, pos + consumed)`
      have hs := (run_respects hpos hg).1
      have hspan : Value.ofRange s.start s.stop = Value.ofRange pos (pos + s.consumed) := by
        rw [Success.stop_eq_of_start hs, hs]
      dsimp only
      rw [Outcome.result_matched, hspan]
      exact .withSpan hy
    | failed f => exact .withSpan hy
  | .rule name =>
    match fuel with
    | 0 =>
      rw [run] at h
      cases h
    | fuel + 1 =>
      rw [run] at h
      obtain ⟨body, found, h⟩ := Option.bind_eq_some_iff.1 h
      exact .rule found (yields_of_run hpos h)
termination_by (fuel, 2 * sizeOf g, 0)

/-- A finished choice yields the result of the first alternative that matched, or a
    failure. -/
theorem yieldsFirst_of_runChoice {fuel : Nat} {alts : List (Grammar α)} {pos : Nat}
    {best : Option Failure} {o : Outcome} (hpos : pos ≤ toks.length)
    (h : runChoice rules toks fuel alts pos best = some o) :
    YieldsFirst rules toks alts pos o.result := by
  match alts with
  | [] =>
    rw [runChoice] at h
    cases h
    exact .nil
  | g :: gs =>
    rw [runChoice] at h
    obtain ⟨og, hg, h⟩ := Option.bind_eq_some_iff.1 h
    have hy := yields_of_run hpos hg
    cases og with
    | matched v s =>
      cases h
      exact .head hy
    | failed f => exact .next hy (yieldsFirst_of_runChoice hpos h)
termination_by (fuel, 2 * sizeOf alts, 0)

/-- A finished run of a sequence's items yields its result. -/
theorem yieldsAll_of_runSequence {fuel : Nat} {items : List (Grammar α)} {pos : Nat}
    {e : Except Failure (List Value × Nat)} (hpos : pos ≤ toks.length)
    (h : runSequence rules toks fuel items pos = some e) :
    YieldsAll rules toks items pos (sequenceResult pos e) := by
  match items with
  | [] =>
    rw [runSequence] at h
    cases h
    rw [sequenceResult_ok, Nat.sub_self]
    exact .nil
  | g :: gs =>
    rw [runSequence] at h
    obtain ⟨og, hg, h⟩ := Option.bind_eq_some_iff.1 h
    have hy := yields_of_run hpos hg
    cases og with
    | failed f =>
      cases h
      exact .cons_fail hy
    | matched v s =>
      obtain ⟨hs, hstop⟩ := run_respects hpos hg
      have hat := Success.stop_eq_of_start hs
      obtain ⟨e', he', rfl⟩ := Option.map_eq_some_iff.1 h
      -- the other items run where the first stopped
      have hrest := yieldsAll_of_runSequence hstop he'
      have hbounds := (runSequence_respects hstop he').2
      rw [hat] at hrest hbounds
      cases e' with
      | error f => exact .cons_rest_fail hy hrest
      | ok res =>
        obtain ⟨vs, stop⟩ := res
        have hle := (hbounds vs stop rfl).1
        rw [sequenceResult_ok] at hrest
        dsimp only
        rw [sequenceResult_ok, show stop - pos = s.consumed + (stop - (pos + s.consumed)) by omega]
        exact .cons hy hrest
termination_by (fuel, 2 * sizeOf items, 0)

/-- A finished repetition is a greedy repetition of the judgement: its values, and the
    tokens up to where it stopped. -/
theorem repeats_of_runIteration {fuel : Nat} {g : Grammar α} {budget : Option Nat} {pos : Nat}
    {it : Iteration} (hpos : pos ≤ toks.length)
    (h : runIteration rules toks fuel g budget pos = some it) :
    Repeats rules toks g budget pos it.values (it.stop - pos) := by
  rw [runIteration] at h
  by_cases hb : budget = some 0
  · rw [if_pos hb] at h
    cases h
    subst hb
    rw [Nat.sub_self]
    exact .spent
  · rw [if_neg hb] at h
    obtain ⟨og, hg, h⟩ := Option.bind_eq_some_iff.1 h
    have hy := yields_of_run hpos hg
    cases og with
    | failed f =>
      cases h
      rw [Nat.sub_self]
      exact .stop hb hy
    | matched v s =>
      obtain ⟨hs, hstop⟩ := run_respects hpos hg
      have hat := Success.stop_eq_of_start hs
      dsimp only at h
      by_cases hmore : pos < s.stop ∧ s.stop ≤ toks.length
      · rw [if_pos hmore] at h
        obtain ⟨it', hit', rfl⟩ := Option.map_eq_some_iff.1 h
        have hrest := repeats_of_runIteration hmore.2 hit'
        have hle := (runIteration_respects hmore.2 hit').1
        rw [hat] at hrest hle
        dsimp only
        rw [show it'.stop - pos = s.consumed + (it'.stop - (pos + s.consumed)) by omega]
        exact .more hb hy (by omega) hrest
      · rw [if_neg hmore] at h
        cases h
        -- an iteration that consumed nothing is kept, and the repetition stops
        have hzero : s.consumed = 0 := by omega
        rw [Outcome.result_matched, hzero] at hy
        dsimp only
        rw [hat, hzero, Nat.add_zero, Nat.sub_self]
        exact .empty hb hy
termination_by (fuel, 2 * sizeOf g + 1, toks.length + 1 - pos)

/-- A finished rest of a separated list is a greedy repetition of `sep item` with no bound,
    whose second values are the items' values. -/
theorem repeats_of_runSeparated {fuel : Nat} {item sep : Grammar α} {pos : Nat}
    {vs : List Value} {stop : Nat} (hpos : pos ≤ toks.length)
    (h : runSeparated rules toks fuel item sep pos = some (vs, stop)) :
    ∃ ws, Repeats rules toks (.and sep item) none pos ws (stop - pos) ∧ vs = ws.map (·.item 1) := by
  rw [runSeparated] at h
  obtain ⟨os, hs, h⟩ := Option.bind_eq_some_iff.1 h
  have hys := yields_of_run hpos hs
  cases os with
  | failed f =>
    cases h
    refine ⟨[], ?_, rfl⟩
    rw [Nat.sub_self]
    exact .stop (by simp) (.and_left hys)
  | matched w s =>
    obtain ⟨hss, hsstop⟩ := run_respects hpos hs
    have hat := Success.stop_eq_of_start hss
    obtain ⟨oi, hi, h⟩ := Option.bind_eq_some_iff.1 h
    have hyi := yields_of_run hsstop hi
    rw [hat] at hyi
    cases oi with
    | failed f =>
      cases h
      refine ⟨[], ?_, rfl⟩
      rw [Nat.sub_self]
      exact .stop (by simp) (.and_right hys hyi)
    | matched v s' =>
      obtain ⟨hs', hstop'⟩ := run_respects hsstop hi
      have hat' := Success.stop_eq_of_start hs'
      -- the separator and the item together are one iteration of `sep item`
      have hpair : Yields rules toks (.and sep item) pos
          (some (.arr [w, v], s.consumed + s'.consumed)) := .and hys hyi
      dsimp only at h
      by_cases hmore : pos < s'.stop ∧ s'.stop ≤ toks.length
      · rw [if_pos hmore] at h
        obtain ⟨res, hres, h⟩ := Option.map_eq_some_iff.1 h
        obtain ⟨vs', stop'⟩ := res
        cases h
        have hle := (runSeparated_respects hmore.2 hres).1
        obtain ⟨ws, hrep, rfl⟩ := repeats_of_runSeparated hmore.2 hres
        have hnext : s'.stop = pos + (s.consumed + s'.consumed) := by omega
        rw [hnext] at hrep hle
        refine ⟨.arr [w, v] :: ws, ?_, rfl⟩
        rw [show stop' - pos = (s.consumed + s'.consumed) + (stop' - (pos + (s.consumed + s'.consumed)))
          by omega]
        exact .more (by simp) hpair (by omega) hrep
      · rw [if_neg hmore] at h
        cases h
        -- a separator and an item that consumed nothing end the list, the item kept
        have hzero : s.consumed + s'.consumed = 0 := by omega
        rw [hzero] at hpair
        refine ⟨[.arr [w, v]], ?_, rfl⟩
        rw [show s'.stop - pos = 0 by omega]
        exact .empty (by simp) hpair
termination_by (fuel, 2 * (sizeOf item + sizeOf sep) + 1, toks.length + 1 - pos)

end

end Grammar

end TokenPeg
