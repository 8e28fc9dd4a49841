import TokenPeg.Proofs.Contract
import Mathlib.Logic.Relation
/-
  TokenPeg.Proofs.LeftCalls

  Which grammars can match without consuming, and which parts a grammar runs at its own
  start. `Nullable` reads the first off a grammar's form, as the least predicate closed
  under one rule per form; `CallsAtStart` relates a grammar to each part it runs before
  any part that cannot match empty. A grammar whose rules never reach themselves through
  `CallsAtStart` has no left recursion.

  The analysis is sound: a grammar that matches without consuming is nullable
  (`nullable_of_run_empty`). So a part that runs after a non-nullable one runs strictly
  further on, which is what bounds the calls a run can make at one position.
-/

namespace TokenPeg

namespace Grammar

variable {α : Type}

/-- Whether a grammar can match without consuming, read off its form: the least predicate
    closed under these rules. -/
inductive Nullable (rules : Rules α) : Grammar α → Prop where
  | succeed (v : Value) : Nullable rules (.succeed v)
  | endOfInput : Nullable rules .endOfInput
  | optional (g : Grammar α) : Nullable rules (.optional g)
  | not (g : Grammar α) : Nullable rules (.not g)
  | iterate_zero (g : Grammar α) (max : Option Nat) : Nullable rules (.iterate g 0 max)
  | iterate {g : Grammar α} (min : Nat) (max : Option Nat) (inner : Nullable rules g) :
      Nullable rules (.iterate g min max)
  | and {a b : Grammar α} (left : Nullable rules a) (right : Nullable rules b) :
      Nullable rules (.and a b)
  | or_left {a : Grammar α} (b : Grammar α) (left : Nullable rules a) : Nullable rules (.or a b)
  | or_right (a : Grammar α) {b : Grammar α} (right : Nullable rules b) :
      Nullable rules (.or a b)
  | choice {alts : List (Grammar α)} {g : Grammar α} (mem : g ∈ alts)
      (alt : Nullable rules g) : Nullable rules (.choice alts)
  | sequence {items : List (Grammar α)} (all : ∀ g ∈ items, Nullable rules g) :
      Nullable rules (.sequence items)
  | sepBy {item : Grammar α} (sep : Grammar α) (inner : Nullable rules item) :
      Nullable rules (.sepBy item sep)
  | label {g : Grammar α} (name : String) (inner : Nullable rules g) :
      Nullable rules (.label g name)
  | filter {g : Grammar α} (keep : Value → Bool) (message : String) (inner : Nullable rules g) :
      Nullable rules (.filter g keep message)
  | map {g : Grammar α} (f : Value → Value) (inner : Nullable rules g) :
      Nullable rules (.map g f)
  | complete {g : Grammar α} (inner : Nullable rules g) : Nullable rules (.complete g)
  | withSpan {g : Grammar α} (inner : Nullable rules g) : Nullable rules (.withSpan g)
  | rule {name : String} {body : Grammar α} (found : rules.lookup name = some body)
      (inner : Nullable rules body) : Nullable rules (.rule name)

/-- `CallsAtStart rules e e'`: `e'` is a part of `e` that `e` runs at its own start, before
    any part that cannot match empty. -/
inductive CallsAtStart (rules : Rules α) : Grammar α → Grammar α → Prop where
  | and_left (a b : Grammar α) : CallsAtStart rules (.and a b) a
  | and_right {a : Grammar α} (b : Grammar α) (first : Nullable rules a) :
      CallsAtStart rules (.and a b) b
  | or_left (a b : Grammar α) : CallsAtStart rules (.or a b) a
  | or_right (a b : Grammar α) : CallsAtStart rules (.or a b) b
  | choice {alts : List (Grammar α)} {g : Grammar α} (mem : g ∈ alts) :
      CallsAtStart rules (.choice alts) g
  | sequence {pre post : List (Grammar α)} {g : Grammar α} (before : ∀ p ∈ pre, Nullable rules p) :
      CallsAtStart rules (.sequence (pre ++ g :: post)) g
  | iterate (g : Grammar α) (min : Nat) (max : Option Nat) :
      CallsAtStart rules (.iterate g min max) g
  | sepBy_item (item sep : Grammar α) : CallsAtStart rules (.sepBy item sep) item
  | sepBy_sep {item : Grammar α} (sep : Grammar α) (first : Nullable rules item) :
      CallsAtStart rules (.sepBy item sep) sep
  | optional (g : Grammar α) : CallsAtStart rules (.optional g) g
  | not (g : Grammar α) : CallsAtStart rules (.not g) g
  | label (g : Grammar α) (name : String) : CallsAtStart rules (.label g name) g
  | filter (g : Grammar α) (keep : Value → Bool) (message : String) :
      CallsAtStart rules (.filter g keep message) g
  | map (g : Grammar α) (f : Value → Value) : CallsAtStart rules (.map g f) g
  | complete (g : Grammar α) : CallsAtStart rules (.complete g) g
  | withSpan (g : Grammar α) : CallsAtStart rules (.withSpan g) g
  | rule {name : String} {body : Grammar α} (found : rules.lookup name = some body) :
      CallsAtStart rules (.rule name) body

/-- A grammar reaches the rule `name` at its own start: through zero or more parts run at
    the start, it calls that rule. -/
def ReachesAtStart (rules : Rules α) (g : Grammar α) (name : String) : Prop :=
  Relation.ReflTransGen (CallsAtStart rules) g (.rule name)

end Grammar

/-- No rule calls itself at its own start, directly or through other parts and rules. -/
def Rules.NoLeftRecursion {α : Type} (rules : Rules α) : Prop :=
  ∀ name, ¬ Relation.TransGen (Grammar.CallsAtStart rules) (.rule name) (.rule name)

namespace Grammar

variable {α : Type} {rules : Rules α}

/-! ## Reaching a rule at the start -/

theorem ReachesAtStart.head {g g' : Grammar α} {name : String} (h : CallsAtStart rules g g')
    (h' : ReachesAtStart rules g' name) : ReachesAtStart rules g name :=
  Relation.ReflTransGen.head h h'

/-- A rule's body does not reach the rule itself when there is no left recursion. -/
theorem not_reachesAtStart_body {name : String} {body : Grammar α}
    (hrec : rules.NoLeftRecursion) (found : rules.lookup name = some body) :
    ¬ ReachesAtStart rules body name := by
  intro h
  exact hrec name (Relation.TransGen.head' (CallsAtStart.rule found) h)

/-- A choice reaches at its start whatever the choice of its later alternatives reaches. -/
theorem ReachesAtStart.choice_cons {g : Grammar α} {gs : List (Grammar α)} {name : String}
    (h : ReachesAtStart rules (.choice gs) name) : ReachesAtStart rules (.choice (g :: gs)) name := by
  rcases Relation.ReflTransGen.cases_head h with h | ⟨c, hc, hrest⟩
  · cases h
  · cases hc with
    | choice mem => exact ReachesAtStart.head (.choice (List.mem_cons_of_mem g mem)) hrest

/-- After a nullable first item, a sequence reaches at its start whatever the sequence of
    its later items reaches. -/
theorem ReachesAtStart.sequence_cons {g : Grammar α} {gs : List (Grammar α)} {name : String}
    (hg : Nullable rules g) (h : ReachesAtStart rules (.sequence gs) name) :
    ReachesAtStart rules (.sequence (g :: gs)) name := by
  rcases Relation.ReflTransGen.cases_head h with h | ⟨c, hc, hrest⟩
  · cases h
  · cases hc with
    | sequence before =>
      rename_i pre post
      have hcall : CallsAtStart rules (.sequence ((g :: pre) ++ c :: post)) c := by
        refine .sequence ?_
        intro p hp
        rcases List.mem_cons.1 hp with rfl | hp
        · exact hg
        · exact before p hp
      exact ReachesAtStart.head hcall hrest

/-- The first item of a sequence is run at its start. -/
theorem CallsAtStart.sequence_head (g : Grammar α) (gs : List (Grammar α)) :
    CallsAtStart rules (.sequence (g :: gs)) g :=
  @CallsAtStart.sequence α rules [] gs g (fun _ hp => by cases hp)

/-! ## Soundness of the analysis -/

variable [Lexeme α] [DecidableEq α] {toks : List α}

/-- A repetition matches exactly when it reached its least count, with the values it
    collected, from its start to where it stopped. -/
theorem Iteration.settle_eq_matched {it : Iteration} {start min : Nat} {v : Value} {s : Success} :
    it.settle start min = .matched v s ↔
      min ≤ it.values.length ∧ v = .arr it.values ∧ s = .since start it.stop := by
  unfold Iteration.settle
  split
  · rename_i hlt
    simp only [reduceCtorEq, false_iff, not_and]
    intro hle
    omega
  · rename_i hge
    simp only [Outcome.matched.injEq]
    constructor
    · rintro ⟨rfl, rfl⟩
      exact ⟨by omega, rfl, rfl⟩
    · rintro ⟨-, rfl, rfl⟩
      exact ⟨rfl, rfl⟩

omit [DecidableEq α] in
/-- A single token never matches without consuming. -/
theorem single_stop_ne {pos : Nat} {check : α → Option Reason} {v : Value} {s : Success}
    (h : single toks pos check = .matched v s) : s.stop ≠ pos := by
  unfold single at h
  split at h
  · cases h
  · split at h
    · cases h
    · cases h
      simp [Success.stop]

mutual

/-- The analysis is sound: a grammar that matches without consuming is nullable. -/
theorem nullable_of_run_empty {fuel : Nat} {g : Grammar α} {pos : Nat} {v : Value}
    {s : Success} (hpos : pos ≤ toks.length) (h : g.run rules toks fuel pos = some (.matched v s))
    (hs : s.stop = pos) : Nullable rules g := by
  match g with
  | .any | .token _ | .oneOf _ | .noneOf _ | .satisfy _ _ =>
    rw [run, Option.some.injEq] at h
    exact absurd hs (single_stop_ne h)
  | .succeed v => exact .succeed v
  | .endOfInput => exact .endOfInput
  | .and a b =>
    rw [run] at h
    obtain ⟨oa, ha, h⟩ := Option.bind_eq_some_iff.1 h
    cases oa with
    | failed f => cases h
    | matched va sa =>
      obtain ⟨ob, hb, h⟩ := Option.bind_eq_some_iff.1 h
      cases ob with
      | failed f => cases h
      | matched vb sb =>
        cases h
        obtain ⟨hsa, hstop⟩ := run_respects hpos ha
        obtain ⟨hsb, -⟩ := run_respects hstop hb
        -- both parts lie between the start and the end of the pair, which coincide
        have hle : pos ≤ sa.stop := hsa ▸ sa.start_le_stop
        have hle' : sa.stop ≤ sb.stop := hsb ▸ sb.start_le_stop
        rw [Success.stop_since (Nat.le_trans hle hle')] at hs
        have hsa' : sa.stop = pos := by omega
        have hsb' : sb.stop = sa.stop := by omega
        exact .and (nullable_of_run_empty hpos ha hsa') (nullable_of_run_empty hstop hb hsb')
  | .or a b =>
    rw [run] at h
    obtain ⟨oa, ha, h⟩ := Option.bind_eq_some_iff.1 h
    cases oa with
    | matched va sa =>
      cases h
      exact .or_left b (nullable_of_run_empty hpos ha hs)
    | failed f =>
      obtain ⟨ob, hb, h⟩ := Option.bind_eq_some_iff.1 h
      cases ob with
      | matched vb sb =>
        cases h
        exact .or_right a (nullable_of_run_empty hpos hb hs)
      | failed f' => cases h
  | .choice alts =>
    rw [run] at h
    obtain ⟨g, hmem, hg⟩ := runChoice_nullable hpos h hs
    exact .choice hmem hg
  | .sequence items =>
    rw [run] at h
    obtain ⟨r, hr, h⟩ := Option.map_eq_some_iff.1 h
    cases r with
    | error f => cases h
    | ok res =>
      obtain ⟨vs, stop⟩ := res
      cases h
      have hle := ((runSequence_respects hpos hr).2 vs stop rfl).1
      rw [Success.stop_since hle] at hs
      exact .sequence (runSequence_nullable hpos hr hs)
  | .iterate g min max =>
    rw [run] at h
    obtain ⟨it, hit, h⟩ := Option.map_eq_some_iff.1 h
    obtain ⟨hmin, -, rfl⟩ := Iteration.settle_eq_matched.1 h
    obtain ⟨hle, -, -⟩ := runIteration_respects hpos hit
    rw [Success.stop_since hle] at hs
    cases min with
    | zero => exact .iterate_zero g max
    | succ min =>
      -- at least one iteration matched, and it cannot have gone past where all stopped
      refine .iterate (min + 1) max ?_
      rw [runIteration] at hit
      split at hit
      · cases hit
        simp at hmin
      · obtain ⟨og, hg, hit⟩ := Option.bind_eq_some_iff.1 hit
        cases og with
        | failed f =>
          cases hit
          simp at hmin
        | matched v' s' =>
          obtain ⟨hs', hstop'⟩ := run_respects hpos hg
          dsimp only at hit
          split at hit
          · rename_i hmore
            obtain ⟨it', hit', rfl⟩ := Option.map_eq_some_iff.1 hit
            have hle' := (runIteration_respects hstop' hit').1
            simp only at hs
            omega
          · cases hit
            exact nullable_of_run_empty hpos hg hs
  | .sepBy item sep =>
    rw [run] at h
    obtain ⟨oi, hi, h⟩ := Option.bind_eq_some_iff.1 h
    cases oi with
    | failed f => cases h
    | matched v' s' =>
      obtain ⟨res, hres, h⟩ := Option.map_eq_some_iff.1 h
      obtain ⟨vs, stop⟩ := res
      cases h
      obtain ⟨hs', hstop'⟩ := run_respects hpos hi
      have hle : pos ≤ s'.stop := hs' ▸ s'.start_le_stop
      have hle' := (runSeparated_respects hstop' hres).1
      rw [Success.stop_since (Nat.le_trans hle hle')] at hs
      exact .sepBy sep (nullable_of_run_empty hpos hi (by omega))
  | .optional g => exact .optional g
  | .not g => exact .not g
  | .label g name =>
    rw [run] at h
    obtain ⟨og, hg, h⟩ := Option.map_eq_some_iff.1 h
    cases og with
    | matched v' s' =>
      cases h
      exact .label name (nullable_of_run_empty hpos hg hs)
    | failed f => cases h
  | .filter g keep message =>
    rw [run] at h
    obtain ⟨og, hg, h⟩ := Option.map_eq_some_iff.1 h
    cases og with
    | matched v' s' =>
      dsimp only at h
      split at h
      · cases h
        exact .filter keep message (nullable_of_run_empty hpos hg hs)
      · cases h
    | failed f => cases h
  | .map g f =>
    rw [run] at h
    obtain ⟨og, hg, h⟩ := Option.map_eq_some_iff.1 h
    cases og with
    | matched v' s' =>
      cases h
      exact .map f (nullable_of_run_empty hpos hg hs)
    | failed e => cases h
  | .complete g =>
    rw [run] at h
    obtain ⟨og, hg, h⟩ := Option.map_eq_some_iff.1 h
    cases og with
    | matched v' s' =>
      dsimp only at h
      split at h
      · cases h
        exact .complete (nullable_of_run_empty hpos hg hs)
      · cases h
    | failed f => cases h
  | .withSpan g =>
    rw [run] at h
    obtain ⟨og, hg, h⟩ := Option.map_eq_some_iff.1 h
    cases og with
    | matched v' s' =>
      cases h
      exact .withSpan (nullable_of_run_empty hpos hg hs)
    | failed f => cases h
  | .rule name =>
    match fuel with
    | 0 =>
      rw [run] at h
      cases h
    | fuel + 1 =>
      rw [run] at h
      obtain ⟨body, hbody, h⟩ := Option.bind_eq_some_iff.1 h
      exact .rule hbody (nullable_of_run_empty hpos h hs)
termination_by (fuel, 2 * sizeOf g, 0)

/-- A choice that matches without consuming does so through a nullable alternative. -/
theorem runChoice_nullable {fuel : Nat} {alts : List (Grammar α)} {pos : Nat}
    {best : Option Failure} {v : Value} {s : Success} (hpos : pos ≤ toks.length)
    (h : runChoice rules toks fuel alts pos best = some (.matched v s)) (hs : s.stop = pos) :
    ∃ g ∈ alts, Nullable rules g := by
  match alts with
  | [] =>
    rw [runChoice] at h
    cases h
  | g :: gs =>
    rw [runChoice] at h
    obtain ⟨og, hg, h⟩ := Option.bind_eq_some_iff.1 h
    cases og with
    | matched v' s' =>
      cases h
      exact ⟨g, List.mem_cons_self, nullable_of_run_empty hpos hg hs⟩
    | failed f =>
      obtain ⟨g', hmem, hg'⟩ := runChoice_nullable hpos h hs
      exact ⟨g', List.mem_cons_of_mem g hmem, hg'⟩
termination_by (fuel, 2 * sizeOf alts, 0)

/-- A sequence whose items end where they began has only nullable items. -/
theorem runSequence_nullable {fuel : Nat} {items : List (Grammar α)} {pos : Nat}
    {vs : List Value} {stop : Nat} (hpos : pos ≤ toks.length)
    (h : runSequence rules toks fuel items pos = some (.ok (vs, stop))) (hs : stop = pos) :
    ∀ g ∈ items, Nullable rules g := by
  match items with
  | [] =>
    intro g hg
    cases hg
  | g :: gs =>
    rw [runSequence] at h
    obtain ⟨og, hg, h⟩ := Option.bind_eq_some_iff.1 h
    cases og with
    | failed f => cases h
    | matched v s =>
      obtain ⟨r, hr, h⟩ := Option.map_eq_some_iff.1 h
      cases r with
      | error f => cases h
      | ok res =>
        obtain ⟨vs', stop'⟩ := res
        cases h
        obtain ⟨hss, hstop⟩ := run_respects hpos hg
        have hle : pos ≤ s.stop := hss ▸ s.start_le_stop
        have hle' := ((runSequence_respects hstop hr).2 _ _ rfl).1
        -- the first item and the rest both end where the sequence began
        have hfirst : s.stop = pos := by omega
        intro g' hg'
        rcases List.mem_cons.1 hg' with rfl | hg'
        · exact nullable_of_run_empty hpos hg hfirst
        · exact runSequence_nullable hstop hr (by omega) g' hg'
termination_by (fuel, 2 * sizeOf items, 0)

end

end Grammar

end TokenPeg
