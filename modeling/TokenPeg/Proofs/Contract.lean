import TokenPeg.Parse
/-
  TokenPeg.Proofs.Contract

  The cursor contract of an attempt. Whatever grammar runs, from whatever position within
  the tokens and with whatever fuel, an attempt that gives an outcome keeps to it: a match
  starts where the attempt started and stops within the tokens, and a failure is detected
  between the start and the end. So a match's consumed count never needs clamping, and the
  scanner put back where the outcome says it stands is never clamped either.

  Proven once, by induction along the run itself (fuel, then the size of the grammar, then
  the tokens left for the two loops); each case rests on the contract of the parts it ran.
-/

namespace TokenPeg

/-- The cursor contract of an attempt begun at `start` over `len` tokens: a match starts
    there and stops within the tokens, and a failure is detected between the start and
    the end. -/
def Outcome.Respects (len start : Nat) : Outcome → Prop
  | .matched _ s => s.start = start ∧ s.stop ≤ len
  | .failed f => start ≤ f.position ∧ f.position ≤ len

namespace Outcome

variable {len start : Nat} {o : Outcome}

/-- An attempt that keeps the contract leaves the input at or after its start. -/
theorem Respects.start_le_resume (h : o.Respects len start) : start ≤ o.resume start := by
  cases o with
  | matched v s =>
    obtain ⟨hs, -⟩ := h
    rw [resume, Success.stop, hs]
    exact Nat.le_add_right _ _
  | failed f => exact Nat.le_refl _

/-- An attempt that keeps the contract leaves the input within the tokens. -/
theorem Respects.resume_le (hstart : start ≤ len) (h : o.Respects len start) :
    o.resume start ≤ len := by
  cases o with
  | matched v s => exact h.2
  | failed f => exact hstart

end Outcome

namespace Success

theorem start_le_stop (s : Success) : s.start ≤ s.stop := Nat.le_add_right _ _

end Success

/-- Of two failures, the furthest is one of them. -/
theorem Failure.furthest_cases (f g : Failure) : f.furthest g = f ∨ f.furthest g = g := by
  unfold Failure.furthest
  split
  · exact Or.inr rfl
  · exact Or.inl rfl

namespace Grammar

variable {α : Type} [Lexeme α] [DecidableEq α] {rules : Rules α} {toks : List α}

/-- A repetition keeps the contract: it stops within the tokens, and so does the failure
    that stopped it. -/
def Iteration.Respects (len start : Nat) (it : Iteration) : Prop :=
  start ≤ it.stop ∧ it.stop ≤ len ∧ ∀ f ∈ it.stoppedBy, start ≤ f.position ∧ f.position ≤ len

omit [DecidableEq α] in
theorem single_respects {pos : Nat} (check : α → Option Reason) (hpos : pos ≤ toks.length) :
    (single toks pos check).Respects toks.length pos := by
  unfold single
  split
  · exact ⟨Nat.le_refl _, hpos⟩
  · rename_i t ht
    have hlt : pos < toks.length := (List.getElem?_eq_some_iff.1 ht).1
    split
    · exact ⟨Nat.le_refl _, hpos⟩
    · exact ⟨rfl, hlt⟩

/-- Settling a repetition that kept the contract gives an outcome that keeps it. -/
theorem Iteration.settle_respects {it : Iteration} {start min len : Nat}
    (h : it.Respects len start) : (it.settle start min).Respects len start := by
  obtain ⟨hle, hstop, hby⟩ := h
  unfold settle
  split
  · cases hs : it.stoppedBy with
    | none => exact ⟨hle, hstop⟩
    | some f => exact hby f hs
  · exact ⟨rfl, by rw [Success.stop_since hle]; exact hstop⟩

mutual

/-- Every attempt keeps the cursor contract. -/
theorem run_respects {fuel : Nat} {g : Grammar α} {pos : Nat} {o : Outcome}
    (hpos : pos ≤ toks.length) (h : g.run rules toks fuel pos = some o) :
    o.Respects toks.length pos := by
  match g with
  | .any | .token _ | .oneOf _ | .noneOf _ | .satisfy _ _ =>
    rw [run] at h
    cases h
    exact single_respects _ hpos
  | .succeed v =>
    rw [run] at h
    cases h
    exact ⟨rfl, by rw [Success.stop_empty]; exact hpos⟩
  | .endOfInput =>
    rw [run] at h
    split at h <;> cases h
    · exact ⟨rfl, by rw [Success.stop_empty]; exact hpos⟩
    · exact ⟨Nat.le_refl _, hpos⟩
  | .and a b =>
    rw [run] at h
    obtain ⟨oa, ha, h⟩ := Option.bind_eq_some_iff.1 h
    have hra := run_respects hpos ha
    cases oa with
    | failed f =>
      cases h
      exact hra
    | matched va sa =>
      obtain ⟨hsa, hstop⟩ := hra
      -- the second part runs where the first stopped, at or after the start
      have hle : pos ≤ sa.stop := hsa ▸ sa.start_le_stop
      obtain ⟨ob, hb, h⟩ := Option.bind_eq_some_iff.1 h
      have hrb := run_respects hstop hb
      cases ob with
      | failed f =>
        cases h
        exact ⟨Nat.le_trans hle hrb.1, hrb.2⟩
      | matched vb sb =>
        cases h
        obtain ⟨hsb, hstopb⟩ := hrb
        have hle' : pos ≤ sb.stop := Nat.le_trans hle (hsb ▸ sb.start_le_stop)
        exact ⟨rfl, by rw [Success.stop_since hle']; exact hstopb⟩
  | .or a b =>
    rw [run] at h
    obtain ⟨oa, ha, h⟩ := Option.bind_eq_some_iff.1 h
    cases oa with
    | matched va sa =>
      cases h
      exact run_respects hpos ha
    | failed f =>
      have hf := run_respects hpos ha
      obtain ⟨ob, hb, h⟩ := Option.bind_eq_some_iff.1 h
      cases ob with
      | matched vb sb =>
        cases h
        exact run_respects hpos hb
      | failed f' =>
        cases h
        have hf' := run_respects hpos hb
        rcases f.furthest_cases f' with he | he <;> rw [he]
        · exact hf
        · exact hf'
  | .choice alts =>
    rw [run] at h
    exact runChoice_respects hpos (fun _ hb => by cases hb) h
  | .sequence items =>
    rw [run] at h
    obtain ⟨r, hr, h⟩ := Option.map_eq_some_iff.1 h
    have hseq := runSequence_respects hpos hr
    cases r with
    | error f =>
      cases h
      exact hseq.1 f rfl
    | ok res =>
      obtain ⟨vs, stop⟩ := res
      cases h
      obtain ⟨hle, hstop⟩ := hseq.2 vs stop rfl
      exact ⟨rfl, by rw [Success.stop_since hle]; exact hstop⟩
  | .iterate g min max =>
    rw [run] at h
    obtain ⟨it, hit, h⟩ := Option.map_eq_some_iff.1 h
    cases h
    exact Iteration.settle_respects (runIteration_respects hpos hit)
  | .sepBy item sep =>
    rw [run] at h
    obtain ⟨oi, hi, h⟩ := Option.bind_eq_some_iff.1 h
    have hri := run_respects hpos hi
    cases oi with
    | failed f =>
      cases h
      exact hri
    | matched v s =>
      obtain ⟨hs, hstop⟩ := hri
      have hle : pos ≤ s.stop := hs ▸ s.start_le_stop
      obtain ⟨res, hres, h⟩ := Option.map_eq_some_iff.1 h
      obtain ⟨vs, stop⟩ := res
      cases h
      obtain ⟨hle', hstop'⟩ := runSeparated_respects hstop hres
      exact ⟨rfl, by rw [Success.stop_since (Nat.le_trans hle hle')]; exact hstop'⟩
  | .optional g =>
    rw [run] at h
    obtain ⟨og, hg, h⟩ := Option.map_eq_some_iff.1 h
    cases og with
    | matched v s =>
      have hrg := run_respects hpos hg
      cases h
      exact hrg
    | failed f =>
      cases h
      exact ⟨rfl, by rw [Success.stop_empty]; exact hpos⟩
  | .not g =>
    rw [run] at h
    obtain ⟨og, hg, h⟩ := Option.map_eq_some_iff.1 h
    cases og with
    | matched v s =>
      cases h
      exact ⟨Nat.le_refl _, hpos⟩
    | failed f =>
      cases h
      exact ⟨rfl, by rw [Success.stop_empty]; exact hpos⟩
  | .label g name =>
    rw [run] at h
    obtain ⟨og, hg, h⟩ := Option.map_eq_some_iff.1 h
    have hrg := run_respects hpos hg
    cases og with
    | matched v s =>
      cases h
      exact hrg
    | failed f =>
      cases h
      exact hrg
  | .filter g keep message =>
    rw [run] at h
    obtain ⟨og, hg, h⟩ := Option.map_eq_some_iff.1 h
    have hrg := run_respects hpos hg
    cases og with
    | matched v s =>
      dsimp only at h
      split at h <;> cases h
      · exact hrg
      · exact ⟨Nat.le_refl _, hpos⟩
    | failed f =>
      cases h
      exact hrg
  | .map g f =>
    rw [run] at h
    obtain ⟨og, hg, h⟩ := Option.map_eq_some_iff.1 h
    have hrg := run_respects hpos hg
    cases og with
    | matched v s =>
      cases h
      exact hrg
    | failed e =>
      cases h
      exact hrg
  | .complete g =>
    rw [run] at h
    obtain ⟨og, hg, h⟩ := Option.map_eq_some_iff.1 h
    have hrg := run_respects hpos hg
    cases og with
    | matched v s =>
      dsimp only at h
      obtain ⟨hs, hstop⟩ := hrg
      split at h <;> cases h
      · exact ⟨hs, hstop⟩
      · exact ⟨hs ▸ s.start_le_stop, hstop⟩
    | failed f =>
      cases h
      exact hrg
  | .withSpan g =>
    rw [run] at h
    obtain ⟨og, hg, h⟩ := Option.map_eq_some_iff.1 h
    have hrg := run_respects hpos hg
    cases og with
    | matched v s =>
      cases h
      exact hrg
    | failed f =>
      cases h
      exact hrg
  | .rule name =>
    match fuel with
    | 0 =>
      rw [run] at h
      cases h
    | fuel + 1 =>
      rw [run] at h
      obtain ⟨body, -, h⟩ := Option.bind_eq_some_iff.1 h
      exact run_respects hpos h
termination_by (fuel, 2 * sizeOf g, 0)

/-- Trying alternatives keeps the contract, given a furthest failure that keeps it. -/
theorem runChoice_respects {fuel : Nat} {alts : List (Grammar α)} {pos : Nat}
    {best : Option Failure} {o : Outcome} (hpos : pos ≤ toks.length)
    (hbest : ∀ b ∈ best, pos ≤ b.position ∧ b.position ≤ toks.length)
    (h : runChoice rules toks fuel alts pos best = some o) : o.Respects toks.length pos := by
  match alts with
  | [] =>
    rw [runChoice] at h
    cases h
    cases hb : best with
    | none => exact ⟨Nat.le_refl _, hpos⟩
    | some b => exact hbest b hb
  | g :: gs =>
    rw [runChoice] at h
    obtain ⟨og, hg, h⟩ := Option.bind_eq_some_iff.1 h
    have hrg := run_respects hpos hg
    cases og with
    | matched v s =>
      cases h
      exact hrg
    | failed f =>
      refine runChoice_respects hpos ?_ h
      intro b hb
      cases best with
      | none =>
        cases hb
        exact hrg
      | some b' =>
        cases hb
        show pos ≤ (b'.furthest f).position ∧ (b'.furthest f).position ≤ toks.length
        rcases b'.furthest_cases f with he | he <;> rw [he]
        · exact hbest b' rfl
        · exact hrg
termination_by (fuel, 2 * sizeOf alts, 0)

/-- Running a sequence's items keeps the contract: the failure, or the position after the
    last item, lies between the start and the end. -/
theorem runSequence_respects {fuel : Nat} {items : List (Grammar α)} {pos : Nat}
    {r : Except Failure (List Value × Nat)} (hpos : pos ≤ toks.length)
    (h : runSequence rules toks fuel items pos = some r) :
    (∀ f, r = .error f → pos ≤ f.position ∧ f.position ≤ toks.length) ∧
      (∀ vs stop, r = .ok (vs, stop) → pos ≤ stop ∧ stop ≤ toks.length) := by
  match items with
  | [] =>
    rw [runSequence] at h
    cases h
    refine ⟨fun f hf => (by cases hf), fun vs stop hr => ?_⟩
    cases hr
    exact ⟨Nat.le_refl _, hpos⟩
  | g :: gs =>
    rw [runSequence] at h
    obtain ⟨og, hg, h⟩ := Option.bind_eq_some_iff.1 h
    have hrg := run_respects hpos hg
    cases og with
    | failed f =>
      cases h
      refine ⟨fun f' hf => ?_, fun vs stop hr => (by cases hr)⟩
      cases hf
      exact hrg
    | matched v s =>
      obtain ⟨hs, hstop⟩ := hrg
      have hle : pos ≤ s.stop := hs ▸ s.start_le_stop
      obtain ⟨r', hr', h⟩ := Option.map_eq_some_iff.1 h
      have ih := runSequence_respects hstop hr'
      cases r' with
      | error f =>
        cases h
        refine ⟨fun f' hf => ?_, fun vs stop hr => (by cases hr)⟩
        cases hf
        have hf := ih.1 f rfl
        exact ⟨Nat.le_trans hle hf.1, hf.2⟩
      | ok res =>
        obtain ⟨vs, stop⟩ := res
        cases h
        refine ⟨fun f hf => (by cases hf), fun vs' stop' hr => ?_⟩
        cases hr
        have hs' := ih.2 vs stop rfl
        exact ⟨Nat.le_trans hle hs'.1, hs'.2⟩
termination_by (fuel, 2 * sizeOf items, 0)

/-- A repetition keeps the contract. -/
theorem runIteration_respects {fuel : Nat} {g : Grammar α} {budget : Option Nat} {pos : Nat}
    {it : Iteration} (hpos : pos ≤ toks.length)
    (h : runIteration rules toks fuel g budget pos = some it) :
    it.Respects toks.length pos := by
  rw [runIteration] at h
  split at h
  · cases h
    exact ⟨Nat.le_refl _, hpos, fun f hf => by cases hf⟩
  · obtain ⟨og, hg, h⟩ := Option.bind_eq_some_iff.1 h
    have hrg := run_respects hpos hg
    cases og with
    | failed f =>
      cases h
      exact ⟨Nat.le_refl _, hpos, fun f' hf => by cases hf; exact hrg⟩
    | matched v s =>
      obtain ⟨hs, hstop⟩ := hrg
      have hle : pos ≤ s.stop := hs ▸ s.start_le_stop
      dsimp only at h
      split at h
      · rename_i hmore
        obtain ⟨it', hit', h⟩ := Option.map_eq_some_iff.1 h
        cases h
        obtain ⟨hle', hstop', hby⟩ := runIteration_respects hstop hit'
        refine ⟨Nat.le_trans hle hle', hstop', fun f hf => ?_⟩
        have hf := hby f hf
        exact ⟨Nat.le_trans hle hf.1, hf.2⟩
      · cases h
        exact ⟨hle, hstop, fun f hf => by cases hf⟩
termination_by (fuel, 2 * sizeOf g + 1, toks.length + 1 - pos)

/-- The rest of a separated list ends within the tokens, at or after where it began. -/
theorem runSeparated_respects {fuel : Nat} {item sep : Grammar α} {pos : Nat}
    {vs : List Value} {stop : Nat} (hpos : pos ≤ toks.length)
    (h : runSeparated rules toks fuel item sep pos = some (vs, stop)) :
    pos ≤ stop ∧ stop ≤ toks.length := by
  rw [runSeparated] at h
  obtain ⟨os, hs, h⟩ := Option.bind_eq_some_iff.1 h
  have hrs := run_respects hpos hs
  cases os with
  | failed f =>
    cases h
    exact ⟨Nat.le_refl _, hpos⟩
  | matched _ s =>
    obtain ⟨hss, hsstop⟩ := hrs
    obtain ⟨oi, hi, h⟩ := Option.bind_eq_some_iff.1 h
    have hri := run_respects hsstop hi
    cases oi with
    | failed f =>
      cases h
      exact ⟨Nat.le_refl _, hpos⟩
    | matched v s' =>
      obtain ⟨hs', hstop'⟩ := hri
      -- the item after the separator stops at or after the separator's start
      have hle : pos ≤ s'.stop :=
        Nat.le_trans (hss ▸ s.start_le_stop) (hs' ▸ s'.start_le_stop)
      dsimp only at h
      split at h
      · rename_i hmore
        obtain ⟨res, hres, h⟩ := Option.map_eq_some_iff.1 h
        obtain ⟨vs', stop'⟩ := res
        cases h
        have ih := runSeparated_respects hstop' hres
        exact ⟨Nat.le_trans hle ih.1, ih.2⟩
      · cases h
        exact ⟨hle, hstop'⟩
termination_by (fuel, 2 * (sizeOf item + sizeOf sep) + 1, toks.length + 1 - pos)

end

/-- The cursor contract, from any scanner: an attempt run at the scanner's position that
    gives an outcome keeps the contract, and the scanner put back where the outcome leaves
    the input stands exactly there, with nothing clamped. -/
theorem run_meets_cursor_contract {fuel : Nat} {g : Grammar α} {s : Scanner α} {o : Outcome}
    (h : g.run rules s.tokens fuel s.position = some o) :
    o.Respects s.tokens.length s.position ∧
      (s.restore ⟨o.resume s.position⟩).position = o.resume s.position := by
  have hr := run_respects s.position_le h
  refine ⟨hr, ?_⟩
  rw [Scanner.position_restore]
  exact Nat.min_eq_left (hr.resume_le s.position_le)

/-- A pair whose second part finds no token fails past its start, and the scanner goes
    back to the start. -/
theorem cursor_contract_of_short_pair :
    Outcome.Respects 1 0 (.failed ⟨.endOfInput, 1⟩) ∧
      ((Scanner.new ['a']).restore ⟨0⟩).position = 0 :=
  @run_meets_cursor_contract Char _ _ [] 0 (.and .any .any) (Scanner.new ['a'])
    (.failed ⟨.endOfInput, 1⟩) (by simp [run, single, Success.stop])

end Grammar

end TokenPeg
