import TokenPeg.Parse
import Mathlib.Data.List.Forall2
import Mathlib.Data.List.Induction
/-
  TokenPeg.Proofs.Alternation

  Alternatives give the same outcome however they are grouped. A choice over a list tries
  the alternatives in order and carries the furthest failure so far; binary alternation
  nested to the right or to the left tries them in the same order and combines the same
  failures, grouped differently. Keeping the furthest failure, the earlier one on a tie,
  is associative (`Failure.furthest_assoc`), so all three agree on every input, from every
  position and with every fuel, and a parse through any of them leaves the scanner at the
  same place.

  The left grouping follows the choice's loop step by step. The right grouping needs the
  furthest failure carried by the loop moved out of it (`runChoice_furthest`), and that is
  where associativity enters.

  Which alternative a choice answers with follows from the same loop: the first one that
  matches, run alone from the choice's start; or, when all fail, the failure detected
  furthest on, the earliest of those on a tie. The loop keeps the furthest failure so far,
  and a later failure replaces it only when it lies strictly further on, so the failure it
  ends with has only nearer failures before it and none further after it
  (`Failure.firstFurthest_foldl`).
-/

namespace TokenPeg

/-- What alternation makes of a later alternative's outcome once an earlier one failed with
    `f`: a match stands, and a failure gives way to the furthest of the two. -/
def Outcome.after (f : Failure) : Outcome → Outcome
  | .matched v s => .matched v s
  | .failed f' => .failed (f.furthest f')

namespace Failure

/-- `f` is the failure of `fs` detected furthest on, the earliest such on a tie: the
    failures before it were all detected strictly nearer, and those after it no further. -/
def FirstFurthest (f : Failure) (fs : List Failure) : Prop :=
  ∃ pre post, fs = pre ++ f :: post ∧ (∀ g ∈ pre, g.position < f.position) ∧
    ∀ g ∈ post, g.position ≤ f.position

/-- The first furthest failure lies no nearer than any failure of the list. -/
theorem FirstFurthest.position_le {f g : Failure} {fs : List Failure} (h : f.FirstFurthest fs)
    (hg : g ∈ fs) : g.position ≤ f.position := by
  obtain ⟨pre, post, rfl, hpre, hpost⟩ := h
  rcases List.mem_append.1 hg with hg | hg
  · exact Nat.le_of_lt (hpre g hg)
  · rcases List.mem_cons.1 hg with rfl | hg
    · exact Nat.le_refl _
    · exact hpost g hg

/-- Keeping the furthest failure along a list, from a first one, ends with the earliest of
    the furthest failures. -/
theorem firstFurthest_foldl (b : Failure) (fs : List Failure) :
    (fs.foldl furthest b).FirstFurthest (b :: fs) := by
  -- a left fold grows at its end, so the induction takes the list from the right
  induction fs using List.reverseRecOn with
  | nil => exact ⟨[], [], rfl, fun _ h => (List.not_mem_nil h).elim, fun _ h => (List.not_mem_nil h).elim⟩
  | append_singleton fs x ih =>
    rw [List.foldl_append, List.foldl_cons, List.foldl_nil]
    generalize fs.foldl furthest b = r at ih ⊢
    by_cases hlt : r.position < x.position
    · -- `x` lies strictly further on than every failure before it
      rw [furthest, if_pos hlt]
      refine ⟨b :: fs, [], by simp, fun g hg => ?_, fun _ h => (List.not_mem_nil h).elim⟩
      exact Nat.lt_of_le_of_lt (ih.position_le hg) hlt
    · obtain ⟨pre, post, heq, hpre, hpost⟩ := ih
      rw [furthest, if_neg hlt]
      refine ⟨pre, post ++ [x], ?_, hpre, fun g hg => ?_⟩
      · rw [← List.cons_append, heq, List.append_assoc, List.cons_append]
      · rcases List.mem_append.1 hg with hg | hg
        · exact hpost g hg
        · rw [List.mem_singleton.1 hg]
          exact Nat.le_of_not_lt hlt

end Failure

namespace Grammar

variable {α : Type}

/-- The alternatives nested to the right: `a₁.or (a₂.or (… .or aₙ))`. -/
def orRight : Grammar α → List (Grammar α) → Grammar α
  | a, [] => a
  | a, b :: bs => .or a (orRight b bs)

/-- The alternatives nested to the left: `((a₁.or a₂).or …).or aₙ`. -/
def orLeft (a : Grammar α) (as : List (Grammar α)) : Grammar α := as.foldl .or a

variable [Lexeme α] [DecidableEq α] {rules : Rules α} {toks : List α} {fuel : Nat}

/-- Binary alternation: the second alternative runs only after the first failed, and its
    outcome is combined with that failure. -/
theorem run_or (a b : Grammar α) (pos : Nat) :
    (Grammar.or a b).run rules toks fuel pos =
      (a.run rules toks fuel pos).bind fun
        | .matched v s => some (.matched v s)
        | .failed f => (b.run rules toks fuel pos).map (Outcome.after f) := by
  rw [run]
  cases a.run rules toks fuel pos with
  | none => rfl
  | some oa =>
    cases oa with
    | matched v s => rfl
    | failed f =>
      cases b.run rules toks fuel pos with
      | none => rfl
      | some ob => cases ob <;> rfl

/-- One alternative alone: the choice passes its outcome on unchanged. -/
theorem runChoice_singleton (g : Grammar α) (pos : Nat) :
    runChoice rules toks fuel [g] pos none = g.run rules toks fuel pos := by
  rw [runChoice]
  cases g.run rules toks fuel pos with
  | none => rfl
  | some o =>
    cases o with
    | matched v s => rfl
    | failed f =>
      simp only [Option.bind_some]
      exact runChoice.eq_1 rules toks fuel pos (some f)

/-- The furthest failure the choice carries can be taken out of its loop: starting from the
    furthest of `b` and `f` is starting from `f` and combining the outcome with `b`. -/
theorem runChoice_furthest (b : Failure) (alts : List (Grammar α)) (pos : Nat) (f : Failure) :
    runChoice rules toks fuel alts pos (some (b.furthest f)) =
      (runChoice rules toks fuel alts pos (some f)).map (Outcome.after b) := by
  induction alts generalizing f with
  | nil => simp only [runChoice.eq_1, Option.getD_some, Option.map_some, Outcome.after]
  | cons g gs ih =>
    rw [runChoice, runChoice]
    cases g.run rules toks fuel pos with
    | none => rfl
    | some o =>
      cases o with
      | matched v s => rfl
      | failed f' =>
        simp only [Option.bind_some]
        -- the failures so far regroup: `(b ⊔ f) ⊔ f' = b ⊔ (f ⊔ f')`
        rw [Failure.furthest_assoc]
        exact ih (f.furthest f')

/-- A choice that starts with a failure in hand ends as the choice from scratch, combined
    with that failure. -/
theorem runChoice_cons_some (g : Grammar α) (gs : List (Grammar α)) (pos : Nat) (f : Failure) :
    runChoice rules toks fuel (g :: gs) pos (some f) =
      (runChoice rules toks fuel (g :: gs) pos none).map (Outcome.after f) := by
  rw [runChoice, runChoice]
  cases g.run rules toks fuel pos with
  | none => rfl
  | some o =>
    cases o with
    | matched v s => rfl
    | failed f' =>
      simp only [Option.bind_some]
      exact runChoice_furthest f gs pos f'

/-- A choice is the same attempt as its alternatives nested to the right. -/
theorem run_choice_eq_orRight (a : Grammar α) (as : List (Grammar α)) (pos : Nat) :
    (Grammar.choice (a :: as)).run rules toks fuel pos = (orRight a as).run rules toks fuel pos := by
  rw [run]
  induction as generalizing a with
  | nil => exact runChoice_singleton a pos
  | cons b bs ih =>
    rw [orRight, run_or, ← ih b, runChoice]
    cases a.run rules toks fuel pos with
    | none => rfl
    | some o =>
      cases o with
      | matched v s => rfl
      | failed f =>
        simp only [Option.bind_some]
        exact runChoice_cons_some b bs pos f

/-- The left grouping with a first part `acc` already formed: it runs `acc`, then the
    remaining alternatives as a choice that carries the failure of `acc`. -/
theorem run_foldl_or (acc : Grammar α) (bs : List (Grammar α)) (pos : Nat) :
    (bs.foldl .or acc).run rules toks fuel pos =
      (acc.run rules toks fuel pos).bind fun
        | .matched v s => some (.matched v s)
        | .failed f => runChoice rules toks fuel bs pos (some f) := by
  induction bs generalizing acc with
  | nil =>
    rw [List.foldl_nil]
    cases acc.run rules toks fuel pos with
    | none => rfl
    | some o =>
      cases o with
      | matched v s => rfl
      | failed f =>
        simp only [Option.bind_some]
        exact (runChoice.eq_1 rules toks fuel pos (some f)).symm
  | cons b bs ih =>
    rw [List.foldl_cons, ih, run_or]
    cases acc.run rules toks fuel pos with
    | none => rfl
    | some o =>
      cases o with
      | matched v s => rfl
      | failed f =>
        simp only [Option.bind_some]
        rw [runChoice]
        cases b.run rules toks fuel pos with
        | none => rfl
        | some ob => cases ob <;> rfl

/-- A choice is the same attempt as its alternatives nested to the left. -/
theorem run_choice_eq_orLeft (a : Grammar α) (as : List (Grammar α)) (pos : Nat) :
    (Grammar.choice (a :: as)).run rules toks fuel pos = (orLeft a as).run rules toks fuel pos := by
  rw [orLeft, run_foldl_or, run]
  exact runChoice.eq_2 rules toks fuel pos none a as

/-- Choice and the two nestings of binary alternation parse alike: from every scanner they
    give the same outcome, match or failure with its reason and position, and leave the
    scanner at the same place. -/
theorem choice_parse_eq_nested_or (rules : Rules α) (a : Grammar α) (as : List (Grammar α))
    (s : Scanner α) :
    (Grammar.choice (a :: as)).parse rules s = (orRight a as).parse rules s ∧
      (Grammar.choice (a :: as)).parse rules s = (orLeft a as).parse rules s := by
  unfold parse
  refine ⟨?_, ?_⟩
  · rw [run_choice_eq_orRight]
  · rw [run_choice_eq_orLeft]

/-! ## Which alternative a choice answers with -/

/-- A choice whose alternatives all fail, with the failures `fs`, ends with the furthest of
    them, the failure it carried counted first. -/
theorem runChoice_of_all_failed {alts : List (Grammar α)} {fs : List Failure} {pos : Nat}
    (h : List.Forall₂ (fun g f => g.run rules toks fuel pos = some (.failed f)) alts fs)
    (b : Failure) :
    runChoice rules toks fuel alts pos (some b) = some (.failed (fs.foldl Failure.furthest b)) := by
  induction h generalizing b with
  | nil =>
    rw [runChoice]
    rfl
  | cons hg _ ih =>
    rw [runChoice, hg, Option.bind_some]
    exact ih (b.furthest _)

/-- A choice whose alternatives before `g` all fail answers with `g`'s match, whatever failure
    it carried. -/
theorem runChoice_of_first_match {pre post : List (Grammar α)} {g : Grammar α} {pos : Nat}
    {v : Value} {s : Success}
    (hpre : ∀ h ∈ pre, ∃ f, h.run rules toks fuel pos = some (.failed f))
    (hg : g.run rules toks fuel pos = some (.matched v s)) (best : Option Failure) :
    runChoice rules toks fuel (pre ++ g :: post) pos best = some (.matched v s) := by
  induction pre generalizing best with
  | nil =>
    rw [List.nil_append, runChoice, hg]
    rfl
  | cons h hs ih =>
    obtain ⟨f, hf⟩ := hpre h List.mem_cons_self
    rw [List.cons_append, runChoice, hf, Option.bind_some]
    exact ih (fun h' hh' => hpre h' (List.mem_cons_of_mem _ hh')) _

/-- A choice answers as its first alternative that matches, or with the furthest failure.
    From any scanner: when the alternatives before `g` all fail there and `g` matches, the
    choice gives `g`'s value and success and leaves the scanner where `g` leaves it; when
    every alternative fails, with the failures `fs`, the choice fails with the earliest of
    the failures detected furthest on, and the scanner stays where it was. A choice without
    alternatives does not pass the checks, so its fallback failure is never given. -/
theorem choice_parse_first_match_or_furthest (rules : Rules α) (sc : Scanner α) :
    (∀ (pre : List (Grammar α)) (g : Grammar α) (post : List (Grammar α)) (v : Value)
        (s : Success) (sc' : Scanner α),
        (∀ h ∈ pre, ∃ f sc'', h.parse rules sc = some (.failed f, sc'')) →
        g.parse rules sc = some (.matched v s, sc') →
        (Grammar.choice (pre ++ g :: post)).parse rules sc = some (.matched v s, sc')) ∧
    (∀ (alts : List (Grammar α)) (fs : List Failure), alts ≠ [] →
        List.Forall₂ (fun g f => ∃ sc'', g.parse rules sc = some (.failed f, sc'')) alts fs →
        ∃ f, f.FirstFurthest fs ∧ (Grammar.choice alts).parse rules sc = some (.failed f, sc)) ∧
    ∀ defined : String → Bool,
      (Grammar.choice ([] : List (Grammar α))).firstError defined = some .emptyChoice := by
  refine ⟨fun pre g post v s sc' hpre hg => ?_, fun alts fs hne hfs => ?_, fun _ => rfl⟩
  · rw [parse_eq_some_iff] at hg ⊢
    refine ⟨?_, hg.2⟩
    rw [run]
    refine runChoice_of_first_match (fun h hh => ?_) hg.1 none
    obtain ⟨f, _, hf⟩ := hpre h hh
    exact ⟨f, (parse_eq_some_iff.1 hf).1⟩
  · -- the failures of the alternatives are those of their runs from the scanner's position
    have hruns := hfs.imp fun _ _ h => by
      obtain ⟨_, hf⟩ := h
      exact (parse_eq_some_iff.1 hf).1
    cases hruns with
    | nil => exact absurd rfl hne
    | cons ha hrest =>
      refine ⟨_, Failure.firstFurthest_foldl _ _, parse_eq_some_iff.2 ⟨?_, ?_⟩⟩
      · rw [run, runChoice, ha, Option.bind_some]
        exact runChoice_of_all_failed hrest _
      · exact (Scanner.restore_position sc).symm

/-- Over `a`, a choice passes the refused `'x'` by and answers with any token; and when both
    alternatives fail, the pair that ran out of tokens after `a` is the one reported. -/
theorem choice_answers_first_match_or_furthest_failure :
    (Grammar.choice [.token 'x', .any]).parse ([] : Rules Char) (Scanner.new ['a']) =
        some (.matched (Lexeme.toValue 'a') ⟨0, 1⟩, (Scanner.new ['a']).restore ⟨1⟩) ∧
      ∃ f : Failure, f.FirstFurthest
          [⟨.expected (Lexeme.literal 'x') (Lexeme.literal 'a'), 0⟩, ⟨.endOfInput, 1⟩] ∧
        (Grammar.choice [.token 'x', .and .any .any]).parse ([] : Rules Char) (Scanner.new ['a']) =
          some (.failed f, Scanner.new ['a']) :=
  ⟨(choice_parse_first_match_or_furthest [] (Scanner.new ['a'])).1 [.token 'x'] .any [] _ _ _
      (by simp [parse, run, single, expectToken])
      (by simp [parse, run, single, Outcome.resume, Success.stop]),
    (choice_parse_first_match_or_furthest [] (Scanner.new ['a'])).2.1 _ _ (by simp)
      (by simp [parse, run, single, expectToken, Success.stop])⟩

end Grammar

end TokenPeg
