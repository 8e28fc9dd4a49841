import TokenPeg.Proofs.LeftCalls
/-
  TokenPeg.Proofs.Termination

  A grammar without left recursion always gives an outcome: the fuel every parse gets,
  `Rules.fuelFor`, one rule call per rule and position and one more, is never used up.

  The measure. An attempt at `pos` that runs inside calls of the rules `visited`, all of
  them made at `pos` itself, needs at most

      budget = (tokens left after pos) · (number of rules) + (rules not among visited)

  units of fuel. A rule called at `pos` is not among `visited`, as that would be left
  recursion; entering it lowers the second summand by one, which pays for the call. A part
  that runs further on starts afresh with nothing visited, and the first summand drops by
  at least the number of rules. A part that runs at `pos` after a part that matched empty
  runs at the start, since what matched empty is nullable (`nullable_of_run_empty`); so
  every part run at `pos` reaches no visited rule at its start.

  The two loops need no fuel of their own: each further iteration starts strictly further
  on, so they run at most once per position, and once more.
-/

namespace TokenPeg

namespace Rules

variable {α : Type} (rules : Rules α)

/-- The number of rules whose names are not among `visited`. -/
def unvisited (visited : List String) : Nat :=
  (rules.filter fun r => r.1 ∉ visited).length

/-- The fuel an attempt at `pos` over `len` tokens may need, inside calls of the rules
    `visited` made at `pos`. -/
def budget (len pos : Nat) (visited : List String) : Nat :=
  (len - pos) * rules.length + rules.unvisited visited

@[simp] theorem unvisited_nil : rules.unvisited [] = rules.length := by
  simp [unvisited]

/-- The rule of a name that is found by lookup. -/
theorem mem_of_lookup {name : String} {body : Grammar α} (found : rules.lookup name = some body) :
    (name, body) ∈ rules := by
  obtain ⟨l₁, l₂, rfl, -⟩ := List.lookup_eq_some_iff.1 found
  exact List.mem_append_right l₁ List.mem_cons_self

/-- Entering a rule not yet visited leaves one rule fewer unvisited. -/
theorem unvisited_cons_lt {name : String} {body : Grammar α} {visited : List String}
    (found : rules.lookup name = some body) (hname : name ∉ visited) :
    rules.unvisited (name :: visited) < rules.unvisited visited := by
  unfold unvisited
  -- the rules left unvisited are those left before, less the ones of this name
  have hsplit : (rules.filter fun r => r.1 ∉ name :: visited) =
      (rules.filter fun r => r.1 ∉ visited).filter fun r => r.1 ≠ name := by
    rw [List.filter_filter]
    congr 1
    funext r
    simp
  rw [hsplit, List.length_filter_lt_length_iff_exists]
  refine ⟨(name, body), ?_, by simp⟩
  exact List.mem_filter.2 ⟨rules.mem_of_lookup found, by simpa using hname⟩

/-- Moving further on pays for starting afresh, whatever was visited before. -/
theorem budget_advance {len pos pos' : Nat} (visited : List String) (hlt : pos < pos')
    (hle : pos' ≤ len) : rules.budget len pos' [] ≤ rules.budget len pos visited := by
  unfold budget
  rw [unvisited_nil]
  have hsteps : len - pos' + 1 ≤ len - pos := by omega
  calc (len - pos') * rules.length + rules.length
      = (len - pos' + 1) * rules.length := by rw [Nat.succ_mul]
    _ ≤ (len - pos) * rules.length := Nat.mul_le_mul_right _ hsteps
    _ ≤ (len - pos) * rules.length + rules.unvisited visited := Nat.le_add_right _ _

/-- Entering a rule not yet visited costs one unit of the budget. -/
theorem budget_enter {name : String} {body : Grammar α} {visited : List String} (len pos : Nat)
    (found : rules.lookup name = some body) (hname : name ∉ visited) :
    rules.budget len pos (name :: visited) + 1 ≤ rules.budget len pos visited := by
  have := rules.unvisited_cons_lt found hname
  unfold budget
  omega

/-- The budget of a fresh attempt within the tokens is below the fuel a parse gets. -/
theorem budget_lt_fuelFor (tokens : List α) (pos : Nat) :
    rules.budget tokens.length pos [] < rules.fuelFor tokens := by
  unfold budget fuelFor
  rw [unvisited_nil]
  have hle : (tokens.length - pos) * rules.length ≤ tokens.length * rules.length :=
    Nat.mul_le_mul_right _ (Nat.sub_le _ _)
  rw [Nat.mul_comm rules.length, Nat.succ_mul]
  omega

/-- Where the next part runs: at the same position, with the rules visited there, or
    further on, afresh. Either way the budget is still covered. -/
theorem exists_visited_of_le {Q : String → Prop} {len pos pos' fuel : Nat}
    {visited : List String} (hle : pos ≤ pos') (hpos' : pos' ≤ len)
    (hfuel : rules.budget len pos visited ≤ fuel)
    (hsame : pos' = pos → ∀ name ∈ visited, Q name) :
    ∃ visited', rules.budget len pos' visited' ≤ fuel ∧ ∀ name ∈ visited', Q name := by
  by_cases heq : pos' = pos
  · subst heq
    exact ⟨visited, hfuel, hsame rfl⟩
  · have hlt : pos < pos' := Nat.lt_of_le_of_ne hle (Ne.symm heq)
    refine ⟨[], Nat.le_trans (rules.budget_advance visited hlt hpos') hfuel, ?_⟩
    intro name hn
    cases hn

/-! ## The checks a grammar passes before it runs -/

/-- A name that the rules define has a rule that lookup finds. -/
theorem exists_lookup_of_defines {name : String} (h : rules.defines name = true) :
    ∃ body, rules.lookup name = some body := by
  have hsome : (rules.lookup name).isSome := by
    rw [List.lookup_isSome_iff]
    obtain ⟨p, hp, hname⟩ := List.any_eq_true.1 h
    exact ⟨p, hp, by rw [beq_iff_eq] at hname ⊢; exact hname.symm⟩
  exact Option.isSome_iff_exists.1 hsome

theorem mem_insertByName {r r' : String × Grammar α} {rs : Rules α} :
    r' ∈ insertByName r rs ↔ r' = r ∨ r' ∈ rs := by
  induction rs with
  | nil => simp [insertByName]
  | cons r'' rs ih =>
    unfold insertByName
    split
    · rw [List.mem_cons, List.mem_cons, ih]
      exact or_left_comm
    · simp only [List.mem_cons]

theorem mem_byName {r : String × Grammar α} : ∀ {rs : Rules α}, r ∈ byName rs ↔ r ∈ rs
  | [] => by simp [byName]
  | r' :: rs => by
    rw [byName, mem_insertByName, mem_byName, List.mem_cons]

/-- Rules that pass their checks have bodies that pass theirs. -/
theorem firstError_body {name : String} {body : Grammar α} (h : rules.firstRuleError = none)
    (found : rules.lookup name = some body) : body.firstError rules.defines = none := by
  unfold firstRuleError at h
  have hall := List.findSome?_eq_none_iff.1 h
  have hmem : (name, body) ∈ byName rules := mem_byName.2 (rules.mem_of_lookup found)
  exact hall body (List.mem_map.2 ⟨(name, body), hmem, rfl⟩)

end Rules

namespace Grammar

variable {α : Type} [Lexeme α] [DecidableEq α] {rules : Rules α} {toks : List α}

/-- After a part that matched from `pos`, the next part runs where it stopped, within the
    tokens, inside calls made there: the rules visited at `pos` when the part matched
    empty, and none when it consumed. Either way the budget is still covered. -/
theorem exists_visited_after {Q : String → Prop} {fuel j pos : Nat} {g : Grammar α} {v : Value}
    {s : Success} {visited : List String} (hpos : pos ≤ toks.length)
    (h : g.run rules toks j pos = some (.matched v s))
    (hfuel : rules.budget toks.length pos visited ≤ fuel)
    (hsame : s.stop = pos → ∀ name ∈ visited, Q name) :
    s.stop ≤ toks.length ∧
      ∃ visited', rules.budget toks.length s.stop visited' ≤ fuel ∧ ∀ name ∈ visited', Q name := by
  obtain ⟨hs, hstop⟩ := run_respects hpos h
  exact ⟨hstop, rules.exists_visited_of_le (hs ▸ s.start_le_stop) hstop hfuel hsame⟩

/-! ## Every attempt gives an outcome -/

section NoLeftRecursion

variable (hrec : rules.NoLeftRecursion)
  (hbodies : ∀ name body, rules.lookup name = some body → body.firstError rules.defines = none)
include hrec hbodies

set_option linter.unusedSectionVars false in
mutual

/-- Without left recursion, an attempt at `pos` inside calls of the rules `visited` made at
    `pos` gives an outcome, provided its fuel covers the budget and it reaches no visited
    rule at its start. -/
theorem run_ne_none {fuel : Nat} {g : Grammar α} {pos : Nat} {visited : List String}
    (hpos : pos ≤ toks.length) (hchk : g.firstError rules.defines = none)
    (hvis : ∀ name ∈ visited, ¬ ReachesAtStart rules g name)
    (hfuel : rules.budget toks.length pos visited ≤ fuel) :
    g.run rules toks fuel pos ≠ none := by
  match g with
  | .any | .token _ | .oneOf _ | .noneOf _ | .satisfy _ _ | .succeed _ =>
    rw [run]
    exact Option.some_ne_none _
  | .endOfInput =>
    rw [run]
    split <;> exact Option.some_ne_none _
  | .and a b =>
    rw [firstError] at hchk
    simp only [Option.or_eq_none_iff] at hchk
    obtain ⟨⟨hchka, hchkb⟩, -⟩ := hchk
    have ha := run_ne_none hpos hchka
      (fun name hn hr => hvis name hn (hr.head (.and_left a b))) hfuel
    obtain ⟨oa, ha⟩ := Option.ne_none_iff_exists'.1 ha
    rw [run, ha, Option.bind_some]
    cases oa with
    | failed f => exact Option.some_ne_none _
    | matched va sa =>
      dsimp only
      -- the second part runs at the start only when the first matched empty
      obtain ⟨hstop, visited', hfuel', hvis'⟩ :=
        exists_visited_after (Q := fun name => ¬ ReachesAtStart rules b name) hpos ha hfuel
          (fun heq name hn hr =>
            hvis name hn (hr.head (.and_right b (nullable_of_run_empty hpos ha heq))))
      obtain ⟨ob, hb⟩ := Option.ne_none_iff_exists'.1 (run_ne_none hstop hchkb hvis' hfuel')
      rw [hb, Option.bind_some]
      cases ob <;> exact Option.some_ne_none _
  | .or a b =>
    rw [firstError] at hchk
    simp only [Option.or_eq_none_iff] at hchk
    obtain ⟨⟨hchka, hchkb⟩, -⟩ := hchk
    have ha := run_ne_none hpos hchka
      (fun name hn hr => hvis name hn (hr.head (.or_left a b))) hfuel
    obtain ⟨oa, ha⟩ := Option.ne_none_iff_exists'.1 ha
    rw [run, ha, Option.bind_some]
    cases oa with
    | matched va sa => exact Option.some_ne_none _
    | failed f =>
      dsimp only
      have hb := run_ne_none hpos hchkb
        (fun name hn hr => hvis name hn (hr.head (.or_right a b))) hfuel
      obtain ⟨ob, hb⟩ := Option.ne_none_iff_exists'.1 hb
      rw [hb, Option.bind_some]
      cases ob <;> exact Option.some_ne_none _
  | .choice alts =>
    rw [firstError] at hchk
    simp only [Option.or_eq_none_iff] at hchk
    rw [run]
    exact runChoice_ne_none hpos hchk.1 hvis hfuel
  | .sequence items =>
    rw [firstError] at hchk
    simp only [Option.or_eq_none_iff] at hchk
    rw [run, Ne, Option.map_eq_none_iff]
    exact runSequence_ne_none hpos hchk.1 hvis hfuel
  | .iterate g min max =>
    rw [firstError] at hchk
    simp only [Option.or_eq_none_iff] at hchk
    rw [run, Ne, Option.map_eq_none_iff]
    exact runIteration_ne_none hpos hchk.1
      (fun name hn hr => hvis name hn (hr.head (.iterate g min max))) hfuel
  | .sepBy item sep =>
    rw [firstError] at hchk
    simp only [Option.or_eq_none_iff] at hchk
    obtain ⟨⟨hchki, hchks⟩, -⟩ := hchk
    have hi := run_ne_none hpos hchki
      (fun name hn hr => hvis name hn (hr.head (.sepBy_item item sep))) hfuel
    obtain ⟨oi, hi⟩ := Option.ne_none_iff_exists'.1 hi
    rw [run, hi, Option.bind_some]
    cases oi with
    | failed f => exact Option.some_ne_none _
    | matched v s =>
      dsimp only
      rw [Ne, Option.map_eq_none_iff]
      -- the separator runs at the start only when the first item matched empty
      obtain ⟨hstop, visited', hfuel', hvis'⟩ :=
        exists_visited_after (Q := fun name =>
          ¬ ReachesAtStart rules item name ∧ ¬ ReachesAtStart rules sep name) hpos hi hfuel
          (fun heq name hn =>
            ⟨fun hr => hvis name hn (hr.head (.sepBy_item item sep)),
              fun hr => hvis name hn
                (hr.head (.sepBy_sep sep (nullable_of_run_empty hpos hi heq)))⟩)
      exact runSeparated_ne_none hstop hchki hchks hvis' hfuel'
  | .optional g | .not g | .label g _ | .filter g _ _ | .map g _ | .complete g | .withSpan g =>
    rw [firstError] at hchk
    simp only [Option.or_eq_none_iff] at hchk
    rw [run, Ne, Option.map_eq_none_iff]
    refine run_ne_none hpos hchk.1 (fun name hn hr => hvis name hn (hr.head ?_)) hfuel
    constructor
  | .rule name =>
    rw [firstError] at hchk
    simp only [Option.or_eq_none_iff, ownError] at hchk
    have hdef : rules.defines name = true := by
      cases hd : rules.defines name with
      | true => rfl
      | false => simp [hd] at hchk
    obtain ⟨body, found⟩ := rules.exists_lookup_of_defines hdef
    -- a rule called here is not already being called here: that would be left recursion
    have hname : name ∉ visited := fun hn => hvis name hn .refl
    have henter := rules.budget_enter toks.length pos found hname
    match fuel with
    | 0 => omega
    | fuel + 1 =>
      have hfuel' : rules.budget toks.length pos (name :: visited) ≤ fuel := by omega
      rw [run, found, Option.bind_some]
      refine run_ne_none hpos (hbodies name body found) ?_ hfuel'
      intro name' hn' hr
      rcases List.mem_cons.1 hn' with rfl | hn'
      · exact not_reachesAtStart_body hrec found hr
      · exact hvis name' hn' (hr.head (.rule found))
termination_by (fuel, 2 * sizeOf g, 0)

/-- Trying alternatives gives an outcome. -/
theorem runChoice_ne_none {fuel : Nat} {alts : List (Grammar α)} {pos : Nat}
    {best : Option Failure} {visited : List String} (hpos : pos ≤ toks.length)
    (hchk : firstErrorAll rules.defines alts = none)
    (hvis : ∀ name ∈ visited, ¬ ReachesAtStart rules (.choice alts) name)
    (hfuel : rules.budget toks.length pos visited ≤ fuel) :
    runChoice rules toks fuel alts pos best ≠ none := by
  match alts with
  | [] =>
    rw [runChoice]
    exact Option.some_ne_none _
  | g :: gs =>
    rw [firstErrorAll] at hchk
    simp only [Option.or_eq_none_iff] at hchk
    have hg := run_ne_none hpos hchk.1
      (fun name hn hr => hvis name hn (hr.head (.choice List.mem_cons_self))) hfuel
    obtain ⟨og, hg⟩ := Option.ne_none_iff_exists'.1 hg
    rw [runChoice, hg, Option.bind_some]
    cases og with
    | matched v s => exact Option.some_ne_none _
    | failed f =>
      exact runChoice_ne_none hpos hchk.2
        (fun name hn hr => hvis name hn hr.choice_cons) hfuel
termination_by (fuel, 2 * sizeOf alts, 0)

/-- Running a sequence's items gives an outcome. -/
theorem runSequence_ne_none {fuel : Nat} {items : List (Grammar α)} {pos : Nat}
    {visited : List String} (hpos : pos ≤ toks.length)
    (hchk : firstErrorAll rules.defines items = none)
    (hvis : ∀ name ∈ visited, ¬ ReachesAtStart rules (.sequence items) name)
    (hfuel : rules.budget toks.length pos visited ≤ fuel) :
    runSequence rules toks fuel items pos ≠ none := by
  match items with
  | [] =>
    rw [runSequence]
    exact Option.some_ne_none _
  | g :: gs =>
    rw [firstErrorAll] at hchk
    simp only [Option.or_eq_none_iff] at hchk
    have hg := run_ne_none hpos hchk.1
      (fun name hn hr => hvis name hn (hr.head (CallsAtStart.sequence_head g gs))) hfuel
    obtain ⟨og, hg⟩ := Option.ne_none_iff_exists'.1 hg
    rw [runSequence, hg, Option.bind_some]
    cases og with
    | failed f => exact Option.some_ne_none _
    | matched v s =>
      dsimp only
      rw [Ne, Option.map_eq_none_iff]
      -- the later items run at the start only when the first matched empty
      obtain ⟨hstop, visited', hfuel', hvis'⟩ :=
        exists_visited_after (Q := fun name => ¬ ReachesAtStart rules (.sequence gs) name)
          hpos hg hfuel
          (fun heq name hn hr =>
            hvis name hn (hr.sequence_cons (nullable_of_run_empty hpos hg heq)))
      exact runSequence_ne_none hstop hchk.2 hvis' hfuel'
termination_by (fuel, 2 * sizeOf items, 0)

/-- A repetition gives an outcome: its first iteration runs at the start, every later one
    further on. -/
theorem runIteration_ne_none {fuel : Nat} {g : Grammar α} {budget : Option Nat} {pos : Nat}
    {visited : List String} (hpos : pos ≤ toks.length) (hchk : g.firstError rules.defines = none)
    (hvis : ∀ name ∈ visited, ¬ ReachesAtStart rules g name)
    (hfuel : rules.budget toks.length pos visited ≤ fuel) :
    runIteration rules toks fuel g budget pos ≠ none := by
  rw [runIteration]
  split
  · exact Option.some_ne_none _
  · obtain ⟨og, hg⟩ := Option.ne_none_iff_exists'.1 (run_ne_none hpos hchk hvis hfuel)
    rw [hg, Option.bind_some]
    cases og with
    | failed f => exact Option.some_ne_none _
    | matched v s =>
      dsimp only
      split
      · rename_i hmore
        rw [Ne, Option.map_eq_none_iff]
        exact runIteration_ne_none hmore.2 hchk (fun name hn => by cases hn)
          (Nat.le_trans (rules.budget_advance visited hmore.1 hmore.2) hfuel)
      · exact Option.some_ne_none _
termination_by (fuel, 2 * sizeOf g + 1, toks.length + 1 - pos)

/-- The rest of a separated list gives an outcome: its separator runs where the last item
    stopped, and each further round starts strictly further on. -/
theorem runSeparated_ne_none {fuel : Nat} {item sep : Grammar α} {pos : Nat}
    {visited : List String} (hpos : pos ≤ toks.length)
    (hchki : item.firstError rules.defines = none) (hchks : sep.firstError rules.defines = none)
    (hvis : ∀ name ∈ visited, ¬ ReachesAtStart rules item name ∧ ¬ ReachesAtStart rules sep name)
    (hfuel : rules.budget toks.length pos visited ≤ fuel) :
    runSeparated rules toks fuel item sep pos ≠ none := by
  rw [runSeparated]
  have hs := run_ne_none hpos hchks (fun name hn => (hvis name hn).2) hfuel
  obtain ⟨os, hs⟩ := Option.ne_none_iff_exists'.1 hs
  rw [hs, Option.bind_some]
  cases os with
  | failed f => exact Option.some_ne_none _
  | matched v s =>
    dsimp only
    -- the item after a separator runs at the start only when the separator matched empty
    obtain ⟨hstop, visited', hfuel', hvis'⟩ :=
      exists_visited_after (Q := fun name => ¬ ReachesAtStart rules item name) hpos hs hfuel
        (fun _ name hn => (hvis name hn).1)
    obtain ⟨oi, hi⟩ := Option.ne_none_iff_exists'.1 (run_ne_none hstop hchki hvis' hfuel')
    rw [hi, Option.bind_some]
    cases oi with
    | failed f => exact Option.some_ne_none _
    | matched v' s' =>
      dsimp only
      split
      · rename_i hmore
        rw [Ne, Option.map_eq_none_iff]
        exact runSeparated_ne_none hmore.2 hchki hchks (fun name hn => by cases hn)
          (Nat.le_trans (rules.budget_advance visited hmore.1 hmore.2) hfuel)
      · exact Option.some_ne_none _
termination_by (fuel, 2 * (sizeOf item + sizeOf sep) + 1, toks.length + 1 - pos)

end

/-- Without left recursion, a checked grammar parses from every scanner with the fuel a
    parse gets. -/
theorem parse_ne_none {g : Grammar α} (hchk : g.firstError rules.defines = none)
    (s : Scanner α) : g.parse rules s ≠ none := by
  unfold parse
  rw [Ne, Option.map_eq_none_iff]
  exact run_ne_none hrec hbodies s.position_le hchk (fun name hn => by cases hn)
    (Nat.le_of_lt (rules.budget_lt_fuelFor s.tokens s.position))

end NoLeftRecursion

/-! ## The two loops -/

/-- A repetition iterates at most once per position, and once more. -/
theorem values_length_of_runIteration {fuel : Nat} {g : Grammar α} {budget : Option Nat}
    {pos : Nat} {it : Iteration} (h : runIteration rules toks fuel g budget pos = some it) :
    it.values.length ≤ toks.length - pos + 1 := by
  rw [runIteration] at h
  split at h
  · cases h
    simp
  · obtain ⟨og, -, h⟩ := Option.bind_eq_some_iff.1 h
    cases og with
    | failed f =>
      cases h
      simp
    | matched v s =>
      dsimp only at h
      split at h
      · rename_i hmore
        obtain ⟨it', hit', rfl⟩ := Option.map_eq_some_iff.1 h
        -- every further iteration starts strictly further on
        have ih := values_length_of_runIteration hit'
        simp only [List.length_cons]
        omega
      · cases h
        simp
termination_by toks.length + 1 - pos

/-- The rest of a separated list takes at most one item per position, and one more. -/
theorem values_length_of_runSeparated {fuel : Nat} {item sep : Grammar α} {pos : Nat}
    {vs : List Value} {stop : Nat} (h : runSeparated rules toks fuel item sep pos = some (vs, stop)) :
    vs.length ≤ toks.length - pos + 1 := by
  rw [runSeparated] at h
  obtain ⟨os, -, h⟩ := Option.bind_eq_some_iff.1 h
  cases os with
  | failed f =>
    cases h
    simp
  | matched v s =>
    obtain ⟨oi, -, h⟩ := Option.bind_eq_some_iff.1 h
    cases oi with
    | failed f =>
      cases h
      simp
    | matched v' s' =>
      dsimp only at h
      split at h
      · rename_i hmore
        obtain ⟨res, hres, h⟩ := Option.map_eq_some_iff.1 h
        obtain ⟨vs', stop'⟩ := res
        cases h
        have ih := values_length_of_runSeparated hres
        simp only [List.length_cons]
        omega
      · cases h
        simp
termination_by toks.length + 1 - pos

/-- Every grammar without left recursion terminates: checking it and parsing in any mode,
    from any start, never runs out of fuel; and the loops of repetitions and separated
    lists run at most once per position, and once more. -/
theorem parseIn_terminates (hrec : rules.NoLeftRecursion) (g : Grammar α) (mode : Mode)
    (tokens : List α) :
    g.parseIn rules mode tokens ≠ .error .exhausted ∧
      (∀ fuel (g' : Grammar α) budget pos it,
        runIteration rules tokens fuel g' budget pos = some it →
          it.values.length ≤ tokens.length - pos + 1) ∧
      (∀ fuel (item sep : Grammar α) pos vs stop,
        runSeparated rules tokens fuel item sep pos = some (vs, stop) →
          vs.length ≤ tokens.length - pos + 1) := by
  refine ⟨?_, fun _ _ _ _ _ h => values_length_of_runIteration h,
    fun _ _ _ _ _ _ h => values_length_of_runSeparated h⟩
  unfold parseIn
  split
  · exact fun h => by cases h
  · rename_i hfirst
    unfold Rules.firstError at hfirst
    rw [Option.or_eq_none_iff] at hfirst
    obtain ⟨hchk, hrules⟩ := hfirst
    have hbodies : ∀ name body, rules.lookup name = some body →
        body.firstError rules.defines = none :=
      fun _ _ found => rules.firstError_body hrules found
    -- every mode parses from some scanner over the tokens
    have hparse := parse_ne_none hrec hbodies hchk
    cases mode with
    | scanner start =>
      obtain ⟨r, hr⟩ := Option.ne_none_iff_exists'.1 (hparse (Scanner.startingAt tokens start))
      simp only [hr, Option.map_some]
      exact fun h => by cases h
    | tokens =>
      obtain ⟨r, hr⟩ := Option.ne_none_iff_exists'.1 (hparse (Scanner.new tokens))
      simp only [parseTokens, hr, Option.map_some]
      exact fun h => by cases h
    | complete =>
      obtain ⟨r, hr⟩ := Option.ne_none_iff_exists'.1 (hparse (Scanner.new tokens))
      simp only [parseComplete, hr, Option.map_some]
      exact fun h => by cases h

/-- A right-recursive rule, `list ← 'a' list / ε`, has no left recursion, so it terminates on
    every input. -/
theorem right_recursion_terminates :
    Rules.NoLeftRecursion [("list", Grammar.or (.and (.token 'a') (.rule "list")) (.succeed .null))] ∧
      ((Grammar.rule "list").parseIn
          [("list", Grammar.or (.and (.token 'a') (.rule "list")) (.succeed .null))] .tokens
          ['a', 'a'] ≠ .error .exhausted ∧
        (∀ fuel (g' : Grammar Char) budget pos it,
          runIteration [("list", Grammar.or (.and (.token 'a') (.rule "list")) (.succeed .null))]
              ['a', 'a'] fuel g' budget pos = some it →
            it.values.length ≤ ['a', 'a'].length - pos + 1) ∧
        (∀ fuel (item sep : Grammar Char) pos vs stop,
          runSeparated [("list", Grammar.or (.and (.token 'a') (.rule "list")) (.succeed .null))]
              ['a', 'a'] fuel item sep pos = some (vs, stop) →
            vs.length ≤ ['a', 'a'].length - pos + 1)) := by
  have hnlr : Rules.NoLeftRecursion
      [("list", Grammar.or (.and (.token 'a') (.rule "list")) (.succeed .null))] := by
    intro name h
    obtain ⟨b, hstep, hrest⟩ := Relation.TransGen.head'_iff.1 h
    cases hstep with
    | rule found =>
      have hb : b = Grammar.or (.and (.token 'a') (.rule "list")) (.succeed .null) := by
        rw [List.lookup_cons] at found
        split at found
        · exact (Option.some.inj found).symm
        · cases found
      subst hb
      -- what the body runs at its start is one of these four parts, none of them a call
      have hclosed : ∀ x, Relation.ReflTransGen
          (CallsAtStart [("list", Grammar.or (.and (.token 'a') (.rule "list")) (.succeed .null))])
          (Grammar.or (.and (.token 'a') (.rule "list")) (.succeed .null)) x →
          x = Grammar.or (.and (.token 'a') (.rule "list")) (.succeed .null) ∨
            x = .and (.token 'a') (.rule "list") ∨ x = .token 'a' ∨ x = .succeed .null := by
        intro x hx
        induction hx with
        | refl => exact Or.inl rfl
        | tail _ hbc ih =>
          rcases ih with rfl | rfl | rfl | rfl
          · cases hbc with
            | or_left => exact Or.inr (Or.inl rfl)
            | or_right => exact Or.inr (Or.inr (Or.inr rfl))
          · cases hbc with
            | and_left => exact Or.inr (Or.inr (Or.inl rfl))
            | and_right _ first => cases first
          · cases hbc
          · cases hbc
      rcases hclosed _ hrest with h | h | h | h <;> cases h
  exact ⟨hnlr, parseIn_terminates hnlr (.rule "list") .tokens ['a', 'a']⟩

end Grammar

end TokenPeg
