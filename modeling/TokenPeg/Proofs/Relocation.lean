import TokenPeg.Proofs.Fuel
/-
  TokenPeg.Proofs.Relocation

  Parsing depends only on the tokens from the start on, and its positions are relative to
  the start. An attempt at position `d + q` of a list of tokens and the attempt at `q` of
  the list without its first `d` tokens run alike: both give up, or they give the same
  outcome moved by `d`, a match with its start `d` further on and the same count of tokens
  consumed, a failure with the same reason detected `d` further on.

  A position enters a value in one place only: the range that `withSpan` pairs its value
  with. So the values are equal when no `withSpan` can be reached. In general the attempt
  at `d + q` is the attempt at `q` of the shorter list by the grammar whose every `withSpan`
  records its range `d` positions further on (`Grammar.moveSpans`), before any map, filter
  or enclosing part reads it: the same value, exactly.

  Both are one statement about two runs, of `m g` over the shorter list and of `g` over the
  whole one, where `m` keeps the form of every grammar within reach of `g` and only moves
  the ranges (`MovesAt`): the identity when no `withSpan` is within reach, `moveSpans d`
  always. Proven once, by induction along the runs (fuel, then the size of the grammar, then
  the tokens left of the shorter list for the two loops), each case relating the runs of
  the parts `d` positions apart. From a scanner the two parses get different fuel, each the
  fuel of its own tokens; `run_fuelFor_eq` makes either amount give the same answer.
-/

/-! ## Related optional results -/

namespace Option

variable {α β γ δ : Type} {r : α → β → Prop} {s : γ → δ → Prop} {x : Option α} {y : Option β}

theorem Rel.bind {f : α → Option γ} {g : β → Option δ} (h : Option.Rel r x y)
    (hfg : ∀ a b, r a b → Option.Rel s (f a) (g b)) : Option.Rel s (x.bind f) (y.bind g) := by
  cases h with
  | some hab => exact hfg _ _ hab
  | none => exact .none

theorem Rel.map {f : α → γ} {g : β → δ} (h : Option.Rel r x y)
    (hfg : ∀ a b, r a b → s (f a) (g b)) : Option.Rel s (x.map f) (y.map g) := by
  cases h with
  | some hab => exact .some (hfg _ _ hab)
  | none => exact .none

end Option

namespace TokenPeg

/-! ## Outcomes moved further on -/

namespace Success

/-- The same match, `d` positions further on. -/
def shift (d : Nat) (s : Success) : Success := ⟨d + s.start, s.consumed⟩

@[simp] theorem stop_shift (d : Nat) (s : Success) : (s.shift d).stop = d + s.stop := by
  simp only [shift, stop, Nat.add_assoc]

theorem since_add (d q stop : Nat) : since (d + q) (d + stop) = (since q stop).shift d := by
  simp only [since, shift, Nat.add_sub_add_left]

end Success

namespace Failure

/-- The same failure, detected `d` positions further on. -/
def shift (d : Nat) (f : Failure) : Failure := ⟨f.reason, d + f.position⟩

/-- Moving two failures alike keeps which of them lies furthest on. -/
theorem furthest_shift (d : Nat) (f g : Failure) :
    (f.shift d).furthest (g.shift d) = (f.furthest g).shift d := by
  unfold furthest shift
  by_cases h : f.position < g.position
  · rw [if_pos h, if_pos (Nat.add_lt_add_left h d)]
  · rw [if_neg h, if_neg (fun h' => h (Nat.lt_of_add_lt_add_left h'))]

end Failure

namespace Outcome

/-- The same outcome, `d` positions further on. -/
def shift (d : Nat) : Outcome → Outcome
  | .matched v s => .matched v (s.shift d)
  | .failed f => .failed (f.shift d)

/-- `Shifted d o' o`: `o` is `o'` moved `d` positions further on, with the same value or
    the same reason. -/
inductive Shifted (d : Nat) : Outcome → Outcome → Prop where
  | matched {v : Value} {s : Success} : Shifted d (.matched v s) (.matched v (s.shift d))
  | failed {f : Failure} : Shifted d (.failed f) (.failed (f.shift d))

variable {d : Nat} {o' o : Outcome}

theorem Shifted.eq_shift (h : Shifted d o' o) : o = o'.shift d := by
  cases h <;> rfl

/-- A moved outcome leaves the input as far further on. -/
theorem Shifted.resume (h : Shifted d o' o) (start : Nat) :
    o.resume (d + start) = d + o'.resume start := by
  cases h with
  | matched => exact Success.stop_shift d _
  | failed => rfl

end Outcome

/-! ## Ranges moved further on -/

namespace Value

/-- A value paired with a range, as `withSpan` gives it, with the range moved `d` positions
    on; any other value as it is. -/
def moveRange (d : Nat) : Value → Value
  | .arr [v, .obj [("end", .int stop), ("start", .int start)]] =>
    .arr [v, .obj [("end", .int (d + stop)), ("start", .int (d + start))]]
  | w => w

theorem moveRange_pair (d : Nat) (v : Value) (start stop : Nat) :
    moveRange d (.arr [v, ofRange start stop]) = .arr [v, ofRange (d + start) (d + stop)] := by
  simp only [moveRange, ofRange, ofNat, Int.natCast_add]

end Value

namespace Grammar

variable {α : Type}

mutual

/-- The grammar whose every `withSpan` records its range `d` positions further on, before
    anything reads it. -/
def moveSpans (d : Nat) : Grammar α → Grammar α
  | .and a b => .and (moveSpans d a) (moveSpans d b)
  | .or a b => .or (moveSpans d a) (moveSpans d b)
  | .choice alts => .choice (moveSpansList d alts)
  | .sequence items => .sequence (moveSpansList d items)
  | .iterate g min max => .iterate (moveSpans d g) min max
  | .sepBy item sep => .sepBy (moveSpans d item) (moveSpans d sep)
  | .optional g => .optional (moveSpans d g)
  | .not g => .not (moveSpans d g)
  | .label g name => .label (moveSpans d g) name
  | .filter g keep message => .filter (moveSpans d g) keep message
  | .map g f => .map (moveSpans d g) f
  | .complete g => .complete (moveSpans d g)
  | .withSpan g => .map (.withSpan (moveSpans d g)) (Value.moveRange d)
  | g => g

/-- `moveSpans` over a list of grammars. -/
def moveSpansList (d : Nat) : List (Grammar α) → List (Grammar α)
  | [] => []
  | g :: gs => moveSpans d g :: moveSpansList d gs

end

theorem moveSpansList_eq_map (d : Nat) (gs : List (Grammar α)) :
    moveSpansList d gs = gs.map (moveSpans d) := by
  induction gs with
  | nil => rfl
  | cons g gs ih => rw [moveSpansList, ih, List.map_cons]

end Grammar

/-- The rules with every range moved `d` positions on. -/
def Rules.moveSpans {α : Type} (d : Nat) (rules : Rules α) : Rules α :=
  rules.map fun entry => (entry.1, entry.2.moveSpans d)

namespace Rules

variable {α : Type}

theorem lookup_moveSpans (d : Nat) (rules : Rules α) (name : String) :
    (rules.moveSpans d).lookup name = (rules.lookup name).map (Grammar.moveSpans d) := by
  induction rules with
  | nil => rfl
  | cons entry rules ih =>
    obtain ⟨key, body⟩ := entry
    rw [Rules.moveSpans, List.map_cons, List.lookup_cons, List.lookup_cons]
    cases name == key with
    | true => rfl
    | false => exact ih

@[simp] theorem length_moveSpans (d : Nat) (rules : Rules α) :
    (rules.moveSpans d).length = rules.length := List.length_map _

end Rules

namespace Grammar

variable {α : Type}

/-! ## What a run can reach -/

/-- The grammars a run of `g` goes on to, rule calls aside: its parts, where a choice or a
    sequence goes on to its first element and to the choice or sequence of the rest. -/
def parts : Grammar α → List (Grammar α)
  | .and a b | .or a b | .sepBy a b => [a, b]
  | .choice [] | .sequence [] => []
  | .choice (g :: gs) => [g, .choice gs]
  | .sequence (g :: gs) => [g, .sequence gs]
  | .iterate g _ _ | .optional g | .not g | .label g _ | .filter g _ _ | .map g _
  | .complete g | .withSpan g => [g]
  | .any | .token _ | .oneOf _ | .noneOf _ | .satisfy _ _ | .succeed _ | .endOfInput
  | .rule _ => []

/-- `Reaches rules g h`: a run of `g` may come to run `h`, through parts and through the
    bodies of the rules it calls. -/
inductive Reaches (rules : Rules α) : Grammar α → Grammar α → Prop where
  | refl (g : Grammar α) : Reaches rules g g
  | part {g k h : Grammar α} : k ∈ g.parts → Reaches rules k h → Reaches rules g h
  | call {name : String} {body h : Grammar α} :
      rules.lookup name = some body → Reaches rules body h → Reaches rules (.rule name) h

theorem Reaches.trans {rules : Rules α} {g h k : Grammar α} (hgh : Reaches rules g h)
    (hhk : Reaches rules h k) : Reaches rules g k := by
  induction hgh with
  | refl => exact hhk
  | part hpart _ ih => exact .part hpart (ih hhk)
  | call found _ ih => exact .call found (ih hhk)

/-- `P` holds of every grammar that a run of `g` may come to run. -/
def Everywhere (rules : Rules α) (P : Grammar α → Prop) (g : Grammar α) : Prop :=
  ∀ h, Reaches rules g h → P h

section Everywhere

variable {rules : Rules α} {P : Grammar α → Prop} {g k : Grammar α}

theorem Everywhere.self (h : Everywhere rules P g) : P g := h g (.refl g)

theorem Everywhere.reaches (h : Everywhere rules P g) (hr : Reaches rules g k) :
    Everywhere rules P k :=
  fun h' hr' => h h' (hr.trans hr')

theorem Everywhere.part (h : Everywhere rules P g) (hk : k ∈ g.parts) : Everywhere rules P k :=
  h.reaches (.part hk (.refl k))

theorem Everywhere.call {name : String} (h : Everywhere rules P (.rule name))
    (found : rules.lookup name = some k) : Everywhere rules P k :=
  h.reaches (.call found (.refl k))

end Everywhere

/-- Where a grammar puts no range of its own into its value: anywhere but at a `withSpan`. -/
def NoSpanAt : Grammar α → Prop
  | .withSpan _ => False
  | _ => True

/-- No `withSpan` can be reached from `g`. -/
def SpanFree (rules : Rules α) (g : Grammar α) : Prop := Everywhere rules NoSpanAt g

/-! ## Transformations that only move ranges -/

/-- How `m`, with the rules `rules'` for the grammars it gives, acts at the head of a
    grammar run with `rules`: it keeps the form and applies to the parts, except that a
    `withSpan` is made to record its range `d` positions on; a rule call keeps its name,
    and `rules'` holds `m` of the rule's body. -/
def MovesAt (rules rules' : Rules α) (d : Nat) (m : Grammar α → Grammar α) :
    Grammar α → Prop
  | .and a b => m (.and a b) = .and (m a) (m b)
  | .or a b => m (.or a b) = .or (m a) (m b)
  | .choice alts => m (.choice alts) = .choice (alts.map m)
  | .sequence items => m (.sequence items) = .sequence (items.map m)
  | .iterate g min max => m (.iterate g min max) = .iterate (m g) min max
  | .sepBy item sep => m (.sepBy item sep) = .sepBy (m item) (m sep)
  | .optional g => m (.optional g) = .optional (m g)
  | .not g => m (.not g) = .not (m g)
  | .label g name => m (.label g name) = .label (m g) name
  | .filter g keep message => m (.filter g keep message) = .filter (m g) keep message
  | .map g f => m (.map g f) = .map (m g) f
  | .complete g => m (.complete g) = .complete (m g)
  | .withSpan g => m (.withSpan g) = .map (.withSpan (m g)) (Value.moveRange d)
  | .rule name => m (.rule name) = .rule name ∧ rules'.lookup name = (rules.lookup name).map m
  | g => m g = g

/-- `moveSpans d`, with the rules moved alike, only moves ranges, at every grammar. -/
theorem movesAt_moveSpans (rules : Rules α) (d : Nat) (g : Grammar α) :
    MovesAt rules (rules.moveSpans d) d (moveSpans d) g := by
  cases g with
  | choice alts => exact congrArg Grammar.choice (moveSpansList_eq_map d alts)
  | sequence items => exact congrArg Grammar.sequence (moveSpansList_eq_map d items)
  | rule name => exact ⟨rfl, Rules.lookup_moveSpans d rules name⟩
  | _ => rfl

/-- Without a `withSpan` within reach, the identity only moves ranges: there are none to
    move. -/
theorem SpanFree.movesAt_id {rules : Rules α} {g : Grammar α} (hsf : SpanFree rules g)
    (d : Nat) : Everywhere rules (MovesAt rules rules d id) g := by
  intro h hr
  have hno : NoSpanAt h := hsf h hr
  cases h with
  | choice alts => exact congrArg Grammar.choice (List.map_id alts).symm
  | sequence items => exact congrArg Grammar.sequence (List.map_id items).symm
  | withSpan k => exact hno.elim
  | rule name => exact ⟨rfl, by simp⟩
  | _ => rfl

/-! ## Two runs, `d` positions apart -/

/-- `Iteration.Shifted d it' it`: the repetition `it` is `it'` moved `d` positions on: the
    same values, and its stop and the failure that stopped it `d` further on. -/
structure Iteration.Shifted (d : Nat) (it' it : Iteration) : Prop where
  values : it.values = it'.values
  stop : it.stop = d + it'.stop
  stoppedBy : it.stoppedBy = it'.stoppedBy.map (Failure.shift d)

/-- `ItemsShifted d r' r`: the run of a sequence's items `r` is `r'` moved `d` positions
    on: the same failure further on, or the same values and the stop further on. -/
inductive ItemsShifted (d : Nat) :
    Except Failure (List Value × Nat) → Except Failure (List Value × Nat) → Prop where
  | error {f : Failure} : ItemsShifted d (.error f) (.error (f.shift d))
  | ok {vs : List Value} {stop : Nat} : ItemsShifted d (.ok (vs, stop)) (.ok (vs, d + stop))

variable [Lexeme α] [DecidableEq α] {rules rules' : Rules α} {toks : List α} {d : Nat}
  {m : Grammar α → Grammar α}

omit [Lexeme α] [DecidableEq α] in
/-- A repetition moved further on settles to the moved outcome. -/
theorem Iteration.Shifted.settle {it' it : Iteration} (h : it'.Shifted d it) (q min : Nat) :
    Outcome.Shifted d (it'.settle q min) (it.settle (d + q) min) := by
  obtain ⟨hvals, hstop, hby⟩ := h
  unfold Iteration.settle
  rw [hstop, hby, hvals]
  by_cases hlt : it'.values.length < min
  · rw [if_pos hlt, if_pos hlt]
    cases it'.stoppedBy with
    | none => exact .failed
    | some f => exact .failed
  · rw [if_neg hlt, if_neg hlt, Success.since_add]
    exact .matched

omit [DecidableEq α] in
/-- A single token tested `d` positions further on, in the list with `d` tokens more in
    front, is the same token. -/
theorem single_shift (check : α → Option Reason) (q : Nat) :
    Outcome.Shifted d (single (toks.drop d) q check) (single toks (d + q) check) := by
  unfold single
  rw [List.getElem?_drop]
  cases toks[d + q]? with
  | none => exact .failed
  | some t =>
    dsimp only
    cases check t with
    | some r => exact .failed
    | none => exact .matched

omit [Lexeme α] [DecidableEq α] in
/-- A loop goes on after an item that stopped at `stop` in the whole list exactly when it
    goes on after the item `d` positions nearer in the shorter one: the item consumed
    something, and stopped within the tokens. -/
theorem goesOn_drop_iff {q stop : Nat} :
    (d + q < d + stop ∧ d + stop ≤ toks.length) ↔ (q < stop ∧ stop ≤ (toks.drop d).length) := by
  rw [List.length_drop]
  omega

mutual

/-- An attempt of `m g` at `q` of the tokens after the first `d` is the attempt of `g` at
    `d + q` of all the tokens, moved `d` positions on: both give up, or the outcomes agree
    up to the move, values included. -/
theorem run_move (hd : d ≤ toks.length) {fuel : Nat} {g : Grammar α} {q : Nat}
    (hm : Everywhere rules (MovesAt rules rules' d m) g) :
    Option.Rel (Outcome.Shifted d)
      ((m g).run rules' (toks.drop d) fuel q) (g.run rules toks fuel (d + q)) := by
  match g with
  | .any | .token _ | .oneOf _ | .noneOf _ | .satisfy _ _ =>
    rw [show m _ = _ from hm.self, run, run]
    exact .some (single_shift _ q)
  | .succeed v =>
    rw [show m _ = _ from hm.self, run, run]
    exact .some .matched
  | .endOfInput =>
    rw [show m _ = _ from hm.self, run, run, List.getElem?_drop]
    cases toks[d + q]? with
    | none => exact .some .matched
    | some t => exact .some .failed
  | .and a b =>
    rw [show m _ = _ from hm.self, run, run]
    refine (run_move hd (hm.part (by simp [parts]))).bind fun oa' oa ha => ?_
    cases ha with
    | failed => exact .some .failed
    | matched =>
      dsimp only
      -- the second part runs where the first stopped, `d` positions apart
      rw [Success.stop_shift]
      refine (run_move hd (hm.part (by simp [parts]))).bind fun ob' ob hb => ?_
      cases hb with
      | failed => exact .some .failed
      | matched =>
        dsimp only
        rw [Success.stop_shift, Success.since_add]
        exact .some .matched
  | .or a b =>
    rw [show m _ = _ from hm.self, run, run]
    refine (run_move hd (hm.part (by simp [parts]))).bind fun oa' oa ha => ?_
    cases ha with
    | matched => exact .some .matched
    | failed =>
      dsimp only
      refine (run_move hd (hm.part (by simp [parts]))).bind fun ob' ob hb => ?_
      cases hb with
      | matched => exact .some .matched
      | failed =>
        dsimp only
        rw [Failure.furthest_shift]
        exact .some .failed
  | .choice alts =>
    rw [show m _ = _ from hm.self, run, run]
    exact runChoice_move hd hm
  | .sequence items =>
    rw [show m _ = _ from hm.self, run, run]
    refine (runSequence_move hd hm).map fun r' r hr => ?_
    cases hr with
    | error => exact .failed
    | ok =>
      dsimp only
      rw [Success.since_add]
      exact .matched
  | .iterate g min max =>
    rw [show m _ = _ from hm.self, run, run]
    exact (runIteration_move hd (hm.part (by simp [parts]))).map fun _ _ hit => hit.settle q min
  | .sepBy item sep =>
    rw [show m _ = _ from hm.self, run, run]
    refine (run_move hd (hm.part (by simp [parts]))).bind fun oi' oi hi => ?_
    cases hi with
    | failed => exact .some .failed
    | matched =>
      dsimp only
      rw [Success.stop_shift]
      refine (runSeparated_move hd (hm.part (by simp [parts])) (hm.part (by simp [parts]))).map
        fun r' r hr => ?_
      obtain ⟨vs, stop⟩ := r'
      subst hr
      dsimp only
      rw [Success.since_add]
      exact .matched
  | .optional g =>
    rw [show m _ = _ from hm.self, run, run]
    refine (run_move hd (hm.part (by simp [parts]))).map fun o' o ho => ?_
    cases ho with
    | matched => exact .matched
    | failed => exact .matched
  | .not g =>
    rw [show m _ = _ from hm.self, run, run]
    refine (run_move hd (hm.part (by simp [parts]))).map fun o' o ho => ?_
    cases ho with
    | matched => exact .failed
    | failed => exact .matched
  | .label g name =>
    rw [show m _ = _ from hm.self, run, run]
    refine (run_move hd (hm.part (by simp [parts]))).map fun o' o ho => ?_
    cases ho with
    | matched => exact .matched
    | failed => exact .failed
  | .filter g keep message =>
    rw [show m _ = _ from hm.self, run, run]
    refine (run_move hd (hm.part (by simp [parts]))).map fun o' o ho => ?_
    cases ho with
    | @matched v s =>
      dsimp only
      -- both runs check the same value
      cases keep v with
      | true => exact .matched
      | false => exact .failed
    | failed => exact .failed
  | .map g f =>
    rw [show m _ = _ from hm.self, run, run]
    refine (run_move hd (hm.part (by simp [parts]))).map fun o' o ho => ?_
    cases ho with
    | matched => exact .matched
    | failed => exact .failed
  | .complete g =>
    rw [show m _ = _ from hm.self, run, run]
    refine (run_move hd (hm.part (by simp [parts]))).map fun o' o ho => ?_
    cases ho with
    | @matched v s =>
      dsimp only
      rw [Success.stop_shift, List.length_drop]
      by_cases hend : toks.length ≤ d + s.stop
      · have hend' : toks.length - d ≤ s.stop := by omega
        rw [if_pos hend, if_pos hend']
        exact .matched
      · have hend' : ¬toks.length - d ≤ s.stop := by omega
        have hleft : toks.length - (d + s.stop) = toks.length - d - s.stop := by omega
        rw [if_neg hend, if_neg hend', hleft]
        exact .failed
    | failed => exact .failed
  | .withSpan g =>
    rw [show m _ = _ from hm.self, run, run, run, Option.map_map]
    refine (run_move hd (hm.part (by simp [parts]))).map fun o' o ho => ?_
    cases ho with
    | @matched v s =>
      dsimp only [Function.comp]
      -- the range recorded over the shorter list, moved on, is the range over the whole one
      rw [Value.moveRange_pair, Success.stop_shift]
      exact .matched
    | failed => exact .failed
  | .rule name =>
    obtain ⟨hname, hlookup⟩ : MovesAt rules rules' d m (.rule name) := hm.self
    rw [hname]
    match fuel with
    | 0 =>
      rw [run, run]
      exact .none
    | fuel + 1 =>
      rw [run, run, hlookup]
      cases found : rules.lookup name with
      | none => exact .none
      | some body => exact run_move hd (hm.call found)
termination_by (fuel, 2 * sizeOf g, 0)

/-- Trying the alternatives of `m` at `q` of the shorter list and the alternatives at
    `d + q` of the whole one, with the furthest failure so far moved alike, gives outcomes
    `d` positions apart. -/
theorem runChoice_move (hd : d ≤ toks.length) {fuel : Nat} {alts : List (Grammar α)} {q : Nat}
    {best : Option Failure} (hm : Everywhere rules (MovesAt rules rules' d m) (.choice alts)) :
    Option.Rel (Outcome.Shifted d)
      (runChoice rules' (toks.drop d) fuel (alts.map m) q best)
      (runChoice rules toks fuel alts (d + q) (best.map (Failure.shift d))) := by
  match alts with
  | [] =>
    rw [List.map_nil, runChoice, runChoice]
    cases best with
    | none => exact .some .failed
    | some b => exact .some .failed
  | g :: gs =>
    rw [List.map_cons, runChoice, runChoice]
    refine (run_move hd (hm.part (by simp [parts]))).bind fun o' o ho => ?_
    cases ho with
    | matched => exact .some .matched
    | @failed f =>
      dsimp only
      cases best with
      | none => exact runChoice_move hd (hm.part (by simp [parts]))
      | some b =>
        simp only [Option.map_some, Failure.furthest_shift]
        exact runChoice_move hd (hm.part (by simp [parts]))
termination_by (fuel, 2 * sizeOf alts, 0)

/-- Running the items of `m` at `q` of the shorter list and the items at `d + q` of the whole
    one gives runs `d` positions apart. -/
theorem runSequence_move (hd : d ≤ toks.length) {fuel : Nat} {items : List (Grammar α)}
    {q : Nat} (hm : Everywhere rules (MovesAt rules rules' d m) (.sequence items)) :
    Option.Rel (ItemsShifted d)
      (runSequence rules' (toks.drop d) fuel (items.map m) q)
      (runSequence rules toks fuel items (d + q)) := by
  match items with
  | [] =>
    rw [List.map_nil, runSequence, runSequence]
    exact .some .ok
  | g :: gs =>
    rw [List.map_cons, runSequence, runSequence]
    refine (run_move hd (hm.part (by simp [parts]))).bind fun o' o ho => ?_
    cases ho with
    | failed => exact .some .error
    | matched =>
      dsimp only
      rw [Success.stop_shift]
      refine (runSequence_move hd (hm.part (by simp [parts]))).map fun r' r hr => ?_
      cases hr with
      | error => exact .error
      | ok => exact .ok
termination_by (fuel, 2 * sizeOf items, 0)

/-- A repetition of `m g` at `q` of the shorter list and of `g` at `d + q` of the whole one
    collects the same values, and stops `d` positions apart, for the same reason. -/
theorem runIteration_move (hd : d ≤ toks.length) {fuel : Nat} {g : Grammar α}
    {budget : Option Nat} {q : Nat} (hm : Everywhere rules (MovesAt rules rules' d m) g) :
    Option.Rel (Iteration.Shifted d)
      (runIteration rules' (toks.drop d) fuel (m g) budget q)
      (runIteration rules toks fuel g budget (d + q)) := by
  rw [runIteration, runIteration]
  by_cases hzero : budget = some 0
  · rw [if_pos hzero, if_pos hzero]
    exact .some ⟨rfl, rfl, rfl⟩
  · rw [if_neg hzero, if_neg hzero]
    refine (run_move hd hm).bind fun o' o ho => ?_
    cases ho with
    | failed => exact .some ⟨rfl, rfl, rfl⟩
    | @matched v s =>
      dsimp only
      rw [Success.stop_shift]
      -- the loop goes on in both runs or in neither
      by_cases hmore : q < s.stop ∧ s.stop ≤ (toks.drop d).length
      · have hmore' := goesOn_drop_iff.2 hmore
        rw [if_pos hmore, if_pos hmore']
        exact (runIteration_move hd hm).map fun _ _ hit =>
          ⟨congrArg (v :: ·) hit.values, hit.stop, hit.stoppedBy⟩
      · rw [if_neg hmore, if_neg (mt goesOn_drop_iff.1 hmore)]
        exact .some ⟨rfl, rfl, rfl⟩
termination_by (fuel, 2 * sizeOf g + 1, (toks.drop d).length + 1 - q)

/-- The rest of a separated list of `m item` and `m sep` at `q` of the shorter list and of
    `item` and `sep` at `d + q` of the whole one collects the same items and stops `d`
    positions apart. -/
theorem runSeparated_move (hd : d ≤ toks.length) {fuel : Nat} {item sep : Grammar α} {q : Nat}
    (hi : Everywhere rules (MovesAt rules rules' d m) item)
    (hs : Everywhere rules (MovesAt rules rules' d m) sep) :
    Option.Rel (fun r' r => r = (r'.1, d + r'.2))
      (runSeparated rules' (toks.drop d) fuel (m item) (m sep) q)
      (runSeparated rules toks fuel item sep (d + q)) := by
  rw [runSeparated, runSeparated]
  refine (run_move hd hs).bind fun os' os hos => ?_
  cases hos with
  | failed => exact .some rfl
  | matched =>
    dsimp only
    rw [Success.stop_shift]
    refine (run_move hd hi).bind fun oi' oi hoi => ?_
    cases hoi with
    | failed => exact .some rfl
    | @matched v s =>
      dsimp only
      rw [Success.stop_shift]
      -- the list goes on in both runs or in neither
      by_cases hmore : q < s.stop ∧ s.stop ≤ (toks.drop d).length
      · have hmore' := goesOn_drop_iff.2 hmore
        rw [if_pos hmore, if_pos hmore']
        refine (runSeparated_move hd hi hs).map fun r' r hr => ?_
        obtain ⟨vs, stop⟩ := r'
        subst hr
        rfl
      · rw [if_neg hmore, if_neg (mt goesOn_drop_iff.1 hmore)]
        exact .some rfl
termination_by (fuel, 2 * (sizeOf item + sizeOf sep) + 1, (toks.drop d).length + 1 - q)

end

/-! ## Parsing from a position and from the rest of the tokens -/

omit [Lexeme α] [DecidableEq α] in
/-- A parse of the tokens after the first `d`, with as many rules, gets no more fuel than a
    parse of them all. -/
theorem fuelFor_drop_le (hlen : rules'.length = rules.length) (toks : List α) (d : Nat) :
    rules'.fuelFor (toks.drop d) ≤ rules.fuelFor toks := by
  unfold Rules.fuelFor
  have hdrop : (toks.drop d).length + 1 ≤ toks.length + 1 := by
    rw [List.length_drop]
    omega
  have := Nat.mul_le_mul_left rules.length hdrop
  rw [hlen]
  omega

/-- A parse of `g` from position `d` is the parse of `m g` over the tokens after the first
    `d`, moved by `d`: the same outcome with its positions `d` further on, and the scanner
    `d` further on. -/
theorem parse_move {g : Grammar α} (hd : d ≤ toks.length)
    (hm : Everywhere rules (MovesAt rules rules' d m) g) (hlen : rules'.length = rules.length) :
    (g.parse rules (Scanner.startingAt toks d)).map (fun r => (r.1, r.2.position)) =
      ((m g).parse rules' (Scanner.new (toks.drop d))).map
        fun r => (r.1.shift d, d + r.2.position) := by
  unfold parse
  simp only [Scanner.tokens_new, Scanner.position_new, Scanner.tokens_startingAt,
    Scanner.position_startingAt, Nat.min_eq_left hd]
  -- the parse of the rest runs as with the fuel of the whole list
  rw [run_fuelFor_eq (Nat.zero_le _) (fuelFor_drop_le hlen toks d)]
  have hrel : Option.Rel (Outcome.Shifted d)
      ((m g).run rules' (toks.drop d) (rules.fuelFor toks) 0)
      (g.run rules toks (rules.fuelFor toks) d) :=
    run_move hd hm
  generalize (m g).run rules' (toks.drop d) (rules.fuelFor toks) 0 = x at hrel ⊢
  generalize g.run rules toks (rules.fuelFor toks) d = y at hrel ⊢
  cases hrel with
  | none => rfl
  | @some o' o ho =>
    have hres := ho.resume 0
    rw [Nat.add_zero] at hres
    rw [Option.map_some, Option.map_some, Option.map_some, Option.map_some, ← ho.eq_shift]
    simp only [Scanner.position_restore, Scanner.tokens_new, Scanner.tokens_startingAt,
      List.length_drop, hres, Option.some.injEq, Prod.mk.injEq, true_and]
    omega

/-- Without a `withSpan` within reach, a parse from position `d` is the parse of the tokens
    after the first `d`, moved by `d`. -/
theorem parse_shift_eq {g : Grammar α} (hd : d ≤ toks.length) (hsf : SpanFree rules g) :
    (g.parse rules (Scanner.startingAt toks d)).map (fun r => (r.1, r.2.position)) =
      (g.parse rules (Scanner.new (toks.drop d))).map fun r => (r.1.shift d, d + r.2.position) :=
  parse_move hd (hsf.movesAt_id d) rfl

/-- A parse from position `d` is the parse of the tokens after the first `d`, moved by `d`,
    by the grammar whose every range is moved `d` positions on. -/
theorem parse_moveSpans (g : Grammar α) (hd : d ≤ toks.length) :
    (g.parse rules (Scanner.startingAt toks d)).map (fun r => (r.1, r.2.position)) =
      ((g.moveSpans d).parse (rules.moveSpans d) (Scanner.new (toks.drop d))).map
        fun r => (r.1.shift d, d + r.2.position) :=
  parse_move hd (fun h _ => movesAt_moveSpans rules d h) (Rules.length_moveSpans d rules)

/-- Parsing depends only on the tokens from the start on, and its positions are relative to
    the start. For every grammar and position `p` within the tokens, the parse from `p` and
    the parse of the tokens after the first `p` give up together, or give outcomes `p`
    positions apart: a match `⟨p + c', c⟩` with the scanner left at `p + c' + c` against
    `⟨c', c⟩` and `c' + c`, a failure with the same reason at `p + e` against `e`. When no
    `withSpan` can be reached the values are equal. In general the parse from `p` is, in the
    same sense, the parse of the tokens after the first `p` in which every range that a
    `withSpan` records is moved `p` positions on before anything reads it: the values are
    equal, so every such range is moved by `p` and nothing else in the value changes. -/
theorem parse_from_offset_is_parse_of_suffix (rules : Rules α) (g : Grammar α) (toks : List α)
    (p : Nat) (hp : p ≤ toks.length) :
    (SpanFree rules g →
      (g.parse rules (Scanner.startingAt toks p)).map (fun r => (r.1, r.2.position)) =
        (g.parse rules (Scanner.new (toks.drop p))).map
          fun r => (r.1.shift p, p + r.2.position)) ∧
    (g.parse rules (Scanner.startingAt toks p)).map (fun r => (r.1, r.2.position)) =
      ((g.moveSpans p).parse (rules.moveSpans p) (Scanner.new (toks.drop p))).map
        fun r => (r.1.shift p, p + r.2.position) :=
  ⟨parse_shift_eq hp, parse_moveSpans g hp⟩

/-- Over `ab` from its second token: any token parses as it does over `b` alone, one
    position on; and paired with its range, as the grammar that records its range one
    position on parses `b` alone. -/
theorem parse_of_suffix_from_second_token :
    (Grammar.any.parse ([] : Rules Char) (Scanner.startingAt ['a', 'b'] 1)).map
        (fun r => (r.1, r.2.position)) =
      (Grammar.any.parse ([] : Rules Char) (Scanner.new (['a', 'b'].drop 1))).map
        (fun r => (r.1.shift 1, 1 + r.2.position)) ∧
    ((Grammar.withSpan .any).parse ([] : Rules Char) (Scanner.startingAt ['a', 'b'] 1)).map
        (fun r => (r.1, r.2.position)) =
      (((Grammar.withSpan .any).moveSpans 1).parse (Rules.moveSpans 1 ([] : Rules Char))
        (Scanner.new (['a', 'b'].drop 1))).map (fun r => (r.1.shift 1, 1 + r.2.position)) :=
  ⟨(parse_from_offset_is_parse_of_suffix [] .any ['a', 'b'] 1 (by decide)).1 fun h hr => by
      cases hr with
      | refl => trivial
      | part hk _ => simp [parts] at hk,
    (parse_from_offset_is_parse_of_suffix [] (.withSpan .any) ['a', 'b'] 1 (by decide)).2⟩

end Grammar

end TokenPeg
