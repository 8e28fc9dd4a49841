import TokenPeg.Proofs.Relocation
import TokenPeg.Proofs.Sequencing
/-
  TokenPeg.Proofs.Completion

  Three ways to ask that a match reach the end of the input. Parsing the whole token list
  runs the grammar from the start and then looks at the scanner behind the match; the
  `complete` form looks at where its grammar's match stopped; and the grammar followed by
  `endOfInput`, keeping the grammar's value, tests for the end where the match stopped.

  The first two give the same answer on every token list, and it depends on the grammar's
  one outcome from the start alone (`Outcome.whole`): the grammar's match when it covers
  the tokens, a failure for the tokens left over, at the position where a shorter match
  stopped, and the grammar's own failure when it fails. The last two agree from every
  scanner but for the reason of the failure after a match that stopped short: trailing
  input against an expected end of input, detected at the same position (`EndsAlike`).
  Both rest on the cursor contract of `TokenPeg.Proofs.Contract`: a match from the start
  stops within the tokens, having consumed what lies before its stop.
-/

namespace TokenPeg

namespace Outcome

/-- What asking for the whole of `len` tokens makes of an attempt from their start: a match
    that consumed them all stands, a shorter one fails where it stopped with the count of
    tokens left over, and a failure stands. -/
def whole (len : Nat) : Outcome → Outcome
  | .matched v m =>
    if m.consumed = len then .matched v m
    else .failed ⟨.trailingInput (len - m.consumed), m.consumed⟩
  | .failed f => .failed f

/-- A match within `len` tokens covers them exactly when it reaches their end. -/
theorem whole_matched_of_le {len : Nat} {v : Value} {m : Success} (hle : m.consumed ≤ len) :
    whole len (.matched v m) =
      if len ≤ m.consumed then .matched v m
      else .failed ⟨.trailingInput (len - m.consumed), m.consumed⟩ := by
  by_cases hall : m.consumed = len
  · rw [whole, if_pos hall, if_pos (Nat.le_of_eq hall.symm)]
  · rw [whole, if_neg hall, if_neg (by omega)]

/-- The outcome of a grammar made complete against that of the grammar followed by the end
    of the input: the same outcome, or, after a match that stopped short, a failure for
    trailing input against one for an expected end of input, at the same position. -/
inductive EndsAlike : Outcome → Outcome → Prop where
  | same (o : Outcome) : EndsAlike o o
  | short {remaining : Nat} {found : String} {pos : Nat} :
      EndsAlike (.failed ⟨.trailingInput remaining, pos⟩)
        (.failed ⟨.expected "end of input" found, pos⟩)

/-- Outcomes alike but for the reason of a failure leave the input at the same place. -/
theorem EndsAlike.resume_eq {o o' : Outcome} (h : EndsAlike o o') (start : Nat) :
    o.resume start = o'.resume start := by
  cases h <;> rfl

end Outcome

namespace Grammar

variable {α : Type} [Lexeme α] [DecidableEq α] {rules : Rules α}

/-! ## Parsing the whole token list -/

/-- Parsing from the start of a token list is the run from position `0`. -/
theorem parseTokens_eq_run (g : Grammar α) (ts : List α) :
    g.parseTokens rules ts = g.run rules ts (rules.fuelFor ts) 0 := by
  unfold parseTokens parse
  rw [Scanner.tokens_new, Scanner.position_new]
  cases g.run rules ts (rules.fuelFor ts) 0 <;> rfl

/-- A match from the start of the tokens stops where it consumed up to, within the tokens. -/
theorem stop_of_run_from_start {fuel : Nat} {g : Grammar α} {ts : List α} {v : Value}
    {m : Success} (h : g.run rules ts fuel 0 = some (.matched v m)) :
    m.stop = m.consumed ∧ m.consumed ≤ ts.length := by
  obtain ⟨hstart, hstop⟩ := run_respects (Nat.zero_le _) h
  rw [Success.stop, hstart, Nat.zero_add] at hstop ⊢
  exact ⟨rfl, hstop⟩

/-- Parsing the whole token list makes a whole of the grammar's one outcome from the start:
    no other way for the grammar to match is tried. -/
theorem parseComplete_eq_map_whole (g : Grammar α) (ts : List α) :
    g.parseComplete rules ts = (g.parseTokens rules ts).map (Outcome.whole ts.length) := by
  rw [parseTokens_eq_run]
  unfold parseComplete parse
  rw [Scanner.tokens_new, Scanner.position_new]
  cases hr : g.run rules ts (rules.fuelFor ts) 0 with
  | none => rfl
  | some o =>
    cases o with
    | failed f => rfl
    | matched v m =>
      obtain ⟨hstop, hle⟩ := stop_of_run_from_start hr
      -- the scanner behind the match stands where the match stopped
      simp only [Scanner.tokens_new, Option.map_some, Outcome.resume, hstop, Scanner.atEnd,
        Scanner.length_remaining, Scanner.position_restore, Scanner.tokens_restore,
        Nat.min_eq_left hle, decide_eq_true_eq, Outcome.whole_matched_of_le hle]

/-- Parsing the whole token list is parsing from the start with the grammar made complete. -/
theorem parseComplete_eq_parseTokens_complete (g : Grammar α) (ts : List α) :
    g.parseComplete rules ts = (Grammar.complete g).parseTokens rules ts := by
  rw [parseComplete_eq_map_whole, parseTokens_eq_run, parseTokens_eq_run, run]
  cases hr : g.run rules ts (rules.fuelFor ts) 0 with
  | none => rfl
  | some o =>
    cases o with
    | failed f => rfl
    | matched v m =>
      obtain ⟨hstop, hle⟩ := stop_of_run_from_start hr
      simp only [Option.map_some, hstop, Outcome.whole_matched_of_le hle]

/-! ## Completeness against the end of the input -/

/-- The grammar made complete and the grammar followed by the end of the input run alike,
    but for the reason of the failure after a match that stopped short. -/
theorem run_complete_endsAlike_seqLeft {toks : List α} {fuel pos : Nat} (g : Grammar α)
    (hpos : pos ≤ toks.length) :
    Option.Rel Outcome.EndsAlike ((Grammar.complete g).run rules toks fuel pos)
      ((seqLeft g .endOfInput).run rules toks fuel pos) := by
  simp only [seqLeft, run]
  cases hr : g.run rules toks fuel pos with
  | none => exact .none
  | some o =>
    cases o with
    | failed f => exact .some (.same _)
    | matched v s =>
      obtain ⟨hstart, hstop⟩ := run_respects hpos hr
      have hle : pos ≤ s.stop := hstart ▸ s.start_le_stop
      cases ht : toks[s.stop]? with
      | none =>
        -- no token is left behind the match: both keep it
        have hend : toks.length ≤ s.stop := List.getElem?_eq_none_iff.1 ht
        simp only [Option.map_some, ht, Option.bind_some, hend, if_true, Success.stop_empty,
          Success.since_stop hstart, Value.item, List.getD_cons_zero]
        exact .some (.same _)
      | some t =>
        have hshort : ¬toks.length ≤ s.stop := Nat.not_le.2 (List.getElem?_eq_some_iff.1 ht).1
        simp only [Option.map_some, ht, Option.bind_some, hshort, if_false]
        exact .some .short

/-- The grammar made complete and the grammar followed by the end of the input parse alike
    from every scanner, but for the reason of the failure after a match that stopped short,
    and leave the scanner at the same place. -/
theorem parse_complete_endsAlike_seqLeft (g : Grammar α) (sc : Scanner α) :
    Option.Rel (fun a b => a.1.EndsAlike b.1 ∧ a.2 = b.2)
      ((Grammar.complete g).parse rules sc) ((seqLeft g .endOfInput).parse rules sc) :=
  (run_complete_endsAlike_seqLeft g sc.position_le).map fun _ _ h => ⟨h, by rw [h.resume_eq]⟩

/-- Parsing the whole token list and parsing with the grammar made complete give one answer,
    which depends on the grammar's one outcome from the start alone. It is a match exactly
    when the grammar matches from position `0` consuming every token, with the grammar's
    value and success; a match that consumed `c` tokens short of the end gives a failure for
    the tokens left over, `|ts| - c` of them, at position `c`; and a failure of the grammar
    is the answer. Moreover, from every scanner, the grammar made complete and the grammar
    followed by the end of the input match alike, with the same value and success, and fail
    at the same position, differing only in the reason of the failure after a match that
    stopped short: trailing input against an expected end of input. -/
theorem complete_parse_is_parse_of_complete (rules : Rules α) (g : Grammar α) (ts : List α) :
    g.parseComplete rules ts = (Grammar.complete g).parseTokens rules ts ∧
    g.parseComplete rules ts = (g.parseTokens rules ts).map (Outcome.whole ts.length) ∧
    (∀ v m, g.parseComplete rules ts = some (.matched v m) ↔
      g.parseTokens rules ts = some (.matched v m) ∧ m = ⟨0, ts.length⟩) ∧
    (∀ v m, g.parseTokens rules ts = some (.matched v m) → m.consumed < ts.length →
      g.parseComplete rules ts =
        some (.failed ⟨.trailingInput (ts.length - m.consumed), m.consumed⟩)) ∧
    (∀ f, g.parseTokens rules ts = some (.failed f) → g.parseComplete rules ts = some (.failed f)) ∧
    ∀ sc : Scanner α, Option.Rel (fun a b => a.1.EndsAlike b.1 ∧ a.2 = b.2)
      ((Grammar.complete g).parse rules sc) ((seqLeft g .endOfInput).parse rules sc) := by
  have hwhole : g.parseComplete rules ts = _ := parseComplete_eq_map_whole g ts
  refine ⟨parseComplete_eq_parseTokens_complete g ts, hwhole, fun v m => ?_,
    fun v m hm hshort => ?_, fun f hf => ?_, parse_complete_endsAlike_seqLeft g⟩
  · rw [hwhole, parseTokens_eq_run]
    constructor
    · intro h
      obtain ⟨o, ho, hw⟩ := Option.map_eq_some_iff.1 h
      cases o with
      | failed f => cases hw
      | matched v' m' =>
        -- only a match from `0` that consumed every token stands
        have hstart := (run_respects (Nat.zero_le _) ho).1
        by_cases hall : m'.consumed = ts.length
        · rw [Outcome.whole, if_pos hall] at hw
          cases hw
          obtain ⟨start, consumed⟩ := m
          simp only at hstart hall
          subst hstart hall
          exact ⟨ho, rfl⟩
        · rw [Outcome.whole, if_neg hall] at hw
          cases hw
    · rintro ⟨ho, rfl⟩
      rw [ho, Option.map_some, Outcome.whole, if_pos rfl]
  · rw [hwhole, hm, Option.map_some, Outcome.whole, if_neg (Nat.ne_of_lt hshort)]
  · rw [hwhole, hf, Option.map_some, Outcome.whole]

/-- Two `a`s of `aab`, asked to cover the tokens: the one token left over fails the parse
    at position `2`. -/
theorem complete_parse_leaves_one_token :
    (Grammar.and (.token 'a') (.token 'a')).parseComplete ([] : Rules Char) ['a', 'a', 'b'] =
      some (.failed ⟨.trailingInput 1, 2⟩) :=
  (complete_parse_is_parse_of_complete [] (.and (.token 'a') (.token 'a')) ['a', 'a', 'b']).2.2.2.1
    (.arr [Lexeme.toValue 'a', Lexeme.toValue 'a']) ⟨0, 2⟩
    (by simp [parseTokens_eq_run, run, single, expectToken, Success.since, Success.stop])
    (by decide)

end Grammar

end TokenPeg
