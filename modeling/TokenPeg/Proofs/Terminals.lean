import TokenPeg.Parse
/-!
  TokenPeg.Proofs.Terminals

  The single-token terminals: any token, a given token, one of a set, none of a set, and a
  token that passes a test. All five run the one step `single`, and so answer alike: at the
  end of the input they fail for the end of the input, before any test sees a token; a
  token their test takes is matched, one token long, and the scanner moves over it exactly
  as advancing it would; a token their test refuses fails where it stands, with the
  terminal's own reason showing the token by its literal, and the scanner stays.

  A set is used for its members only, so two lists with the same members give the same
  terminal whatever their order and repetitions; `prohibits` is the test by which `noneOf`
  refuses; and at every token exactly one of `oneOf` and `noneOf` over one set matches.
-/

namespace TokenPeg

/-- The single-token terminals over tokens of type `α`. -/
inductive Terminal (α : Type) where
  | any
  | token (e : α)
  | oneOf (set : List α)
  | noneOf (set : List α)
  | satisfy (test : α → Bool) (desc : String)

namespace Terminal

variable {α : Type}

/-- The terminal as a grammar. -/
def grammar : Terminal α → Grammar α
  | .any => .any
  | .token e => .token e
  | .oneOf set => .oneOf set
  | .noneOf set => .noneOf set
  | .satisfy test desc => .satisfy test desc

/-- Which tokens a terminal takes. -/
def accepts [DecidableEq α] : Terminal α → α → Bool
  | .any, _ => true
  | .token e, t => decide (t = e)
  | .oneOf set, t => decide (t ∈ set)
  | .noneOf set, t => decide (t ∉ set)
  | .satisfy test _, t => test t

/-- Why a terminal refuses a token: a given token or a test says what it expected and
    shows the token found, a set shows the token as an invalid value. `any` refuses none. -/
def refusal [Lexeme α] : Terminal α → α → Reason
  | .token e, t => .expected (Lexeme.literal e) (Lexeme.literal t)
  | .satisfy _ desc, t => .expected desc (Lexeme.literal t)
  | _, t => .invalidValue (Lexeme.literal t)

end Terminal

/-! ## The one step of every terminal -/

namespace Grammar

variable {α : Type} [Lexeme α] {toks : List α} {pos : Nat} {check : α → Option Reason}

theorem single_of_end (h : toks.length ≤ pos) :
    single toks pos check = .failed ⟨.endOfInput, pos⟩ := by
  rw [single, List.getElem?_eq_none h]

theorem single_of_pass {t : α} (ht : toks[pos]? = some t) (hc : check t = none) :
    single toks pos check = .matched (Lexeme.toValue t) ⟨pos, 1⟩ := by
  rw [single, ht]
  dsimp only
  rw [hc]

theorem single_of_refuse {t : α} {r : Reason} (ht : toks[pos]? = some t) (hc : check t = some r) :
    single toks pos check = .failed ⟨r, pos⟩ := by
  rw [single, ht]
  dsimp only
  rw [hc]

end Grammar

namespace Scanner

variable {α : Type}

/-- Advancing a scanner that stands before a token puts it one position further on, where
    restoring that position puts it too. -/
theorem advance_eq_restore_succ {sc : Scanner α} (h : sc.position < sc.tokens.length) :
    sc.advance = .ok (sc.restore ⟨sc.position + 1⟩) := by
  rw [advance_eq_ok_iff]
  refine ⟨?_, rfl, ?_⟩
  · simp only [atEnd, decide_eq_false_iff_not, Nat.not_le]
    exact h
  · rw [position_restore]
    exact Nat.min_eq_left h

end Scanner

namespace Terminal

variable {α : Type} [Lexeme α] [DecidableEq α]

section

variable {rules : Rules α} {toks : List α} {fuel pos : Nat}

/-- A terminal runs `single` with the check that lets through the tokens it takes and
    refuses the others with its reason. -/
theorem run_grammar (term : Terminal α) :
    term.grammar.run rules toks fuel pos =
      some (Grammar.single toks pos fun t => if term.accepts t then none else some (term.refusal t)) := by
  cases term with
  | any => simp [grammar, Grammar.run, accepts]
  | token e =>
    rw [grammar, Grammar.run]
    congr
    funext t
    by_cases h : t = e <;> simp [Grammar.expectToken, accepts, refusal, h]
  | oneOf set =>
    rw [grammar, Grammar.run]
    congr
    funext t
    by_cases h : t ∈ set <;> simp [Grammar.expectMember, accepts, refusal, h]
  | noneOf set =>
    rw [grammar, Grammar.run]
    congr
    funext t
    by_cases h : t ∈ set <;> simp [Grammar.expectNonMember, Grammar.prohibits, accepts, refusal, h]
  | satisfy test desc =>
    rw [grammar, Grammar.run]
    rfl

/-- Terminals that take the same tokens and refuse them alike run alike. -/
theorem run_congr {term term' : Terminal α} (ha : term.accepts = term'.accepts)
    (hr : term.refusal = term'.refusal) :
    term.grammar.run rules toks fuel pos = term'.grammar.run rules toks fuel pos := by
  rw [run_grammar, run_grammar, ha, hr]

theorem parse_congr {term term' : Terminal α} (ha : term.accepts = term'.accepts)
    (hr : term.refusal = term'.refusal) (sc : Scanner α) :
    term.grammar.parse rules sc = term'.grammar.parse rules sc := by
  unfold Grammar.parse
  rw [run_congr ha hr]

end

/-! ## Each terminal from a scanner -/

variable (term : Terminal α) (rules : Rules α) {sc : Scanner α} {t : α}

/-- A token the terminal takes is matched, one token long, and the scanner advances over it. -/
theorem parse_of_accepts (ht : sc.tokens[sc.position]? = some t) (ha : term.accepts t = true) :
    term.grammar.parse rules sc =
      some (.matched (Lexeme.toValue t) ⟨sc.position, 1⟩, sc.restore ⟨sc.position + 1⟩) := by
  have hc : (if term.accepts t then none else some (term.refusal t)) = none := by rw [ha]; rfl
  rw [Grammar.parse_eq_some_iff, run_grammar, Grammar.single_of_pass ht hc]
  exact ⟨rfl, rfl⟩

/-- At the end of the input a terminal fails for the end of the input, and the scanner stays. -/
theorem parse_of_end (h : sc.position = sc.tokens.length) :
    term.grammar.parse rules sc = some (.failed ⟨.endOfInput, sc.position⟩, sc) := by
  rw [Grammar.parse_eq_some_iff, run_grammar, Grammar.single_of_end (Nat.le_of_eq h.symm)]
  exact ⟨rfl, (Scanner.restore_position sc).symm⟩

/-- A token the terminal refuses fails where it stands, with the terminal's reason, and the
    scanner stays. -/
theorem parse_of_refuses (ht : sc.tokens[sc.position]? = some t) (ha : term.accepts t = false) :
    term.grammar.parse rules sc = some (.failed ⟨term.refusal t, sc.position⟩, sc) := by
  have hc : (if term.accepts t then none else some (term.refusal t)) = some (term.refusal t) := by
    rw [ha]; rfl
  rw [Grammar.parse_eq_some_iff, run_grammar, Grammar.single_of_refuse ht hc]
  exact ⟨rfl, (Scanner.restore_position sc).symm⟩

/-- A terminal matches exactly where a token stands that it takes. -/
theorem parse_matched_iff :
    (∃ v s sc', term.grammar.parse rules sc = some (.matched v s, sc')) ↔
      ∃ t, sc.tokens[sc.position]? = some t ∧ term.accepts t = true := by
  constructor
  · rintro ⟨v, s, sc', h⟩
    cases ht : sc.tokens[sc.position]? with
    | none =>
      -- no token is left, and the terminal fails for the end of the input
      have hend : sc.position = sc.tokens.length :=
        Nat.le_antisymm sc.position_le (List.getElem?_eq_none_iff.1 ht)
      rw [parse_of_end term rules hend] at h
      cases h
    | some t =>
      cases ha : term.accepts t with
      | false =>
        rw [parse_of_refuses term rules ht ha] at h
        cases h
      | true => exact ⟨t, rfl, ha⟩
  · rintro ⟨t, ht, ha⟩
    exact ⟨_, _, _, parse_of_accepts term rules ht ha⟩

/-! ## Sets -/

omit [Lexeme α] in
/-- A set is taken for its members: lists with the same members accept alike. -/
theorem accepts_oneOf_congr {set set' : List α} (h : ∀ t, t ∈ set ↔ t ∈ set') :
    (oneOf set).accepts = (oneOf set').accepts := by
  funext t
  simp only [accepts, h]

omit [Lexeme α] in
theorem accepts_noneOf_congr {set set' : List α} (h : ∀ t, t ∈ set ↔ t ∈ set') :
    (noneOf set).accepts = (noneOf set').accepts := by
  funext t
  simp only [accepts, h]

omit [Lexeme α] in
/-- `prohibits` is the test by which `noneOf` refuses. -/
theorem prohibits_iff_not_accepts (set : List α) (t : α) :
    Grammar.prohibits set t = true ↔ (noneOf set).accepts t = false := by
  simp [Grammar.prohibits, accepts]

omit [Lexeme α] in
/-- Of `oneOf` and `noneOf` over one set, each takes exactly the tokens the other refuses. -/
theorem accepts_oneOf_eq_not (set : List α) (t : α) :
    (oneOf set).accepts t = !(noneOf set).accepts t := by
  by_cases h : t ∈ set <;> simp [accepts, h]

/-- The five single-token terminals, from every scanner over every list of tokens. A terminal
    matches exactly when a token stands at the scanner's position `p` and the terminal takes
    it, and then with that token's value, from `p` and one token long, the scanner advancing
    over it to `p + 1`. At the end of the input it fails for the end of the input at `p`;
    before a token it refuses it fails at `p` with its own reason, which shows the token by
    its literal; either way the scanner stays at `p`. A set counts for its members only,
    whatever their order and repetitions; `prohibits` holds of the token at `p` exactly when
    `noneOf` fails there; and before a token exactly one of `oneOf` and `noneOf` over one set
    matches. -/
theorem terminals_take_one_token_or_fail_in_place (rules : Rules α) :
    (∀ (term : Terminal α) (sc : Scanner α),
      ((∃ v s sc', term.grammar.parse rules sc = some (.matched v s, sc')) ↔
        ∃ t, sc.tokens[sc.position]? = some t ∧ term.accepts t = true) ∧
      (∀ t, sc.tokens[sc.position]? = some t → term.accepts t = true →
        ∃ sc', sc.advance = .ok sc' ∧ sc'.position = sc.position + 1 ∧
          term.grammar.parse rules sc = some (.matched (Lexeme.toValue t) ⟨sc.position, 1⟩, sc')) ∧
      (sc.position = sc.tokens.length →
        term.grammar.parse rules sc = some (.failed ⟨.endOfInput, sc.position⟩, sc)) ∧
      (∀ t, sc.tokens[sc.position]? = some t → term.accepts t = false →
        term.grammar.parse rules sc = some (.failed ⟨term.refusal t, sc.position⟩, sc))) ∧
    (∀ set set' : List α, (∀ t, t ∈ set ↔ t ∈ set') → ∀ sc : Scanner α,
      (Grammar.oneOf set).parse rules sc = (Grammar.oneOf set').parse rules sc ∧
      (Grammar.noneOf set).parse rules sc = (Grammar.noneOf set').parse rules sc) ∧
    (∀ (set : List α) (sc : Scanner α) t, sc.tokens[sc.position]? = some t →
      (Grammar.prohibits set t = true ↔
        ∃ f, (Grammar.noneOf set).parse rules sc = some (.failed f, sc))) ∧
    (∀ (set : List α) (sc : Scanner α), sc.position < sc.tokens.length →
      ((∃ v s sc', (Grammar.oneOf set).parse rules sc = some (.matched v s, sc')) ↔
        ¬ ∃ v s sc', (Grammar.noneOf set).parse rules sc = some (.matched v s, sc'))) := by
  refine ⟨fun term sc => ⟨parse_matched_iff term rules, fun t ht ha => ?_,
    parse_of_end term rules, fun t ht ha => parse_of_refuses term rules ht ha⟩,
    fun set set' h sc => ⟨?_, ?_⟩, fun set sc t ht => ?_, fun set sc hlt => ?_⟩
  · -- the match moves the scanner as advancing it does
    have hlt := (List.getElem?_eq_some_iff.1 ht).1
    exact ⟨_, Scanner.advance_eq_restore_succ hlt, Nat.min_eq_left hlt,
      parse_of_accepts term rules ht ha⟩
  · exact parse_congr (accepts_oneOf_congr h) rfl sc
  · exact parse_congr (accepts_noneOf_congr h) rfl sc
  · rw [prohibits_iff_not_accepts]
    constructor
    · intro ha
      exact ⟨_, parse_of_refuses (noneOf set) rules ht ha⟩
    · rintro ⟨f, hf⟩
      -- a terminal that takes the token would have matched it
      cases ha : (noneOf set).accepts t with
      | false => rfl
      | true =>
        rw [show Grammar.noneOf set = (noneOf set).grammar from rfl,
          parse_of_accepts (noneOf set) rules ht ha] at hf
        cases hf
  · obtain ⟨t, ht⟩ : ∃ t, sc.tokens[sc.position]? = some t :=
      ⟨_, List.getElem?_eq_getElem hlt⟩
    rw [show Grammar.oneOf set = (oneOf set).grammar from rfl,
      show Grammar.noneOf set = (noneOf set).grammar from rfl,
      parse_matched_iff, parse_matched_iff]
    simp [ht, accepts_oneOf_eq_not]

end Terminal

end TokenPeg
