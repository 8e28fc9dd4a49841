import TokenPeg.Session
/-!
  TokenPeg.Proofs.SessionBounds

  Sessions never move the cursor off the tokens. Every step keeps the scanner's token
  list, so every position a session reports lies within it; and on any scanner over the
  list the cursor operations obey their laws: the remaining tokens are the suffix at the
  cursor, the current token, the lookahead and the end test agree, advancing steps one
  token or fails at the end without moving, restoring clamps to the end, and lookahead at a
  distance finds exactly the token at that index.
-/

namespace TokenPeg

namespace Session

variable {α : Type}

@[simp] theorem scanner_save (s : Session α) (c : Checkpoint) :
    (s.save c).2.scanner = s.scanner := rfl

variable [Lexeme α] [DecidableEq α]

/-- A step keeps the scanner's tokens. -/
theorem tokens_of_step {rules : Rules α} {s s' : Session α} {st : Step α} {r : Reply α}
    (h : s.step rules st = .ok (r, s')) : s'.scanner.tokens = s.scanner.tokens := by
  cases st with
  | current | peek | peekNth | atEnd | position | length | isEmpty | remaining | source =>
    simp only [step] at h
    try split at h
    all_goals (cases h; rfl)
  | checkpoint =>
    simp only [step, save, Except.ok.injEq, Prod.mk.injEq] at h
    rw [← h.2]
  | advance =>
    simp only [step] at h
    split at h
    · rename_i sc hsc
      cases h
      exact ((Scanner.advance_eq_ok_iff _ _).1 hsc).2.1
    · cases h
      rfl
  | foreignCheckpoint tokens advances =>
    simp only [step] at h
    split at h
    · simp only [save, Except.ok.injEq, Prod.mk.injEq] at h
      rw [← h.2]
    · cases h
      rfl
  | restore index =>
    simp only [step] at h
    split at h
    · cases h
      rfl
    · cases h
  | parse g =>
    simp only [step] at h
    split at h
    · cases h
    · split at h
      · rename_i o sc hp
        cases h
        exact Grammar.tokens_of_parse hp
      · cases h

/-- Every position that a run of steps reports lies within the scanner's tokens. -/
theorem position_le_of_runSteps {rules : Rules α} :
    ∀ {s : Session α} {steps : List (Step α)} {replies : List (Reply α × Nat)},
      s.runSteps rules steps = .ok replies → ∀ r ∈ replies, r.2 ≤ s.scanner.tokens.length := by
  intro s steps
  induction steps generalizing s with
  | nil =>
    intro replies h r hr
    simp only [runSteps, Except.ok.injEq] at h
    subst h
    cases hr
  | cons st sts ih =>
    intro replies h r hr
    simp only [runSteps] at h
    cases hstep : s.step rules st with
    | error e => simp [hstep] at h
    | ok rs =>
      obtain ⟨reply, s'⟩ := rs
      have htokens := tokens_of_step hstep
      cases hrest : s'.runSteps rules sts with
      | error e => simp [hstep, hrest] at h
      | ok rest =>
        simp only [hstep, hrest, Except.ok.injEq] at h
        subst h
        rcases List.mem_cons.1 hr with hr | hr
        · subst hr
          rw [← htokens]
          exact s'.scanner.position_le
        · rw [← htokens]
          exact ih hrest r hr

/-- A session's scanner is over the tokens it was started with. -/
theorem position_le_of_run {rules : Rules α} {tokens : List α} {start : Option Nat}
    {steps : List (Step α)} {replies : List (Reply α × Nat)}
    (h : Session.run rules tokens start steps = .ok replies) :
    ∀ r ∈ replies, r.2 ≤ tokens.length := by
  unfold Session.run at h
  split at h
  · cases h
  · have hle := position_le_of_runSteps h
    cases start <;> exact hle

/-- Advancing at the end answers the scanner error and leaves the session as it was. -/
theorem step_advance_of_atEnd (rules : Rules α) (s : Session α) (hend : s.scanner.atEnd = true) :
    s.step rules .advance =
      .ok (.scanError (.outOfBounds s.scanner.tokens.length s.scanner.tokens.length), s) := by
  have herr := (Scanner.advance_eq_error_iff s.scanner
    (.outOfBounds s.scanner.tokens.length s.scanner.tokens.length)).2 ⟨hend, rfl⟩
  simp [step, herr]

end Session

namespace Scanner

variable {α : Type}

theorem peekNth_eq_none_iff (s : Scanner α) (n : Nat) :
    s.peekNth n = none ↔ s.tokens.length ≤ s.position + n := by
  simp [peekNth]

theorem current_eq_error_iff_atEnd (s : Scanner α) :
    s.current = .error (.outOfBounds s.position s.tokens.length) ↔ s.atEnd = true := by
  rw [current_eq_error_iff]
  constructor
  · exact fun h => h.1
  · intro h
    refine ⟨h, ?_⟩
    rw [(atEnd_iff s).1 h]

theorem exists_advance_of_not_atEnd (s : Scanner α) (h : s.atEnd = false) :
    ∃ s', s.advance = .ok s' ∧ s'.tokens = s.tokens ∧ s'.position = s.position + 1 := by
  have hlt : s.position < s.tokens.length := by
    have := s.position_le
    simp [atEnd] at h
    omega
  refine ⟨⟨s.tokens, s.position + 1, hlt⟩, ?_, rfl, rfl⟩
  simp [advance, hlt]

end Scanner

/-- Sessions keep the cursor within the tokens, and the cursor operations obey their laws
    on every scanner over those tokens. -/
theorem cursor_laws_of_run {α : Type} [Lexeme α] [DecidableEq α] (rules : Rules α)
    (tokens : List α) (start : Option Nat) (steps : List (Step α))
    (replies : List (Reply α × Nat)) (h : Session.run rules tokens start steps = .ok replies) :
    (∀ r ∈ replies, r.2 ≤ tokens.length) ∧
    ∀ s : Scanner α, s.tokens = tokens →
      s.position ≤ tokens.length ∧
      s.remaining = tokens.drop s.position ∧
      s.remaining.length = tokens.length - s.position ∧
      (s.current = .error (.outOfBounds s.position tokens.length) ↔ s.atEnd = true) ∧
      (s.atEnd = true ↔ s.peek = none) ∧
      (s.advance = .error (.outOfBounds tokens.length tokens.length) ↔ s.atEnd = true) ∧
      (∀ ses : Session α, ses.scanner = s → s.atEnd = true →
        ses.step rules .advance = .ok (.scanError (.outOfBounds tokens.length tokens.length), ses)) ∧
      (s.atEnd = false →
        ∃ s', s.advance = .ok s' ∧ s'.tokens = tokens ∧ s'.position = s.position + 1) ∧
      (∀ c : Checkpoint, (s.restore c).position = min c.position tokens.length) ∧
      (∀ n t, s.peekNth n = some t ↔
        ∃ hn : s.position + n < tokens.length, tokens[s.position + n] = t) ∧
      (∀ n, s.peekNth n = none ↔ tokens.length ≤ s.position + n) := by
  refine ⟨Session.position_le_of_run h, ?_⟩
  intro s hs
  subst hs
  refine ⟨s.position_le, rfl, Scanner.length_remaining s, Scanner.current_eq_error_iff_atEnd s,
    (Scanner.peek_eq_none_iff s).symm, ?_, ?_, ?_, fun c => Scanner.position_restore s c,
    Scanner.peekNth_eq_some_iff s, Scanner.peekNth_eq_none_iff s⟩
  · rw [Scanner.advance_eq_error_iff]
    simp
  · intro ses hses hend
    subst hses
    exact Session.step_advance_of_atEnd rules ses hend
  · intro hend
    exact Scanner.exists_advance_of_not_atEnd s hend

/-- Two tokens and a start past their end: the cursor is clamped to the end, cannot
    advance, saves and restores the end, and finds nothing ahead. -/
theorem cursor_laws_of_run_past_end :
    Session.run ([] : Rules Char) ['a', 'b'] (some 7)
        [.advance, .checkpoint, .restore 0, .peekNth 1, .current] =
      .ok [(.scanError (.outOfBounds 2 2), 2), (.saved 2 0, 2), (.done, 2),
        (.lookahead none, 2), (.scanError (.outOfBounds 2 2), 2)] ∧
    ((∀ r ∈ ([(.scanError (.outOfBounds 2 2), 2), (.saved 2 0, 2), (.done, 2),
        (.lookahead none, 2), (.scanError (.outOfBounds 2 2), 2)] : List (Reply Char × Nat)),
        r.2 ≤ ['a', 'b'].length) ∧
    ∀ s : Scanner Char, s.tokens = ['a', 'b'] →
      s.position ≤ ['a', 'b'].length ∧
      s.remaining = ['a', 'b'].drop s.position ∧
      s.remaining.length = ['a', 'b'].length - s.position ∧
      (s.current = .error (.outOfBounds s.position ['a', 'b'].length) ↔ s.atEnd = true) ∧
      (s.atEnd = true ↔ s.peek = none) ∧
      (s.advance = .error (.outOfBounds ['a', 'b'].length ['a', 'b'].length) ↔
        s.atEnd = true) ∧
      (∀ ses : Session Char, ses.scanner = s → s.atEnd = true →
        ses.step [] .advance =
          .ok (.scanError (.outOfBounds ['a', 'b'].length ['a', 'b'].length), ses)) ∧
      (s.atEnd = false →
        ∃ s', s.advance = .ok s' ∧ s'.tokens = ['a', 'b'] ∧ s'.position = s.position + 1) ∧
      (∀ c : Checkpoint, (s.restore c).position = min c.position ['a', 'b'].length) ∧
      (∀ n t, s.peekNth n = some t ↔
        ∃ hn : s.position + n < ['a', 'b'].length, ['a', 'b'][s.position + n] = t) ∧
      (∀ n, s.peekNth n = none ↔ ['a', 'b'].length ≤ s.position + n)) :=
  ⟨rfl, cursor_laws_of_run [] ['a', 'b'] (some 7)
    [.advance, .checkpoint, .restore 0, .peekNth 1, .current] _ rfl⟩

end TokenPeg
