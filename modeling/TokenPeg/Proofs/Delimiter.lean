import TokenPeg.Proofs.Unrolling
/-!
  TokenPeg.Proofs.Delimiter

  Taking tokens up to a delimiter: `many (seqRight (not d) any)`, the repetition of "`d` does
  not match here, then any token". Each turn looks ahead for the delimiter `d`, which
  consumes nothing whether `d` matches or not, and takes one token when `d` fails. So the
  repetition takes the tokens one by one, from where it starts up to the first position at
  which `d` matches, or up to the end when `d` matches nowhere, and it never takes the
  delimiter, whatever `d` would consume where it matches.

  The turn is read off once for each way the lookahead ends (`run_notThenAny_of_failed`,
  `run_notThenAny_of_matched`, `run_notThenAny_of_end`). The loop then goes by induction on
  the distance left to the stop, with the invariant that `d` failed at every position passed
  (`runIteration_notThenAny`).
-/

namespace TokenPeg

namespace Grammar

variable {α : Type} [Lexeme α] [DecidableEq α] {rules : Rules α} {toks : List α} {fuel : Nat}
  {d : Grammar α} {x : Nat}

/-! ## One turn: the lookahead, then a token -/

/-- Where `d` fails before a token, the turn takes that token. -/
theorem run_notThenAny_of_failed {f : Failure} {t : α}
    (hd : d.run rules toks fuel x = some (.failed f)) (ht : toks[x]? = some t) :
    (seqRight (.not d) .any).run rules toks fuel x = some (.matched (Lexeme.toValue t) ⟨x, 1⟩) := by
  rw [seqRight, run, run, run, hd]
  simp [run, single, ht, Value.item, Success.since]

/-- Where `d` matches, the turn fails where it stands, whatever `d` consumed. -/
theorem run_notThenAny_of_matched {v : Value} {s : Success}
    (hd : d.run rules toks fuel x = some (.matched v s)) :
    (seqRight (.not d) .any).run rules toks fuel x =
      some (.failed ⟨.rejected "negative lookahead failed: unexpected match", x⟩) := by
  rw [seqRight, run, run, run, hd]
  rfl

/-- At the end of the input the turn fails, even where `d` fails: no token is left. -/
theorem run_notThenAny_of_end {f : Failure} (hd : d.run rules toks fuel x = some (.failed f))
    (hx : toks.length ≤ x) :
    (seqRight (.not d) .any).run rules toks fuel x = some (.failed ⟨.endOfInput, x⟩) := by
  rw [seqRight, run, run, run, hd]
  simp [run, single, List.getElem?_eq_none hx]

/-- Where `d` matches before the end, or gives any answer at the end, the turn fails. -/
theorem exists_run_notThenAny_failed {q : Nat}
    (hstop : (q < toks.length ∧ ∃ v s, d.run rules toks fuel q = some (.matched v s)) ∨
      (q = toks.length ∧ d.run rules toks fuel q ≠ none)) :
    ∃ f, (seqRight (.not d) .any).run rules toks fuel q = some (.failed f) := by
  rcases hstop with ⟨-, v, s, hd⟩ | ⟨hend, hd⟩
  · exact ⟨_, run_notThenAny_of_matched hd⟩
  · obtain ⟨o, hd⟩ := Option.ne_none_iff_exists'.1 hd
    cases o with
    | matched v s => exact ⟨_, run_notThenAny_of_matched hd⟩
    | failed f => exact ⟨_, run_notThenAny_of_end hd (Nat.le_of_eq hend.symm)⟩

/-! ## The loop -/

omit [DecidableEq α] in
/-- The values of the `n + 1` tokens from `x` are the value of the token at `x` before those
    of the `n` tokens after it. -/
theorem values_take_succ_drop {n : Nat} {t : α} (ht : toks[x]? = some t) :
    Lexeme.toValue t :: ((toks.drop (x + 1)).take n).map Lexeme.toValue =
      ((toks.drop x).take (n + 1)).map Lexeme.toValue := by
  obtain ⟨hx, rfl⟩ := List.getElem?_eq_some_iff.1 ht
  rw [List.drop_eq_getElem_cons hx, List.take_succ_cons, List.map_cons]

/-- From every position `x` up to a stop `q` within the tokens, where `d` fails at every
    position before `q` and the turn fails at `q`, the repetition takes the tokens from `x` to
    `q` and stops at `q`, on the failure of the turn there. -/
theorem runIteration_notThenAny {q : Nat} (hq : q ≤ toks.length)
    (hfails : ∀ y, x ≤ y → y < q → ∃ f, d.run rules toks fuel y = some (.failed f))
    (hstop : ∃ f, (seqRight (.not d) .any).run rules toks fuel q = some (.failed f))
    (hxq : x ≤ q) :
    ∃ f, runIteration rules toks fuel (seqRight (.not d) .any) none x =
      some ⟨((toks.drop x).take (q - x)).map Lexeme.toValue, q, some f⟩ := by
  have hb : (none : Option Nat) ≠ some 0 := (Option.some_ne_none 0).symm
  -- induction on the distance left to the stop
  induction hn : q - x generalizing x with
  | zero =>
    obtain rfl : x = q := by omega
    obtain ⟨f, hturn⟩ := hstop
    exact ⟨f, by rw [runIteration_of_failed hb hturn, List.take_zero, List.map_nil]⟩
  | succ n ih =>
    have hlt : x < q := by omega
    obtain ⟨f, hd⟩ := hfails x (Nat.le_refl x) hlt
    obtain ⟨t, ht⟩ : ∃ t, toks[x]? = some t :=
      ⟨_, List.getElem?_eq_getElem (Nat.lt_of_lt_of_le hlt hq)⟩
    have hturn := run_notThenAny_of_failed hd ht
    have hnext : x + 1 ≤ q := hlt
    obtain ⟨f', hrest⟩ := ih (fun y hy hyq => hfails y (by omega) hyq) hnext (by omega)
    have hnone : (none : Option Nat).map (· - 1) = none := rfl
    refine ⟨f', ?_⟩
    rw [runIteration_of_consumed (Nat.le_of_lt (Nat.lt_of_lt_of_le hlt hq)) hb hturn Nat.one_pos,
      hnone, Success.stop_mk, hrest, Option.map_some, values_take_succ_drop ht]

/-- Taking tokens up to a delimiter, from every scanner, for every delimiter `d`. Let `q` be
    the first position from the scanner's position `p` on at which `d` matches, or the end
    of the tokens when `d` matches at none of them, with `d` giving an answer wherever it is
    tried up to `q`. Then `many (seqRight (not d) any)` matches with the values of exactly the
    tokens from `p` up to `q`, in order, over the `q - p` tokens from `p`, and leaves the
    scanner at `q`: before the delimiter, whatever `d` consumes where it matches. -/
theorem repetition_takes_tokens_up_to_delimiter (rules : Rules α) (d : Grammar α)
    (sc : Scanner α) (q : Nat) (hpq : sc.position ≤ q)
    (hfails : ∀ x, sc.position ≤ x → x < q →
      ∃ f, d.run rules sc.tokens (rules.fuelFor sc.tokens) x = some (.failed f))
    (hstop : (q < sc.tokens.length ∧
        ∃ v s, d.run rules sc.tokens (rules.fuelFor sc.tokens) q = some (.matched v s)) ∨
      (q = sc.tokens.length ∧ d.run rules sc.tokens (rules.fuelFor sc.tokens) q ≠ none)) :
    (many (seqRight (.not d) .any)).parse rules sc =
      some (.matched (.arr (((sc.tokens.drop sc.position).take (q - sc.position)).map
          Lexeme.toValue)) ⟨sc.position, q - sc.position⟩, sc.restore ⟨q⟩) ∧
    (sc.restore ⟨q⟩).position = q := by
  have hq : q ≤ sc.tokens.length := by
    rcases hstop with ⟨hlt, -⟩ | ⟨heq, -⟩ <;> omega
  obtain ⟨f, hloop⟩ := runIteration_notThenAny hq hfails (exists_run_notThenAny_failed hstop) hpq
  refine ⟨?_, Nat.min_eq_left hq⟩
  rw [parse_eq_some_iff, many, run, hloop, Option.map_some, Iteration.settle,
    if_neg (Nat.not_lt_zero _)]
  refine ⟨rfl, ?_⟩
  rw [Outcome.resume, Success.stop_mk, Nat.add_sub_cancel' hpq]

/-- In `ab,c`, taking tokens up to a comma takes `a` and `b` and stops before the comma. -/
theorem tokens_up_to_comma :
    (many (seqRight (.not (.token ',')) .any)).parse ([] : Rules Char)
        (Scanner.new ['a', 'b', ',', 'c']) =
      some (.matched (.arr [Lexeme.toValue 'a', Lexeme.toValue 'b']) ⟨0, 2⟩,
        (Scanner.new ['a', 'b', ',', 'c']).restore ⟨2⟩) ∧
    ((Scanner.new ['a', 'b', ',', 'c']).restore ⟨2⟩).position = 2 :=
  repetition_takes_tokens_up_to_delimiter [] (.token ',') (Scanner.new ['a', 'b', ',', 'c']) 2
    (Nat.zero_le 2)
    (fun x _ hx => by
      rcases x with _ | _ | x
      · exact ⟨⟨.expected (Lexeme.literal ',') (Lexeme.literal 'a'), 0⟩,
          by simp [run, single, expectToken]⟩
      · exact ⟨⟨.expected (Lexeme.literal ',') (Lexeme.literal 'b'), 1⟩,
          by simp [run, single, expectToken]⟩
      · exact absurd hx (by omega))
    (.inl ⟨by decide, Lexeme.toValue ',', ⟨2, 1⟩, by simp [run, single, expectToken]⟩)

end Grammar

end TokenPeg
