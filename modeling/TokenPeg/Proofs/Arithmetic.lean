import TokenPeg.Arithmetic
import TokenPeg.Proofs.Spelling
import TokenPeg.Proofs.Completion
/-!
  TokenPeg.Proofs.Arithmetic

  The arithmetic grammar reads exactly the expressions of its language. Parsing a whole
  token list matches just when the tokens are those of an expression tree; the match then
  covers all of them, and its value is the tree's integer value, `*` binding tighter than
  `+`, whenever every running sum and product fits 64 bits.

  Both ways go through the judgement of `TokenPeg.Proofs.Judgement`, which adequacy ties to
  the run, by induction on a bound on the number of tokens: an atom in parentheses holds a
  shorter expression, and a term or an expression is a separated list of atoms or terms
  that are no longer (`TokenPeg.Proofs.Spelling`). Reading needs nothing more. Writing needs
  the tokens after each part not to go on with it: no `*` after a term, no `+` or `*` after
  an expression, which holds before a closing parenthesis and at the end of the input.
-/

namespace TokenPeg

namespace Transform

/-- A step of a checked fold that stays in range goes on from its result. -/
theorem foldChecked_cons (op : Int → Int → Int) (seed n : Int) (ns : List Int)
    (h : Value.fitsInt64 (op seed n) = true) :
    foldChecked op seed (n :: ns) = foldChecked op (op seed n) ns := by
  simp [foldChecked, checked, h]

/-- Integers in the 64-bit range are read back from their values. -/
theorem int64Items_map_int {ns : List Int} (h : ∀ n ∈ ns, Value.fitsInt64 n = true) :
    int64Items (ns.map Value.int) = some ns := by
  induction ns with
  | nil => rfl
  | cons n ns ih =>
    have hn := h n List.mem_cons_self
    have hns := ih fun m hm => h m (List.mem_cons_of_mem n hm)
    simp [int64Items, Value.int64?, hn, hns]

end Transform

namespace Arith

open Grammar

/-! ## Trees as separated lists -/

/-- The first term of an expression. -/
def Expr.first : Expr → Term
  | .term t | .plus t _ => t

/-- The terms of an expression after the first. -/
def Expr.others : Expr → List Term
  | .term _ => []
  | .plus _ e => e.first :: e.others

/-- The first atom of a term. -/
def Term.first : Term → Atom
  | .atom a | .times a _ => a

/-- The atoms of a term after the first. -/
def Term.others : Term → List Atom
  | .atom _ => []
  | .times _ t => t.first :: t.others

/-- The expression of a first term and the terms after it. -/
def Expr.ofTerms : Term → List Term → Expr
  | t, [] => .term t
  | t, t' :: ts => .plus t (ofTerms t' ts)

/-- The term of a first atom and the atoms after it. -/
def Term.ofAtoms : Atom → List Atom → Term
  | a, [] => .atom a
  | a, a' :: as => .times a (ofAtoms a' as)

theorem Expr.ofTerms_first_others : ∀ e : Expr, ofTerms e.first e.others = e
  | .term _ => rfl
  | .plus t e => by rw [first, others, ofTerms, ofTerms_first_others e]

theorem Term.ofAtoms_first_others : ∀ t : Term, ofAtoms t.first t.others = t
  | .atom _ => rfl
  | .times a t => by rw [first, others, ofAtoms, ofAtoms_first_others t]

/-- An expression is written as its terms separated by `+`. -/
theorem Expr.tokens_ofTerms (t : Term) (ts : List Term) :
    (ofTerms t ts).tokens = t.tokens ++ ts.flatMap fun t => .plus :: t.tokens := by
  induction ts generalizing t with
  | nil => simp [ofTerms, tokens]
  | cons t' ts ih => simp [ofTerms, tokens, ih]

/-- A term is written as its atoms separated by `*`. -/
theorem Term.tokens_ofAtoms (a : Atom) (as : List Atom) :
    (ofAtoms a as).tokens = a.tokens ++ as.flatMap fun a => .star :: a.tokens := by
  induction as generalizing a with
  | nil => simp [ofAtoms, tokens]
  | cons a' as ih => simp [ofAtoms, tokens, ih]

theorem Expr.tokens_eq_spelled (e : Expr) :
    e.tokens = e.first.tokens ++ e.others.flatMap fun t => .plus :: t.tokens := by
  rw [← tokens_ofTerms, ofTerms_first_others]

theorem Term.tokens_eq_spelled (t : Term) :
    t.tokens = t.first.tokens ++ t.others.flatMap fun a => .star :: a.tokens := by
  rw [← tokens_ofAtoms, ofAtoms_first_others]

/-! ## Values in 64 bits -/

/-- Each term of an expression whose running sums fit has its running products fitting. -/
theorem Expr.productFits_of_mem :
    ∀ (e : Expr) {acc : Int}, e.SumFits acc → ∀ t ∈ e.first :: e.others, t.ProductFits 1
  | .term t, _, ⟨_, ht⟩, t', hmem => by
    rw [first, others, List.mem_singleton] at hmem
    exact hmem ▸ ht
  | .plus t e, _, ⟨_, ht, he⟩, t', hmem => by
    rcases List.mem_cons.1 hmem with rfl | hmem
    · exact ht
    · exact productFits_of_mem e he t' hmem

/-- Each atom of a term whose running products fit fits. -/
theorem Term.atomFits_of_mem :
    ∀ (t : Term) {acc : Int}, t.ProductFits acc → ∀ a ∈ t.first :: t.others, a.Fits
  | .atom a, _, ⟨_, ha⟩, a', hmem => by
    rw [first, others, List.mem_singleton] at hmem
    exact hmem ▸ ha
  | .times a t, _, ⟨_, ha, ht⟩, a', hmem => by
    rcases List.mem_cons.1 hmem with rfl | hmem
    · exact ha
    · exact atomFits_of_mem t ht a' hmem

theorem Expr.fits_add_value :
    ∀ (e : Expr) (acc : Int), e.SumFits acc → Value.fitsInt64 (acc + e.value) = true
  | .term _, _, ⟨hfit, _⟩ => hfit
  | .plus t e, acc, ⟨_, _, he⟩ => by
    rw [value, ← Int.add_assoc]
    exact fits_add_value e _ he

theorem Term.fits_mul_value :
    ∀ (t : Term) (acc : Int), t.ProductFits acc → Value.fitsInt64 (acc * t.value) = true
  | .atom _, _, ⟨hfit, _⟩ => hfit
  | .times a t, acc, ⟨_, _, ht⟩ => by
    rw [value, ← Int.mul_assoc]
    exact fits_mul_value t _ ht

/-- A number fits because it is one; an expression in parentheses because its sums do. -/
theorem Atom.fits_value : ∀ a : Atom, a.Fits → Value.fitsInt64 a.value = true
  | .num n, _ => by
    have hlo := Int64.le_toInt n
    have hhi := Int64.toInt_lt n
    rw [value, Value.fitsInt64, decide_eq_true_iff, Value.int64Min, Value.int64Max]
    omega
  | .paren e, he => by
    rw [value, ← Int.zero_add e.value]
    exact Expr.fits_add_value e 0 he

/-- Where its running sums fit, the checked sum of an expression's terms from `acc` is `acc`
    plus its value. -/
theorem Expr.foldChecked_terms : ∀ (e : Expr) (acc : Int), e.SumFits acc →
    Transform.foldChecked (· + ·) acc ((e.first :: e.others).map Term.value) =
      some (acc + e.value)
  | .term t, acc, ⟨hfit, _⟩ => by
    rw [first, others, List.map_singleton, Transform.foldChecked_cons _ acc t.value [] hfit]
    rfl
  | .plus t e, acc, ⟨hfit, _, he⟩ => by
    rw [first, others, List.map_cons, Transform.foldChecked_cons _ acc t.value _ hfit,
      foldChecked_terms e _ he, value, Int.add_assoc]

/-- Where its running products fit, the checked product of a term's atoms from `acc` is
    `acc` times its value. -/
theorem Term.foldChecked_atoms : ∀ (t : Term) (acc : Int), t.ProductFits acc →
    Transform.foldChecked (· * ·) acc ((t.first :: t.others).map Atom.value) =
      some (acc * t.value)
  | .atom a, acc, ⟨hfit, _⟩ => by
    rw [first, others, List.map_singleton, Transform.foldChecked_cons _ acc a.value [] hfit]
    rfl
  | .times a t, acc, ⟨hfit, _, ht⟩ => by
    rw [first, others, List.map_cons, Transform.foldChecked_cons _ acc a.value _ hfit,
      foldChecked_atoms t _ ht, value, Int.mul_assoc]

/-- The sum transform over an expression's term values is its value, where all of it fits. -/
theorem Expr.sum_value {e : Expr} (h : e.Fits) :
    Transform.apply .sum (.arr ((e.first :: e.others).map fun t => .int t.value)) =
      .int e.value := by
  have hitems : ∀ n ∈ (e.first :: e.others).map Term.value, Value.fitsInt64 n = true := by
    intro n hn
    obtain ⟨t, ht, rfl⟩ := List.mem_map.1 hn
    rw [← Int.one_mul t.value]
    exact Term.fits_mul_value t 1 (productFits_of_mem e h t ht)
  have hmap : (e.first :: e.others).map (fun t => Value.int t.value) =
      ((e.first :: e.others).map Term.value).map Value.int := by
    rw [List.map_map]
    rfl
  rw [hmap, Transform.apply, Transform.int64Items_map_int hitems, Option.bind_some,
    foldChecked_terms e 0 h, Int.zero_add]
  rfl

/-- The product transform over a term's atom values is its value, where all of it fits. -/
theorem Term.product_value {t : Term} (h : t.ProductFits 1) :
    Transform.apply .product (.arr ((t.first :: t.others).map fun a => .int a.value)) =
      .int t.value := by
  have hitems : ∀ n ∈ (t.first :: t.others).map Atom.value, Value.fitsInt64 n = true := by
    intro n hn
    obtain ⟨a, ha, rfl⟩ := List.mem_map.1 hn
    exact Atom.fits_value a (atomFits_of_mem t h a ha)
  have hmap : (t.first :: t.others).map (fun a => Value.int a.value) =
      ((t.first :: t.others).map Atom.value).map Value.int := by
    rw [List.map_map]
    rfl
  rw [hmap, Transform.apply, Transform.int64Items_map_int hitems, Option.bind_some,
    foldChecked_atoms t 1 h, Int.one_mul]
  rfl

/-! ## Writing: the grammar matches the tokens of every tree -/

theorem lookup_expr : rules.lookup "expr" = some expr := by
  simp [rules]

variable {toks : List ArithToken}

/-- Wherever an atom's tokens stand, `atom` matches exactly them, with the atom's value
    where it fits, given that `expr` does so for the shorter expressions. -/
theorem atom_yields (a : Atom)
    (hexpr : ∀ e : Expr, e.tokens.length < a.tokens.length → ∀ q rest,
      toks.drop q = e.tokens ++ rest → rest.head? ≠ some .plus → rest.head? ≠ some .star →
      ∃ v, Yields rules toks expr q (some (v, e.tokens.length)) ∧ (e.Fits → v = .int e.value))
    {q : Nat} {rest : List ArithToken} (h : toks.drop q = a.tokens ++ rest) :
    ∃ v, Yields rules toks atom q (some (v, a.tokens.length)) ∧ (a.Fits → v = .int a.value) := by
  cases a with
  | num n =>
    have ht : toks[q]? = some (.num n) := by rw [getElem?_eq_head?, h]; rfl
    exact ⟨_, .choice (.head (.map (.take rfl ht rfl))), fun _ => rfl⟩
  | paren e =>
    have h' : toks.drop q = .lparen :: (e.tokens ++ .rparen :: rest) := by
      rw [h, Atom.tokens]
      simp
    have hl : toks[q]? = some .lparen := by rw [getElem?_eq_head?, h']; rfl
    have he := drop_succ_of_eq_cons h'
    -- the expression inside is followed by the closing parenthesis
    have hshorter : e.tokens.length < (Atom.paren e).tokens.length := by
      simp only [Atom.tokens, List.length_cons, List.length_append, List.length_nil]
      omega
    obtain ⟨v, hv, hvf⟩ := hexpr e hshorter (q + 1) _ he (by simp) (by simp)
    have hr : toks[q + (1 + e.tokens.length)]? = some .rparen := by
      rw [getElem?_eq_head?, ← Nat.add_assoc, drop_add_length he]
      rfl
    have hnum : Yields rules toks number q none :=
      .map (.refuse rfl fun t ht => by rw [hl, Option.some.injEq] at ht; rw [← ht]; rfl)
    have hpar : Yields rules toks parenthesized q (some (v, 1 + e.tokens.length + 1)) :=
      .map (.and (.map (.and (yields_token hl) (.rule lookup_expr hv))) (yields_token hr))
    have hlen : (Atom.paren e).tokens.length = 1 + e.tokens.length + 1 := by
      simp only [Atom.tokens, List.length_cons, List.length_append, List.length_nil]
      omega
    rw [hlen]
    exact ⟨v, .choice (.next hnum (.head hpar)), hvf⟩

/-- Wherever a term's tokens stand, followed by no `*`, `term` matches exactly them, with
    the term's value where it fits, given that `atom` does so for its atoms. -/
theorem term_yields (t : Term)
    (hatom : ∀ a : Atom, a.tokens.length ≤ t.tokens.length → ∀ q rest,
      toks.drop q = a.tokens ++ rest →
      ∃ v, Yields rules toks atom q (some (v, a.tokens.length)) ∧ (a.Fits → v = .int a.value))
    {q : Nat} {rest : List ArithToken} (h : toks.drop q = t.tokens ++ rest)
    (hstar : rest.head? ≠ some .star) :
    ∃ v, Yields rules toks term q (some (v, t.tokens.length)) ∧
      (t.ProductFits 1 → v = .int t.value) := by
  have hitem : ∀ a ∈ t.first :: t.others, ∀ q rest, toks.drop q = a.tokens ++ rest → True →
      ∃ v, Yields rules toks atom q (some (v, a.tokens.length)) ∧ (a.Fits → v = .int a.value) :=
    fun a ha q rest h _ =>
      hatom a (by rw [Term.tokens_eq_spelled t]; exact length_le_of_mem_spelled ha) q rest h
  rw [Term.tokens_eq_spelled] at h ⊢
  obtain ⟨vs, hvs, hvals⟩ := sepBy_yields_of_spelled Atom.Fits (fun a => .int a.value)
    (fun _ => True) (fun _ => trivial) trivial hstar t.first t.others hitem h
  refine ⟨_, .map hvs, fun hfits => ?_⟩
  rw [hvals fun a ha => Term.atomFits_of_mem t hfits a ha]
  exact Term.product_value hfits

/-- Wherever an expression's tokens stand, followed by neither `+` nor `*`, `expr` matches
    exactly them, with the expression's value where it fits, given that `term` does so for
    its terms. -/
theorem expr_yields (e : Expr)
    (hterm : ∀ t : Term, t.tokens.length ≤ e.tokens.length → ∀ q rest,
      toks.drop q = t.tokens ++ rest → rest.head? ≠ some .star →
      ∃ v, Yields rules toks term q (some (v, t.tokens.length)) ∧
        (t.ProductFits 1 → v = .int t.value))
    {q : Nat} {rest : List ArithToken} (h : toks.drop q = e.tokens ++ rest)
    (hplus : rest.head? ≠ some .plus) (hstar : rest.head? ≠ some .star) :
    ∃ v, Yields rules toks expr q (some (v, e.tokens.length)) ∧ (e.Fits → v = .int e.value) := by
  have hitem : ∀ t ∈ e.first :: e.others, ∀ q rest, toks.drop q = t.tokens ++ rest →
      rest.head? ≠ some .star →
      ∃ v, Yields rules toks term q (some (v, t.tokens.length)) ∧
        (t.ProductFits 1 → v = .int t.value) :=
    fun t ht => hterm t (by rw [Expr.tokens_eq_spelled e]; exact length_le_of_mem_spelled ht)
  rw [Expr.tokens_eq_spelled] at h ⊢
  -- a term is followed by a `+` and the next term, or by what follows the expression
  obtain ⟨vs, hvs, hvals⟩ := sepBy_yields_of_spelled (fun t => t.ProductFits 1)
    (fun t => .int t.value) (fun rest => rest.head? ≠ some .star) (fun _ => by simp) hstar hplus
    e.first e.others hitem h
  refine ⟨_, .label (.map hvs), fun hfits => ?_⟩
  rw [hvals fun t ht => Expr.productFits_of_mem e hfits t ht]
  exact Expr.sum_value hfits

/-- Writing expressions, by induction on a bound on their length: wherever an expression's
    tokens stand, followed by neither `+` nor `*`, `expr` matches exactly them, with the
    expression's value where all of it fits. -/
theorem expr_yields_of_tokens (n : Nat) : ∀ e : Expr, e.tokens.length < n → ∀ q rest,
    toks.drop q = e.tokens ++ rest → rest.head? ≠ some .plus → rest.head? ≠ some .star →
    ∃ v, Yields rules toks expr q (some (v, e.tokens.length)) ∧ (e.Fits → v = .int e.value) := by
  induction n with
  | zero => exact fun e he => absurd he (Nat.not_lt_zero _)
  | succ n ih =>
    intro e he q rest h hplus hstar
    -- the expressions inside the atoms of `e` are shorter than `e`
    exact expr_yields e (fun t ht q' rest' h' hs => term_yields t (fun a ha q'' rest'' h'' =>
      atom_yields a (fun e' he' => ih e' (by omega)) h'') h' hs) h hplus hstar

/-! ## Reading: the grammar matches only the tokens of trees -/

/-- What `atom` matches are an atom's tokens, given that what `expr` matches in fewer
    tokens are an expression's. -/
theorem atom_spelled {q c : Nat} {v : Value}
    (hexpr : ∀ q' v' k, k < c → Yields rules toks expr q' (some (v', k)) →
      ∃ e : Expr, toks.drop q' = e.tokens ++ toks.drop (q' + k))
    (h : Yields rules toks atom q (some (v, c))) :
    ∃ a : Atom, toks.drop q = a.tokens ++ toks.drop (q + c) := by
  rcases YieldsFirst.of_cons (Yields.of_choice h) with hnum | ⟨-, hrest⟩
  · -- a number token
    obtain ⟨w, hw, -⟩ := Yields.of_map hnum
    obtain ⟨t, ht, hpass, -, rfl⟩ := Yields.of_satisfy hw
    cases t with
    | num n => exact ⟨.num n, drop_eq_cons ht⟩
    | _ => cases hpass
  · rcases YieldsFirst.of_cons hrest with hpar | ⟨-, hnil⟩
    · -- an expression between parentheses
      obtain ⟨w, hw, -⟩ := Yields.of_map hpar
      obtain ⟨w₁, c₁, w₂, c₂, hinner, hr, -, rfl⟩ := Yields.of_and hw
      obtain ⟨w₃, hw₃, -⟩ := Yields.of_map hinner
      obtain ⟨w₄, c₃, w₅, c₄, hl, hcall, -, rfl⟩ := Yields.of_and hw₃
      obtain ⟨hlt, -, rfl⟩ := Yields.of_token hl
      obtain ⟨hrt, -, rfl⟩ := Yields.of_token hr
      obtain ⟨body, hfound, hbody⟩ := Yields.of_rule hcall
      rw [lookup_expr, Option.some.injEq] at hfound
      subst hfound
      obtain ⟨e, he⟩ := hexpr _ _ _ (by omega) hbody
      refine ⟨.paren e, ?_⟩
      rw [← Nat.add_assoc] at hrt
      rw [show q + (1 + c₄ + 1) = q + 1 + c₄ + 1 by omega, drop_eq_cons hlt, he, drop_eq_cons hrt]
      simp [Atom.tokens]
    · exact (YieldsFirst.not_nil hnil).elim

/-- What `term` matches are a term's tokens, given that what `atom` matches in no more
    tokens are an atom's. -/
theorem term_spelled {q c : Nat} {v : Value}
    (hatom : ∀ q' v' k, k ≤ c → Yields rules toks atom q' (some (v', k)) →
      ∃ a : Atom, toks.drop q' = a.tokens ++ toks.drop (q' + k))
    (h : Yields rules toks term q (some (v, c))) :
    ∃ t : Term, toks.drop q = t.tokens ++ toks.drop (q + c) := by
  obtain ⟨w, hw, -⟩ := Yields.of_map h
  obtain ⟨a, as, has⟩ := spelled_of_sepBy hatom hw (Nat.le_refl c)
  exact ⟨Term.ofAtoms a as, by rw [Term.tokens_ofAtoms, has]⟩

/-- What `expr` matches are an expression's tokens, given that what `term` matches in no
    more tokens are a term's. -/
theorem expr_spelled {q c : Nat} {v : Value}
    (hterm : ∀ q' v' k, k ≤ c → Yields rules toks term q' (some (v', k)) →
      ∃ t : Term, toks.drop q' = t.tokens ++ toks.drop (q' + k))
    (h : Yields rules toks expr q (some (v, c))) :
    ∃ e : Expr, toks.drop q = e.tokens ++ toks.drop (q + c) := by
  obtain ⟨w, hw, -⟩ := Yields.of_map (Yields.of_label h)
  obtain ⟨t, ts, hts⟩ := spelled_of_sepBy hterm hw (Nat.le_refl c)
  exact ⟨Expr.ofTerms t ts, by rw [Expr.tokens_ofTerms, hts]⟩

/-- Reading expressions, by induction on a bound on the tokens matched: what `expr` matches
    from any position are an expression's tokens. -/
theorem expr_spelled_of_yields (n : Nat) : ∀ q v c, c < n →
    Yields rules toks expr q (some (v, c)) →
    ∃ e : Expr, toks.drop q = e.tokens ++ toks.drop (q + c) := by
  induction n with
  | zero => exact fun q v c hc => absurd hc (Nat.not_lt_zero _)
  | succ n ih =>
    intro q v c hc h
    -- atoms take no more tokens than the expression, the expressions inside them fewer
    exact expr_spelled (fun q' v' k hk ht => term_spelled (fun q'' v'' k' hk' ha =>
      atom_spelled (fun q''' v''' k'' hk'' he => ih q''' v''' k'' (by omega) he) ha) ht) h

/-! ## Parsing a whole token list -/

/-- The arithmetic grammar reads exactly the expressions of its language, on every token
    list: parsing the whole list matches just when the tokens are those of an expression
    tree, and for every such tree it matches over all the tokens with a value that is the
    tree's integer value, sums of products, wherever each running sum and product fits in
    64 bits. -/
theorem arithmetic_reads_exactly_its_expressions (ts : List ArithToken) :
    ((∃ v m, expr.parseComplete rules ts = some (.matched v m)) ↔ ∃ e : Expr, e.tokens = ts) ∧
    ∀ e : Expr, e.tokens = ts →
      ∃ v, expr.parseComplete rules ts = some (.matched v ⟨0, ts.length⟩) ∧
        (e.Fits → v = .int e.value) := by
  have hwrite : ∀ e : Expr, e.tokens = ts →
      ∃ v, expr.parseComplete rules ts = some (.matched v ⟨0, ts.length⟩) ∧
        (e.Fits → v = .int e.value) := by
    intro e he
    obtain ⟨v, hy, hv⟩ := expr_yields_of_tokens (e.tokens.length + 1) e (Nat.lt_succ_self _) 0 []
      (by rw [List.drop_zero, he, List.append_nil]) (by simp) (by simp)
    rw [he] at hy
    have hrun := run_eq_matched (Nat.zero_le _) (run_of_yields hy (Nat.zero_le _))
    refine ⟨v, ?_, hv⟩
    rw [parseComplete_eq_map_whole, parseTokens_eq_run, hrun, Option.map_some, Outcome.whole,
      if_pos rfl]
  refine ⟨⟨fun hparse => ?_, fun htree => ?_⟩, hwrite⟩
  · obtain ⟨v, m, h⟩ := hparse
    rw [parseComplete_eq_map_whole, parseTokens_eq_run] at h
    obtain ⟨o, hrun, hwhole⟩ := Option.map_eq_some_iff.1 h
    -- the run from the start matched over all the tokens
    obtain ⟨v', m', rfl, hall⟩ : ∃ v' m', o = .matched v' m' ∧ m'.consumed = ts.length := by
      cases o with
      | failed f => cases hwhole
      | matched v' m' =>
        refine ⟨v', m', rfl, ?_⟩
        by_contra hne
        rw [Outcome.whole, if_neg hne] at hwhole
        cases hwhole
    have hy := yields_of_run (Nat.zero_le _) hrun
    rw [Outcome.result_matched, hall] at hy
    obtain ⟨e, he⟩ := expr_spelled_of_yields (ts.length + 1) 0 v' ts.length (Nat.lt_succ_self _) hy
    rw [List.drop_zero, Nat.zero_add, List.drop_length, List.append_nil] at he
    exact ⟨e, he.symm⟩
  · obtain ⟨e, he⟩ := htree
    obtain ⟨v, hv, -⟩ := hwrite e he
    exact ⟨v, _, hv⟩

/-- `(1 + 2) * 3` parses whole, over its seven tokens, to `9`. -/
theorem parenthesized_sum_times_three :
    expr.parseComplete rules [.lparen, .num 1, .plus, .num 2, .rparen, .star, .num 3] =
      some (.matched (.int 9) ⟨0, 7⟩) := by
  have hfits : Expr.Fits
      (.term (.times (.paren (.plus (.atom (.num 1)) (.term (.atom (.num 2))))) (.atom (.num 3)))) := by
    simp only [Expr.Fits, Expr.SumFits, Term.ProductFits, Atom.Fits, and_true]
    decide
  obtain ⟨v, hparse, hv⟩ := (arithmetic_reads_exactly_its_expressions
    [.lparen, .num 1, .plus, .num 2, .rparen, .star, .num 3]).2
    (.term (.times (.paren (.plus (.atom (.num 1)) (.term (.atom (.num 2))))) (.atom (.num 3))))
    rfl
  rw [hparse, hv hfits]
  rfl

end Arith

end TokenPeg
