import TokenPeg.Proofs.Adequacy
/-!
  TokenPeg.Proofs.Spelling

  Derivations of the judgement of `TokenPeg.Proofs.Judgement` read back, and the tokens that
  separated lists cover. A derivation for a composite grammar is made of derivations for its
  parts (`Yields.of_map`, `Yields.of_and`, `Yields.of_sepBy`, …), and a token matches where it
  stands.

  A separated list whose separator is one token `s` covers its items' tokens, each after
  the first preceded by `s`: the tokens `y₀ s y₁ s … s yₖ` from where it starts. Both ways
  are stated for items that spell the tokens of trees `y` through a printer `pr`. Reading:
  where the list matches, the tokens it covered are so spelled, by trees the item reads
  (`spelled_of_sepBy`). Writing: where the tokens from a position are so spelled and the
  next token is no separator, the list matches exactly them, each item wherever the item
  matches its tree (`sepBy_yields_of_spelled`). Both go along the repetition of the
  separator then an item, by induction on the items after the first.
-/

namespace TokenPeg

namespace Grammar

variable {α : Type} [Lexeme α] [DecidableEq α] {rules : Rules α} {toks : List α} {p : Nat}

/-! ## Derivations read back -/

namespace Yields

theorem of_label {g : Grammar α} {name : String} {r : Option (Value × Nat)}
    (h : Yields rules toks (.label g name) p r) : Yields rules toks g p r := by
  cases h with
  | label h => exact h
  | take hg => cases hg
  | refuse hg => cases hg

theorem of_map {g : Grammar α} {f : Value → Value} {v : Value} {c : Nat}
    (h : Yields rules toks (.map g f) p (some (v, c))) :
    ∃ w, Yields rules toks g p (some (w, c)) ∧ v = f w := by
  generalize hr : some (v, c) = r at h
  cases h with
  | @map _ _ _ r' h =>
    cases r' with
    | none => cases hr
    | some wc =>
      obtain ⟨w, c'⟩ := wc
      simp only [Option.map_some, Option.some.injEq, Prod.mk.injEq] at hr
      obtain ⟨rfl, rfl⟩ := hr
      exact ⟨w, h, rfl⟩
  | take hg => cases hg
  | refuse hg => cases hg

theorem of_and {a b : Grammar α} {v : Value} {c : Nat}
    (h : Yields rules toks (.and a b) p (some (v, c))) :
    ∃ va ca vb cb, Yields rules toks a p (some (va, ca)) ∧
      Yields rules toks b (p + ca) (some (vb, cb)) ∧ v = .arr [va, vb] ∧ c = ca + cb := by
  cases h with
  | and ha hb => exact ⟨_, _, _, _, ha, hb, rfl, rfl⟩
  | take hg => cases hg

theorem of_sepBy {item sep : Grammar α} {v : Value} {c : Nat}
    (h : Yields rules toks (.sepBy item sep) p (some (v, c))) :
    ∃ v₀ c₀ ws c', Yields rules toks item p (some (v₀, c₀)) ∧
      Repeats rules toks (.and sep item) none (p + c₀) ws c' ∧
      v = .arr (v₀ :: ws.map (·.item 1)) ∧ c = c₀ + c' := by
  cases h with
  | sepBy hi hr => exact ⟨_, _, _, _, hi, hr, rfl, rfl⟩
  | take hg => cases hg

theorem of_choice {alts : List (Grammar α)} {r : Option (Value × Nat)}
    (h : Yields rules toks (.choice alts) p r) : YieldsFirst rules toks alts p r := by
  cases h with
  | choice hf => exact hf
  | take hg => cases hg
  | refuse hg => cases hg

theorem of_rule {name : String} {r : Option (Value × Nat)}
    (h : Yields rules toks (.rule name) p r) :
    ∃ body, rules.lookup name = some body ∧ Yields rules toks body p r := by
  cases h with
  | rule found hy => exact ⟨_, found, hy⟩
  | take hg => cases hg
  | refuse hg => cases hg

/-- A given token matches only itself, one token long. -/
theorem of_token {e : α} {v : Value} {c : Nat}
    (h : Yields rules toks (.token e) p (some (v, c))) :
    toks[p]? = some e ∧ v = Lexeme.toValue e ∧ c = 1 := by
  cases h with
  | take hg ht hpass =>
    cases hg
    rename_i t
    obtain rfl : t = e := of_decide_eq_true hpass
    exact ⟨ht, rfl, rfl⟩

/-- A token that passes a test matches one token long, with its value. -/
theorem of_satisfy {test : α → Bool} {desc : String} {v : Value} {c : Nat}
    (h : Yields rules toks (.satisfy test desc) p (some (v, c))) :
    ∃ t, toks[p]? = some t ∧ test t = true ∧ v = Lexeme.toValue t ∧ c = 1 := by
  cases h with
  | take hg ht hpass =>
    cases hg
    exact ⟨_, ht, hpass, rfl, rfl⟩

end Yields

namespace YieldsFirst

/-- An ordered choice matches by its first alternative, or by the others once the first
    failed. -/
theorem of_cons {g : Grammar α} {gs : List (Grammar α)} {v : Value} {c : Nat}
    (h : YieldsFirst rules toks (g :: gs) p (some (v, c))) :
    Yields rules toks g p (some (v, c)) ∨
      (Yields rules toks g p none ∧ YieldsFirst rules toks gs p (some (v, c))) := by
  cases h with
  | head hg => exact .inl hg
  | next hg hgs => exact .inr ⟨hg, hgs⟩

theorem not_nil {v : Value} {c : Nat} (h : YieldsFirst rules toks [] p (some (v, c))) : False := by
  cases h

end YieldsFirst

/-- A given token matches where it stands. -/
theorem yields_token {e : α} (ht : toks[p]? = some e) :
    Yields rules toks (.token e) p (some (Lexeme.toValue e, 1)) :=
  .take rfl ht (decide_eq_true rfl)

/-- A given token fails where another token, or none, stands. -/
theorem yields_token_none {e : α} (ht : toks[p]? ≠ some e) : Yields rules toks (.token e) p none :=
  .refuse rfl fun _ h => decide_eq_false fun he => ht (he ▸ h)

/-! ## Tokens from a position -/

omit [Lexeme α] [DecidableEq α] in
/-- Where the tokens from `q` on are `w` followed by `rest`, the tokens from behind `w` are
    `rest`. -/
theorem drop_add_length {q : Nat} {w rest : List α} (h : toks.drop q = w ++ rest) :
    toks.drop (q + w.length) = rest := by
  rw [← List.drop_drop, h, List.drop_left]

omit [Lexeme α] [DecidableEq α] in
/-- Where the tokens from `q` on are `t` followed by `rest`, the tokens from `q + 1` on are
    `rest`. -/
theorem drop_succ_of_eq_cons {q : Nat} {t : α} {rest : List α} (h : toks.drop q = t :: rest) :
    toks.drop (q + 1) = rest := by
  rw [← List.drop_drop, h]
  rfl

omit [Lexeme α] [DecidableEq α] in
/-- The token at `q` is the first of the tokens from `q` on. -/
theorem getElem?_eq_head? {q : Nat} : toks[q]? = (toks.drop q).head? :=
  List.head?_drop.symm

omit [Lexeme α] [DecidableEq α] in
/-- The tokens from `q` on are the token at `q` followed by the tokens from `q + 1` on. -/
theorem drop_eq_cons {q : Nat} {t : α} (ht : toks[q]? = some t) :
    toks.drop q = t :: toks.drop (q + 1) := by
  obtain ⟨hq, rfl⟩ := List.getElem?_eq_some_iff.1 ht
  exact List.drop_eq_getElem_cons hq

/-! ## Separated lists with a token separator -/

variable {X : Type} {item : Grammar α} {s : α} {pr : X → List α}

omit [Lexeme α] [DecidableEq α] in
/-- What `Q` allows after an item of a separated list: a separator and more, or the tokens
    after the list. -/
theorem after_item {Q : List α → Prop} (hQ : ∀ l, Q (s :: l)) {rest : List α} (hQr : Q rest)
    (ys : List X) : Q (ys.flatMap (fun y => s :: pr y) ++ rest) := by
  cases ys with
  | nil => exact hQr
  | cons y ys => exact hQ _

omit [Lexeme α] [DecidableEq α] in
/-- Each item of a separated list is written with no more tokens than the whole list. -/
theorem length_le_of_mem_spelled {y y' : X} {ys : List X} (hy : y' ∈ y :: ys) :
    (pr y').length ≤ (pr y ++ ys.flatMap fun y => s :: pr y).length := by
  rw [List.length_append]
  rcases List.mem_cons.1 hy with rfl | hmem
  · exact Nat.le_add_right _ _
  · -- an item after the first lies inside the tokens after the first
    induction ys with
    | nil => cases hmem
    | cons z zs ih =>
      rw [List.flatMap_cons, List.length_append, List.length_cons]
      rcases List.mem_cons.1 hmem with rfl | hmem'
      · omega
      · have := ih (List.mem_cons_of_mem y hmem') hmem'
        omega

/-- Writing the items after the first: where the tokens from `x` on are each item's tokens
    after a separator, followed by tokens that do not start with a separator, the repetition
    of the separator then the item matches exactly the items, each with its value. -/
theorem repeats_of_spelled (P : X → Prop) (f : X → Value) (Q : List α → Prop)
    (hQ : ∀ l, Q (s :: l)) {rest : List α} (hQr : Q rest) (hstop : rest.head? ≠ some s) :
    ∀ (ys : List X) (x : Nat),
      (∀ y ∈ ys, ∀ q rest', toks.drop q = pr y ++ rest' → Q rest' →
        ∃ v, Yields rules toks item q (some (v, (pr y).length)) ∧ (P y → v = f y)) →
      toks.drop x = ys.flatMap (fun y => s :: pr y) ++ rest →
      ∃ ws, Repeats rules toks (.and (.token s) item) none x ws
          (ys.flatMap fun y => s :: pr y).length ∧
        ((∀ y ∈ ys, P y) → ws.map (·.item 1) = ys.map f) := by
  have hb : (none : Option Nat) ≠ some 0 := (Option.some_ne_none 0).symm
  intro ys
  induction ys with
  | nil =>
    intro x _ h
    -- no separator stands at `x`, so the repetition stops there
    have hsep : toks[x]? ≠ some s := by
      rw [getElem?_eq_head?, h]
      exact hstop
    exact ⟨[], .stop hb (.and_left (yields_token_none hsep)), fun _ => rfl⟩
  | cons y ys ih =>
    intro x hitem h
    simp only [List.flatMap_cons, List.cons_append, List.append_assoc] at h
    have hsep : toks[x]? = some s := by
      rw [getElem?_eq_head?, h]
      rfl
    have hs : Yields rules toks (.token s) x (some (Lexeme.toValue s, 1)) := yields_token hsep
    have hy := drop_succ_of_eq_cons h
    obtain ⟨v, hv, hvf⟩ := hitem y List.mem_cons_self (x + 1) _ hy (after_item hQ hQr ys)
    obtain ⟨ws, hws, hwsf⟩ := ih (x + (1 + (pr y).length))
      (fun y' hy' => hitem y' (List.mem_cons_of_mem y hy'))
      (by rw [← Nat.add_assoc, drop_add_length hy])
    refine ⟨.arr [Lexeme.toValue s, v] :: ws, ?_, fun hP => ?_⟩
    · have hrep := Repeats.more hb (.and hs hv) (by omega) hws
      rw [List.flatMap_cons, List.length_append, List.length_cons]
      convert hrep using 1
      omega
    · rw [List.map_cons, List.map_cons, hwsf fun y' hy' => hP y' (List.mem_cons_of_mem y hy'),
        ← hvf (hP y List.mem_cons_self)]
      rfl

/-- Writing a separated list: where the tokens from `p` on are its items' tokens, the
    separator between each two, followed by tokens that do not start with a separator and
    that the last item allows after it, the list matches exactly those tokens, with its
    items' values. -/
theorem sepBy_yields_of_spelled (P : X → Prop) (f : X → Value) (Q : List α → Prop)
    (hQ : ∀ l, Q (s :: l)) {rest : List α} (hQr : Q rest) (hstop : rest.head? ≠ some s)
    (y : X) (ys : List X)
    (hitem : ∀ y' ∈ y :: ys, ∀ q rest', toks.drop q = pr y' ++ rest' → Q rest' →
      ∃ v, Yields rules toks item q (some (v, (pr y').length)) ∧ (P y' → v = f y'))
    (h : toks.drop p = pr y ++ ys.flatMap (fun y => s :: pr y) ++ rest) :
    ∃ vs, Yields rules toks (.sepBy item (.token s)) p
        (some (.arr vs, (pr y ++ ys.flatMap fun y => s :: pr y).length)) ∧
      ((∀ y' ∈ y :: ys, P y') → vs = (y :: ys).map f) := by
  rw [List.append_assoc] at h
  obtain ⟨v, hv, hvf⟩ := hitem y List.mem_cons_self p _ h (after_item hQ hQr ys)
  obtain ⟨ws, hws, hwsf⟩ := repeats_of_spelled P f Q hQ hQr hstop ys (p + (pr y).length)
    (fun y' hy' => hitem y' (List.mem_cons_of_mem y hy')) (drop_add_length h)
  refine ⟨v :: ws.map (·.item 1), ?_, fun hP => ?_⟩
  · rw [List.length_append]
    exact .sepBy hv hws
  · rw [List.map_cons, hwsf fun y' hy' => hP y' (List.mem_cons_of_mem y hy'),
      ← hvf (hP y List.mem_cons_self)]

/-- Reading the items after the first: the tokens the repetition of the separator then an
    item covers from `x` are, for trees the item reads, each tree's tokens after a
    separator. -/
theorem spelled_of_repeats {C : Nat}
    (hitem : ∀ q v k, k ≤ C → Yields rules toks item q (some (v, k)) →
      ∃ y, toks.drop q = pr y ++ toks.drop (q + k)) :
    ∀ (ws : List Value) (x c : Nat), Repeats rules toks (.and (.token s) item) none x ws c →
      c ≤ C → ∃ ys : List X, toks.drop x = ys.flatMap (fun y => s :: pr y) ++ toks.drop (x + c) := by
  intro ws
  induction ws with
  | nil =>
    intro x c h _
    cases h with
    | stop => exact ⟨[], by rw [Nat.add_zero]; rfl⟩
  | cons w ws ih =>
    intro x c h hc
    cases h with
    | @empty _ _ _ _ _ hw =>
      -- the separator consumes its token, so a turn never matches empty
      obtain ⟨_, ca, _, cb, hs, -, -, hzero⟩ := Yields.of_and hw
      obtain ⟨-, -, rfl⟩ := Yields.of_token hs
      omega
    | @more _ _ _ _ c₁ _ c' _ hw _ hrest =>
      obtain ⟨_, ca, _, cb, hs, hi, -, rfl⟩ := Yields.of_and hw
      obtain ⟨hts, -, rfl⟩ := Yields.of_token hs
      obtain ⟨y, hy⟩ := hitem _ _ _ (by omega) hi
      obtain ⟨ys, hys⟩ := ih _ _ hrest (by omega)
      refine ⟨y :: ys, ?_⟩
      rw [drop_eq_cons hts, hy, List.flatMap_cons, Nat.add_assoc, hys, Nat.add_assoc]
      simp

/-- Reading a separated list: the tokens it covers from `p` are, for trees the item reads,
    the first tree's tokens followed by each other tree's tokens after a separator. -/
theorem spelled_of_sepBy {C : Nat}
    (hitem : ∀ q v k, k ≤ C → Yields rules toks item q (some (v, k)) →
      ∃ y, toks.drop q = pr y ++ toks.drop (q + k))
    {v : Value} {c : Nat} (h : Yields rules toks (.sepBy item (.token s)) p (some (v, c)))
    (hc : c ≤ C) :
    ∃ (y : X) (ys : List X),
      toks.drop p = pr y ++ ys.flatMap (fun y => s :: pr y) ++ toks.drop (p + c) := by
  obtain ⟨v₀, c₀, ws, c', hi, hr, -, rfl⟩ := Yields.of_sepBy h
  obtain ⟨y, hy⟩ := hitem _ _ _ (by omega) hi
  obtain ⟨ys, hys⟩ := spelled_of_repeats hitem ws _ _ hr (by omega)
  refine ⟨y, ys, ?_⟩
  rw [hy, hys, List.append_assoc, Nat.add_assoc]

end Grammar

end TokenPeg
