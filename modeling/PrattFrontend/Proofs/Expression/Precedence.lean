import PrattFrontend.Proofs.Expression.Places

/-!
# Precedence

In the standard grammar an expression is parsed without an error exactly if it is canonical, and
canonical expressions are those whose tokens give them back.

* `Grammar.Grows.spelled`: what grows says what its tokens say, with an error or without one;
* `Grammar.Grows.canonical`: what grows without an error is canonical, and the operator at its root
  leaves no operator behind it that binds tighter;
* `Expr.Canonical.grows`: a canonical expression grows from its own tokens, whatever follows them;
* **`Grammar.canonical_of_expression_eq_ok`**, **`Grammar.expression_eq_ok_of_canonical`**: the same
  of the parser.
-/

namespace PrattFrontend

open Grammar (standard standardPower?)

variable {p : Power} {s t : State} {e : Expr}

theorem Expr.lt_unary_of_mem_rootPower? {q : Power} (h : q ∈ e.rootPower?) : q < .unary := by
  cases e with
  | binary t d o r =>
    rw [rootPower?, Option.mem_some_iff, Grammar.powerOf_standard] at h
    subst h
    cases hq : standardPower? t.kind with
    | none => decide
    | some q => exact Grammar.lt_unary_of_standardPower? hq
  | _ => cases h

/-! ## What is parsed is canonical -/

theorem Grammar.Grows.spelled (h : standard.Grows p s e t) : e.Spelled := by
  induction h with
  | identifier h =>
    have hk := prefixRule?_standard_eq_identifier_iff.mp h
    simp [Expr.Spelled, Expr.nodes, Expr.Spells, Identifier.ofToken, hk]
  | integer h hv =>
    have hk := prefixRule?_standard_eq_integer_iff.mp h
    simp [Expr.Spelled, Expr.nodes, Expr.Spells, hk, hv]
  | unary h _ _ ih =>
    refine Expr.forall_mem_nodes_unary.mpr ⟨⟨prefixRule?_standard_eq_unary_iff.mp h, rfl⟩, ?_⟩
    rintro _ ⟨⟩
    exact ih
  | unaryHole h =>
    refine Expr.forall_mem_nodes_unary.mpr ⟨⟨prefixRule?_standard_eq_unary_iff.mp h, rfl⟩, ?_⟩
    rintro _ ⟨⟩
  | binary _ hop _ _ ihl ih =>
    obtain ⟨q, hq, -⟩ := nextOperator?_standard_eq_some_iff.mp hop
    refine Expr.forall_mem_nodes_binary.mpr ⟨⟨by rw [hq]; rfl, rfl⟩, ihl, ?_⟩
    rintro _ ⟨⟩
    exact ih
  | binaryHole _ hop _ ihl =>
    obtain ⟨q, hq, -⟩ := nextOperator?_standard_eq_some_iff.mp hop
    refine Expr.forall_mem_nodes_binary.mpr ⟨⟨by rw [hq]; rfl, rfl⟩, ihl, ?_⟩
    rintro _ ⟨⟩

/-- **What grows without an error is canonical.** -/
theorem Grammar.Grows.canonical (h : standard.Grows p s e t) (he : t.errors = s.errors) :
    e.Canonical ∧ ∀ q ∈ e.rootPower?, p < q ∧ standard.nextOperator? q t = none := by
  induction h with
  | @identifier p s h =>
    refine ⟨⟨?_, (Grows.identifier (p := p) h).spelled, ?_⟩, by simp [Expr.rootPower?]⟩
    · simp [Expr.Complete, Expr.nodes, Expr.lacksOperand]
    · simp [Expr.Grouped, Expr.nodes, Expr.HoldsTightly]
  | @integer p s v h hv =>
    refine ⟨⟨?_, (Grows.integer (p := p) h hv).spelled, ?_⟩, by simp [Expr.rootPower?]⟩
    · simp [Expr.Complete, Expr.nodes, Expr.lacksOperand]
    · simp [Expr.Grouped, Expr.nodes, Expr.HoldsTightly]
  | @unary p s e t h right stops ih =>
    obtain ⟨hc, hroot⟩ := ih he
    refine ⟨Expr.canonical_unary_iff.mpr ⟨⟨prefixRule?_standard_eq_unary_iff.mp h, rfl⟩, e, rfl,
      ?_, hc⟩, by simp [Expr.rootPower?]⟩
    -- an operator between two operands would have to bind tighter than the one before them
    refine Option.eq_none_iff_forall_not_mem.mpr fun q hq => ?_
    exact lt_asymm (hroot q hq).1 (Expr.lt_unary_of_mem_rootPower? hq)
  | @unaryHole p s err h hole =>
    exact absurd he ((State.Precedes.advance s).errors_ne_of_record (.refl _))
  | @binary p s l t op e u left hop right stops ihl ih =>
    have hadv : t.Precedes t.advance.advance := (State.Precedes.advance t).trans (.advance _)
    obtain ⟨q, hq, hlt, rfl⟩ := nextOperator?_standard_eq_some_iff.mp hop
    have het : t.errors = s.errors :=
      left.precedes.errors_eq_left (hadv.trans right.precedes) he
    obtain ⟨hcl, hrootl⟩ := ihl het
    obtain ⟨hc, hroot⟩ := ih (he.trans het.symm)
    have hpow : standard.powerOf t.next.kind = q := powerOf_standard_of_standardPower? hq
    refine ⟨Expr.canonical_binary_iff.mpr ⟨⟨by rw [hq]; rfl, rfl⟩, ⟨?_, hcl⟩, e, rfl, ?_, hc⟩, ?_⟩
    · intro r hr
      rw [hpow]
      exact nextOperator?_standard_eq_none_iff.mp (hrootl r hr).2 q hq
    · intro r hr
      rw [hpow]
      exact (hroot r hr).1
    · rintro r ⟨⟩
      rw [hpow]
      exact ⟨hlt, stops⟩
  | @binaryHole p s l t op err left hop hole ihl =>
    refine absurd he (State.Precedes.errors_ne_of_record ?_ (.refl _))
    exact (left.precedes.trans (.advance _)).trans (.advance _)

/-- **Precedence soundness**: what is parsed without an error is canonical. -/
theorem Grammar.canonical_of_expression_eq_ok (h : standard.expression p s = (.ok e, t))
    (he : t.errors = s.errors) :
    (∃ n, t.tokens = s.tokens.drop n ∧ e.tokens = (List.range (n + 1)).map s.tokens.get) ∧
      e.Canonical ∧ (∀ q ∈ e.rootPower?, p < q) ∧
      (t.next.kind = .semicolon ∨ standard.powerOf t.next.kind ≤ p) := by
  obtain ⟨hgrows, hstops⟩ := standard_plain.expression_eq_ok_iff.mp h
  obtain ⟨hc, hroot⟩ := hgrows.canonical he
  exact ⟨hgrows.tokens_eq hc.complete, hc, fun q hq => (hroot q hq).1,
    nextOperator?_eq_none_iff.mp hstops⟩

section Sample

open Token (unplaced)

/-- The tokens of `-a * b - 7 == c`. -/
def sampleTokens : Token.Stream :=
  ⟨[(unplaced .minus "-", 0), (unplaced .identifier "a", 1), (unplaced .asterisk "*", 3),
    (unplaced .identifier "b", 5), (unplaced .minus "-", 7), (unplaced .integer "7", 9),
    (unplaced .equal "==", 11), (unplaced .identifier "c", 14)], .null, 15⟩

/-- The expression `((-a) * b) - 7`. -/
def sampleExpr : Expr :=
  .binary (unplaced .minus "-")
    (.binary (unplaced .asterisk "*")
      (.unary (unplaced .minus "-") "-"
        (some (.identifier (.ofToken (unplaced .identifier "a")))))
      "*" (some (.identifier (.ofToken (unplaced .identifier "b")))))
    "-" (some (.integer (unplaced .integer "7") 7))

end Sample

/-- The state before the sample tokens. -/
def sampleStart : State :=
  .start sampleTokens

/-- The state in which the sample expression is read. -/
def sampleEnd : State :=
  (standard.expression .equality sampleStart).2

/-- At the power of `==`, the sign itself is left. -/
theorem Grammar.canonical_sampleExpr :
    (standard.expression .equality sampleStart = (.ok sampleExpr, sampleEnd) ∧
      sampleEnd.errors = sampleStart.errors) ∧
    (∃ n, sampleEnd.tokens = sampleStart.tokens.drop n ∧
      sampleExpr.tokens = (List.range (n + 1)).map sampleStart.tokens.get) ∧
    sampleExpr.Canonical ∧ (∀ q ∈ sampleExpr.rootPower?, .equality < q) ∧
    (sampleEnd.next.kind = .semicolon ∨ standard.powerOf sampleEnd.next.kind ≤ .equality) := by
  have h : standard.expression .equality sampleStart = (.ok sampleExpr, sampleEnd) :=
    Prod.ext (by decide +kernel) (by rw [sampleEnd])
  have he : sampleEnd.errors = sampleStart.errors := by decide +kernel
  exact ⟨⟨h, he⟩, Grammar.canonical_of_expression_eq_ok h he⟩

/-! ## What is canonical is parsed -/

theorem Expr.tokens_ne_nil (e : Expr) : e.tokens ≠ [] :=
  List.ne_nil_of_mem e.token_mem_tokens

/-- **A canonical expression grows from its tokens.** -/
theorem Expr.Canonical.grows (he : e.Canonical) {rest : List Token}
    (hs : s.tokens.ahead = e.tokens ++ rest) (hp : ∀ q ∈ e.rootPower?, p < q ∧
      ∀ r, standardPower? (s.tokens.get e.tokens.length).kind = some r → r ≤ q) :
    ∃ t, standard.Grows p s e t ∧ t.tokens = s.tokens.drop (e.tokens.length - 1) ∧
      t.errors = s.errors := by
  induction e generalizing p s rest with
  | identifier i =>
    have hcur : s.current = i.token := State.current_of_ahead hs
    obtain ⟨hk, hn⟩ := he.spelled _ (List.mem_singleton.mpr rfl)
    have hi : Identifier.ofToken s.current = i := by rw [hcur, Identifier.ofToken, ← hn]
    refine ⟨s, hi ▸ .identifier ?_, rfl, rfl⟩
    rw [hcur, hk]
    exact Grammar.prefixRule?_standard_eq_identifier_iff.mpr rfl
  | integer t v =>
    have hcur : s.current = t := State.current_of_ahead hs
    obtain ⟨hk, hv⟩ := he.spelled _ (List.mem_singleton.mpr rfl)
    refine ⟨s, hcur ▸ .integer ?_ ?_, rfl, rfl⟩
    · rw [hcur, hk]
      exact Grammar.prefixRule?_standard_eq_integer_iff.mpr rfl
    · rwa [hcur]
  | unary t o r ih =>
    obtain ⟨⟨hk, ho⟩, e, rfl, hroot, hce⟩ := canonical_unary_iff.mp he
    have hcur : s.current = t := State.current_of_ahead hs
    obtain ⟨u, hu, hut, hue⟩ := ih e rfl hce (p := .unary) (s := s.advance)
      (State.ahead_advance_of_ahead hs) (by simp [hroot])
    have hpos := List.length_pos_iff.mpr e.tokens_ne_nil
    refine ⟨u, ?_, ?_, hue⟩
    · rw [ho, ← hcur]
      refine .unary ?_ hu (Grammar.nextOperator?_unary_standard u)
      rw [hcur]
      exact Grammar.prefixRule?_standard_eq_unary_iff.mpr hk
    · rw [hut, State.tokens_advance, Token.Stream.drop_drop, tokens, List.length_cons]
      congr 1
      omega
  | binary t d o r ihd ih =>
    obtain ⟨⟨hk, ho⟩, ⟨hleft, hcd⟩, e, rfl, hright, hce⟩ := canonical_binary_iff.mp he
    obtain ⟨q, hq⟩ := Option.isSome_iff_exists.mp hk
    rw [Grammar.powerOf_standard_of_standardPower? hq] at hleft hright
    have hroot : (binary t d o (some e)).rootPower? = some q := by
      rw [rootPower?, Grammar.powerOf_standard_of_standardPower? hq]
    obtain ⟨hlt, hbehind⟩ := hp q hroot
    have hposd := List.length_pos_iff.mpr d.tokens_ne_nil
    have hpos := List.length_pos_iff.mpr e.tokens_ne_nil
    have hlen : (binary t d o (some e)).tokens.length = d.tokens.length + 1 + e.tokens.length := by
      rw [tokens, List.length_append, List.length_cons]
      omega
    rw [tokens, List.append_assoc] at hs
    -- the left operand, behind which the operator stands
    have ht : s.tokens.get d.tokens.length = t := by simp [Token.Stream.get, hs]
    obtain ⟨u, hu, hut, hue⟩ := ihd hcd hs (p := p) fun r hr => by
      refine ⟨lt_of_lt_of_le hlt (hleft r hr), fun r' hr' => ?_⟩
      rw [ht, hq] at hr'
      cases hr'
      exact hleft r hr
    have hnext : u.next = t := by
      rw [State.next_of_tokens_eq hut, Nat.sub_add_cancel hposd, ht]
    have hadv : u.advance.advance.tokens = s.tokens.drop (d.tokens.length + 1) := by
      rw [State.tokens_advance, State.tokens_advance, hut, Token.Stream.drop_drop,
        Token.Stream.drop_drop]
      congr 1
      omega
    -- the right operand, behind which the same token stands as behind the whole
    have hget : u.advance.advance.tokens.get e.tokens.length =
        s.tokens.get (binary t d o (some e)).tokens.length := by
      rw [hadv, Token.Stream.get_drop, hlen]
    have hahead : u.advance.advance.tokens.ahead = e.tokens ++ rest := by
      rw [hadv, Token.Stream.ahead_drop, hs]
      simp
    obtain ⟨v, hv, hvt, hve⟩ := ih e rfl hce (p := q) hahead fun r hr => by
      refine ⟨hright r hr, fun r' hr' => ?_⟩
      rw [hget] at hr'
      exact le_trans (hbehind r' hr') (le_of_lt (hright r hr))
    have hvt' : v.tokens = s.tokens.drop ((binary t d o (some e)).tokens.length - 1) := by
      rw [hvt, hadv, Token.Stream.drop_drop, hlen]
      congr 1
      omega
    have hstops : standard.nextOperator? q v = none := by
      refine Grammar.nextOperator?_standard_eq_none_iff.mpr fun r hr => hbehind r ?_
      rw [State.next_of_tokens_eq hvt', Nat.sub_add_cancel (by rw [hlen]; omega)] at hr
      exact hr
    refine ⟨v, ?_, hvt', hve.trans hue⟩
    have hop := Grammar.nextOperator?_standard_eq_some_iff.mpr
      ⟨q, by rw [hnext, hq], hlt, rfl⟩
    have := Grammar.Grows.binary hu hop hv hstops
    rwa [hnext, ← ho] at this

/-- **Precedence completeness**: a canonical expression is read back from its tokens. -/
theorem Grammar.expression_eq_ok_of_canonical (he : e.Canonical) (hp : ∀ q ∈ e.rootPower?, p < q)
    {rest : List Token} (hs : s.tokens.ahead = e.tokens ++ rest)
    (hrest : (s.tokens.get e.tokens.length).kind = .semicolon ∨
      standard.powerOf (s.tokens.get e.tokens.length).kind ≤ p) :
    ∃ t, standard.expression p s = (.ok e, t) ∧ t.errors = s.errors ∧
      t.tokens = s.tokens.drop (e.tokens.length - 1) ∧ e.tokens.getLast? = some t.current := by
  have hbehind : ∀ r, standardPower? (s.tokens.get e.tokens.length).kind = some r → r ≤ p := by
    intro r hr
    rcases hrest with h | h
    · rw [h] at hr
      cases hr
    · rwa [powerOf_standard_of_standardPower? hr] at h
  obtain ⟨t, ht, htt, hte⟩ := he.grows hs fun q hq =>
    ⟨hp q hq, fun r hr => le_trans (hbehind r hr) (le_of_lt (hp q hq))⟩
  have hpos := List.length_pos_iff.mpr e.tokens_ne_nil
  have hstops : standard.nextOperator? p t = none := by
    refine nextOperator?_standard_eq_none_iff.mpr fun r hr => hbehind r ?_
    rwa [State.next_of_tokens_eq htt, Nat.sub_add_cancel hpos] at hr
  refine ⟨t, standard_plain.expression_eq_ok_iff.mpr ⟨ht, hstops⟩, hte, htt, ?_⟩
  rw [State.current_of_tokens_eq htt, List.getLast?_eq_getElem?, Token.Stream.get, hs,
    List.getElem?_append_left (by omega), List.getElem?_eq_getElem (by omega), Option.getD_some]

theorem Grammar.expression_sampleExpr :
    (sampleExpr.Canonical ∧ (∀ q ∈ sampleExpr.rootPower?, .equality < q) ∧
      sampleStart.tokens.ahead = sampleExpr.tokens ++ sampleTokens.ahead.drop 6 ∧
      ((sampleStart.tokens.get sampleExpr.tokens.length).kind = .semicolon ∨
        standard.powerOf (sampleStart.tokens.get sampleExpr.tokens.length).kind ≤ .equality)) ∧
    ∃ t, standard.expression .equality sampleStart = (.ok sampleExpr, t) ∧
      t.errors = sampleStart.errors ∧
      t.tokens = sampleStart.tokens.drop (sampleExpr.tokens.length - 1) ∧
      sampleExpr.tokens.getLast? = some t.current := by
  have he : sampleExpr.Canonical := by decide +kernel
  have hp : ∀ q ∈ sampleExpr.rootPower?, .equality < q := by decide +kernel
  have hs : sampleStart.tokens.ahead = sampleExpr.tokens ++ sampleTokens.ahead.drop 6 := by
    decide +kernel
  have hrest : (sampleStart.tokens.get sampleExpr.tokens.length).kind = .semicolon ∨
      standard.powerOf (sampleStart.tokens.get sampleExpr.tokens.length).kind ≤ .equality := by
    decide +kernel
  exact ⟨⟨he, hp, hs, hrest⟩, Grammar.expression_eq_ok_of_canonical he hp hs hrest⟩

end PrattFrontend
