import PrattFrontend.Proofs.Expression.Precedence
import PrattFrontend.Proofs.Language.Lookahead
import PrattFrontend.Proofs.Statement.Outcomes
import PrattFrontend.Proofs.Token.Lexed

/-!
# Acceptance

A source is parsed without an error exactly if its tokens are a program of the language. Each part
of the parser is shown to record no error and to leave a program behind it exactly if what it was
given is what the grammar asks for.

* `Grammar.Grows.rest`: the loop over operators takes no wrong turn;
* `Grammar.Reads.operandAhead_iff`, `Grammar.Values.valueAhead_iff`: expressions and values;
* **`Grammar.Performs.sentences_iff`**: one statement;
* `Grammar.errors_statements_eq_iff`: statements up to the end of the input;
* **`errors_parse_eq_empty_iff`**: sources.
-/

namespace PrattFrontend

open PrattFrontend.Language (OperandAhead Rest Sentences ValueAhead)

variable {values : ValueMode} {config : Config} {p : Power} {s t : State} {e : Expr}
  {err : ParseError}

/-- All tokens that are left are lexed. -/
def State.Lexed (s : State) : Prop :=
  ∀ x ∈ s.tokens.ahead, x.Lexed

theorem State.Precedes.lexed (h : s.Precedes t) (hs : s.Lexed) : t.Lexed := by
  obtain ⟨n, hn⟩ := h.tokens
  intro x hx
  rw [hn, Token.Stream.ahead_drop] at hx
  exact hs x (List.mem_of_mem_drop hx)

theorem State.ahead_eq_nil (hs : s.Lexed) (hk : s.current.kind = .endOfInput) :
    s.tokens.ahead = [] := by
  cases hxs : s.tokens.ahead with
  | nil => rfl
  | cons x xs =>
    rw [State.current_of_ahead hxs] at hk
    exact absurd hk (hs x (by simp [hxs])).kind_ne

theorem State.ahead_advance_skipToSemicolon (hs : s.Lexed) (hk : s.current.kind ≠ .semicolon)
    (hk' : s.current.kind ≠ .endOfInput) :
    s.skipToSemicolon.advance.tokens.ahead =
      (s.advance.tokens.ahead.dropWhile fun x => x.kind ≠ .semicolon).tail := by
  rw [State.tokens_advance, Token.Stream.ahead_drop, List.drop_one, State.ahead_skipToSemicolon,
    Token.dropWhile_of_lexed hs, State.ahead_eq_cons hk',
    List.dropWhile_cons_of_pos (by simpa using hk)]

theorem Language.mem_infixKinds_iff {k : Token.Kind} :
    k ∈ infixKinds ↔ ∃ q, Grammar.standardPower? k = some q := by
  cases k <;> simp [infixKinds, Grammar.standardPower?]

theorem Expr.Canonical.expression (he : e.Canonical) :
    Language.Expression e.tokens ∧ (e.rootPower? = none → Language.Operand e.tokens) := by
  induction e with
  | identifier i =>
    have hk := (he.spelled _ (List.mem_singleton.mpr rfl)).1
    have h : Language.Operand [i.token] := .atom (.inl hk)
    exact ⟨.operand h, fun _ => h⟩
  | integer t v =>
    obtain ⟨hk, hv⟩ := he.spelled _ (List.mem_singleton.mpr rfl)
    have h : Language.Operand [t] := .atom (.inr ⟨hk, (Text.readInteger?_eq_some_iff.mp hv).2.2.1⟩)
    exact ⟨.operand h, fun _ => h⟩
  | unary t o r ih =>
    obtain ⟨⟨hk, -⟩, e, rfl, hroot, hce⟩ := canonical_unary_iff.mp he
    have h : Language.Operand (t :: e.tokens) :=
      .unary (by simpa [Language.prefixKinds] using hk) ((ih e rfl hce).2 hroot)
    exact ⟨.operand h, fun _ => h⟩
  | binary t d o r ihd ih =>
    obtain ⟨⟨hk, -⟩, ⟨-, hcd⟩, e, rfl, -, hce⟩ := canonical_binary_iff.mp he
    have ht := Language.mem_infixKinds_iff.mpr (Option.isSome_iff_exists.mp hk)
    exact ⟨(ihd hcd).1.append ht (ih e rfl hce).1, fun h => by cases h⟩

namespace Grammar

/-! ## Expressions -/

theorem Refuses.not_operandAhead (h : standard.Refuses s err) (hs : s.Lexed) :
    ¬OperandAhead values s.tokens.ahead := by
  intro ho
  obtain ⟨x, xs, heq, hx⟩ := ho.exists_head
  have hcur : s.current = x := State.current_of_ahead heq
  cases h with
  | noRule h =>
    rw [hcur] at h
    obtain ⟨h₁, h₂, h₃, h₄⟩ := prefixRule?_standard_eq_none_iff.mp h
    simp [Language.startKinds, h₁, h₂, h₃, h₄] at hx
  | outOfRange h hv =>
    rw [hcur] at h hv
    have hk := prefixRule?_standard_eq_integer_iff.mp h
    rw [heq] at ho
    rcases Language.operandAhead_cons_iff.mp ho with ⟨hk' | ⟨-, hlt⟩, -⟩ | ⟨hk', -⟩
    · simp [hk] at hk'
    · have hsome := ((hs x (by simp [heq])).isSome_readInteger?_iff hk).mpr hlt
      rw [hv] at hsome
      cases hsome
    · simp [hk, Language.prefixKinds] at hk'

theorem operandAhead_advance (h : standard.prefixRule? s.current.kind = some Rule.unary)
    (ho : OperandAhead values s.tokens.ahead) : OperandAhead values s.advance.tokens.ahead := by
  have hk := prefixRule?_standard_eq_unary_iff.mp h
  rw [State.ahead_eq_cons fun he => by simp [he] at hk] at ho
  rcases Language.operandAhead_cons_iff.mp ho with ⟨hk' | ⟨hk', -⟩, -⟩ | ⟨-, ho⟩
  · simp [hk'] at hk
  · simp [hk'] at hk
  · exact ho

theorem operandAhead_of_nextOperator? {op : Operator} (hop : standard.nextOperator? p s = some op)
    (h : Rest values s.advance.tokens.ahead) :
    OperandAhead values s.advance.advance.tokens.ahead := by
  obtain ⟨q, hq, -⟩ := nextOperator?_standard_eq_some_iff.mp hop
  have hk := Language.mem_infixKinds_iff.mpr ⟨q, hq⟩
  rw [State.ahead_advance_eq_cons fun he => by simp [he, Language.infixKinds] at hk] at h
  exact h.operandAhead hk

/-- **An expression grows without an error where the language has an operand.** -/
theorem Grows.rest (h : standard.Grows p s e t) (hs : s.Lexed)
    (ho : OperandAhead values s.tokens.ahead) :
    t.errors = s.errors ∧ Rest values t.advance.tokens.ahead := by
  induction h with
  | identifier h =>
    have hk := prefixRule?_standard_eq_identifier_iff.mp h
    rw [State.ahead_eq_cons (by simp [hk])] at ho
    rcases Language.operandAhead_cons_iff.mp ho with ⟨-, h⟩ | ⟨hk', -⟩
    · exact ⟨rfl, h⟩
    · simp [hk, Language.prefixKinds] at hk'
  | integer h =>
    have hk := prefixRule?_standard_eq_integer_iff.mp h
    rw [State.ahead_eq_cons (by simp [hk])] at ho
    rcases Language.operandAhead_cons_iff.mp ho with ⟨-, h⟩ | ⟨hk', -⟩
    · exact ⟨rfl, h⟩
    · simp [hk, Language.prefixKinds] at hk'
  | @unary p s e t h _ _ ih =>
    exact ih ((State.Precedes.advance s).lexed hs) (operandAhead_advance h ho)
  | @unaryHole p s err h hole =>
    exact absurd (operandAhead_advance h ho)
      (hole.not_operandAhead ((State.Precedes.advance s).lexed hs))
  | @binary p s l t op e u left hop right _ ihl ih =>
    have hadv : t.Precedes t.advance.advance := (State.Precedes.advance t).trans (.advance _)
    obtain ⟨he, hrest⟩ := ihl hs ho
    obtain ⟨he', hrest'⟩ := ih ((left.precedes.trans hadv).lexed hs)
      (operandAhead_of_nextOperator? hop hrest)
    exact ⟨he'.trans he, hrest'⟩
  | @binaryHole p s l t op err left hop hole ihl =>
    have hadv : t.Precedes t.advance.advance := (State.Precedes.advance t).trans (.advance _)
    exact absurd (operandAhead_of_nextOperator? hop (ihl hs ho).2)
      (hole.not_operandAhead ((left.precedes.trans hadv).lexed hs))

theorem Grows.ahead_eq (h : standard.Grows p s e t) (hc : e.Canonical) :
    s.tokens.ahead = e.tokens ++ t.advance.tokens.ahead := by
  obtain ⟨n, ht, he⟩ := h.tokens_eq hc.complete
  have hn : n < s.tokens.ahead.length := by
    by_contra hn
    have hk := State.kind_get_of_length_le (T := s.tokens) (i := n) (by omega)
    have hmem : s.tokens.get n ∈ e.tokens := by
      rw [he]
      exact List.mem_map_of_mem (List.mem_range.mpr (Nat.lt_succ_self n))
    have hrule := hc.spelled.prefixRule_or_power hmem
    rw [hk] at hrule
    simp [standard, standardPrefixRule?, standardPower?] at hrule
  rw [he, Token.Stream.map_get_range hn, State.tokens_advance, ht, Token.Stream.drop_drop,
    Token.Stream.ahead_drop, List.take_append_drop]

/-- **An expression is read without an error exactly where the language has one.** -/
theorem Reads.operandAhead_iff (h : standard.Reads .lowest s e t) (hs : s.Lexed) :
    OperandAhead values s.tokens.ahead ↔
      t.errors = s.errors ∧ Sentences values t.passSemicolon.advance.tokens.ahead := by
  unfold State.passSemicolon
  constructor
  · intro ho
    obtain ⟨he, hrest⟩ := h.1.rest hs ho
    refine ⟨he, ?_⟩
    by_cases hk : t.next.kind = .semicolon
    · rw [State.ahead_advance_eq_cons (by simp [hk])] at hrest
      rw [if_pos hk]
      exact hrest.sentences_of_semicolon hk
    · rw [if_neg hk]
      refine hrest.sentences_of_head fun x hx => ?_
      obtain ⟨xs, hxs⟩ := List.head?_eq_some_iff.mp hx
      rw [← State.next_of_ahead_advance hxs]
      refine ⟨fun hinfix => ?_, hk⟩
      obtain ⟨q, hq⟩ := Language.mem_infixKinds_iff.mp hinfix
      rw [nextOperator?_lowest_standard_eq_none_iff.mp h.2] at hq
      cases hq
  · rintro ⟨he, hsent⟩
    have hc := (h.1.canonical he).1
    rw [h.1.ahead_eq hc, Language.operandAhead_iff]
    by_cases hk : t.next.kind = .semicolon
    · rw [if_pos hk] at hsent
      refine ⟨_, [t.next], _, ?_, hc.expression.1, .semicolon hk, hsent⟩
      rw [State.ahead_advance_eq_cons (by simp [hk]), List.singleton_append]
    · rw [if_neg hk] at hsent
      exact ⟨_, [], _, rfl, hc.expression.1, .none, hsent⟩

/-! ## Values -/

/-- **A value is taken without an error exactly where the language has one.** -/
theorem Values.valueAhead_iff {v : Option Expr} (h : standard.Values config s v t) (hs : s.Lexed)
    (hk : s.current.kind ≠ .semicolon) (hk' : s.current.kind ≠ .endOfInput) :
    ValueAhead config.values s.advance.tokens.ahead ↔
      t.errors = s.errors ∧ Sentences config.values t.advance.tokens.ahead := by
  have hadv := (State.Precedes.advance s).lexed hs
  cases h with
  | skipped hv =>
    rw [hv, Language.valueAhead_skip_iff, State.ahead_advance_skipToSemicolon hs hk hk']
    exact (and_iff_right (State.errors_advanceBy s _)).symm
  | read hv h =>
    rw [hv, Language.valueAhead_parse_iff, h.operandAhead_iff hadv, State.errors_passSemicolon,
      State.errors_advance]
  | refused hv h =>
    rw [hv, Language.valueAhead_parse_iff]
    refine iff_of_false (h.not_operandAhead hadv) fun hand => ?_
    exact (State.Precedes.advance s).errors_ne_of_record (.skipToSemicolon _) hand.1

/-! ## Statements -/

/-- **A statement is parsed without an error exactly where the language has one.** -/
theorem Performs.sentences_iff {st : Option Statement} (h : standard.Performs config s st t)
    (hs : s.Lexed) (hk : s.current.kind ≠ .endOfInput) :
    Sentences config.values s.tokens.ahead ↔
      t.errors = s.errors ∧ Sentences config.values t.advance.tokens.ahead := by
  have hadv := (State.Precedes.advance s).lexed hs
  rw [State.ahead_eq_cons hk]
  cases h with
  | letNoName hr hn =>
    rw [Language.sentences_let_iff (ruleForStatement_standard_eq_let_iff.mp hr)]
    refine iff_of_false ?_ fun hand => ?_
    · rintro ⟨n, a, us, heq, hname, -⟩
      rw [State.next_of_ahead_advance heq] at hn
      exact hn hname
    · exact (State.Precedes.refl s).errors_ne_of_record (recover_precedes _ _) hand.1
  | letNoSign hr hn ha =>
    rw [Language.sentences_let_iff (ruleForStatement_standard_eq_let_iff.mp hr)]
    refine iff_of_false ?_ fun hand => ?_
    · rintro ⟨n, a, us, heq, -, hsign, -⟩
      rw [State.next_of_ahead heq] at ha
      exact ha hsign
    · exact (State.Precedes.advance s).errors_ne_of_record (recover_precedes _ _) hand.1
  | letValue hr hn ha h =>
    have hvalue := h.valueAhead_iff ((State.Precedes.advance _).lexed hadv) (by simp [ha])
      (by simp [ha])
    rw [Language.sentences_let_iff (ruleForStatement_standard_eq_let_iff.mp hr),
      State.ahead_advance_eq_cons (by simp [hn]), State.ahead_advance_eq_cons (by simp [ha])]
    rw [State.errors_advance, State.errors_advance] at hvalue
    rw [← hvalue]
    constructor
    · rintro ⟨n, a, us, ⟨⟩, -, -, h⟩
      exact h
    · intro h
      exact ⟨_, _, _, rfl, hn, ha, h⟩
  | returnNothing hr hn =>
    rw [State.ahead_advance_eq_cons (by simp [hn]), Language.sentences_return_semicolon_iff
      (ruleForStatement_standard_eq_return_iff.mp hr) hn]
    exact (and_iff_right rfl).symm
  | returnValue hr hn h =>
    have hkind := ruleForStatement_standard_eq_return_iff.mp hr
    rw [Language.sentences_return_value_iff hkind fun c hc => ?_,
      h.valueAhead_iff hs (by simp [hkind]) hk]
    obtain ⟨xs, hxs⟩ := List.head?_eq_some_iff.mp hc
    rwa [State.next_of_ahead_advance hxs] at hn
  | expression hr h =>
    obtain ⟨hlet, hreturn⟩ := ruleForStatement_standard_eq_expression_iff.mp hr
    rw [Language.sentences_expression_iff hlet hreturn, ← State.ahead_eq_cons hk,
      h.operandAhead_iff hs, State.errors_passSemicolon]
  | expressionHole hr h =>
    obtain ⟨hlet, hreturn⟩ := ruleForStatement_standard_eq_expression_iff.mp hr
    rw [Language.sentences_expression_iff hlet hreturn, ← State.ahead_eq_cons hk]
    refine iff_of_false (h.not_operandAhead hs) fun hand => ?_
    exact (State.Precedes.refl s).errors_ne_of_record (.passSemicolon _) hand.1

/-! ## Programs -/

theorem errors_statements_eq_iff {n : Nat} (hn : s.tokensLeft ≤ n) (hs : s.Lexed) :
    (standard.statements config n s).2.errors = s.errors ↔
      Sentences config.values s.tokens.ahead := by
  induction n generalizing s with
  | zero =>
    have hnil : s.tokens.ahead = [] := List.eq_nil_of_length_eq_zero (Nat.le_zero.mp hn)
    rw [hnil]
    exact iff_of_true rfl .nil
  | succ n ih =>
    by_cases hk : s.current.kind = .endOfInput
    · rw [statements, if_pos hk, State.ahead_eq_nil hs hk]
      exact iff_of_true rfl .nil
    · obtain ⟨st, t, hst, heq⟩ := standard_plain.statements_succ config n hk
      have hprec : s.Precedes t := (State.Precedes.note s _).trans hst.precedes
      have hle := hprec.tokensLeft_le
      have hpos := State.tokensLeft_pos hk
      have hstep := hst.sentences_iff hs hk
      have hrun := ih (s := t.advance) (by rw [State.tokensLeft_advance]; omega)
        (((hprec.trans (.advance t))).lexed hs)
      rw [State.tokens_note, State.errors_note] at hstep
      rw [State.errors_advance] at hrun
      rw [heq, hstep, ← hrun]
      have hrest : t.Precedes (standard.statements config n t.advance).2 :=
        (State.Precedes.advance t).trans (standard_plain.statements_precedes config n _)
      constructor
      · intro he
        exact ⟨hprec.errors_eq_left hrest he, hprec.errors_eq_right hrest he⟩
      · rintro ⟨he, he'⟩
        exact he'.trans he

end Grammar

/-- **A source has no errors exactly if its tokens are a program of the language.** -/
theorem errors_parse_eq_empty_iff (config : Config) (source : Source) :
    (parse config source).2.errors = #[] ↔ Sentences config.values (tokenize source).dropLast := by
  have htokens : (tokenize source).dropLast = (Token.Stream.ofSource source).ahead :=
    List.dropLast_concat
  rw [htokens]
  exact Grammar.errors_statements_eq_iff
    (s := (State.start (.ofSource source)).note (.started (Token.Stream.ofSource source).stop.file))
    (Nat.le_refl _) fun x hx => Token.Stream.lexed_of_mem_ofSource hx

end PrattFrontend
