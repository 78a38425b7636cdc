import PrattFrontend.Proofs.Rendering.Grouping

/-!
# Statements with parentheses

What the grammar that reads parentheses does with statements, where it finds no error.

* **`Grammar.Completes`**: the statements that are parsed without an error, with the states before
  and behind them;
* `Grammar.completes_or_errors_ne`, `Grammar.Completes.statement_eq`: they are all of them;
* **`Grammar.Finishes`**: whole runs without an error;
* **`parseGrouping`**, `parseGrouping_iff`: sources.
-/

namespace PrattFrontend

namespace Grammar

variable {s t : State}

/-! ## Statements -/

/-- The outcomes without an error of the value behind the current token. -/
inductive Fills (config : Config) (s : State) : Option Expr → State → Prop
  | skipped (hv : config.values = .skip) : Fills config s none s.skipToSemicolon
  | formed {e : Expr} {t : State} (hv : config.values = .parse) (h : Forms .lowest s.advance e t)
      (stops : standard.nextOperator? .lowest t = none) : Fills config s (some e) t.passSemicolon

/-- **The outcomes of a statement without an error.** -/
inductive Completes (config : Config) (s : State) : Statement → State → Prop
  | letValue {v : Option Expr} {t : State} (hk : s.current.kind = .letWord)
      (hn : s.next.kind = .identifier) (ha : s.advance.next.kind = .assign)
      (h : Fills config s.advance.advance v t) :
      Completes config s (.letValue s.current (.ofToken s.next) v) t
  | returnNothing (hk : s.current.kind = .returnWord) (hn : s.next.kind = .semicolon) :
      Completes config s (.returnValue s.current none) s.advance
  | returnValue {v : Option Expr} {t : State} (hk : s.current.kind = .returnWord)
      (hn : s.next.kind ≠ .semicolon) (h : Fills config s v t) :
      Completes config s (.returnValue s.current v) t
  | expression {e : Expr} {t : State}
      (hk : s.current.kind ≠ .letWord ∧ s.current.kind ≠ .returnWord)
      (h : Forms .lowest s e t) (stops : standard.nextOperator? .lowest t = none) :
      Completes config s (.expression s.current (some e)) t.passSemicolon

variable {config : Config} {st : Statement}

theorem Fills.errors_eq {v : Option Expr} (h : Fills config s v t) : t.errors = s.errors := by
  cases h with
  | skipped => exact State.errors_advanceBy _ _
  | formed _ h =>
    rw [State.errors_passSemicolon]
    exact h.errors_eq

theorem Fills.precedes {v : Option Expr} (h : Fills config s v t) : s.Precedes t := by
  cases h with
  | skipped => exact .skipToSemicolon s
  | formed _ h => exact ((State.Precedes.advance s).trans h.precedes).trans (.passSemicolon _)

theorem Completes.errors_eq (h : Completes config s st t) : t.errors = s.errors := by
  cases h with
  | letValue _ _ _ h => exact h.errors_eq
  | returnNothing => rfl
  | returnValue _ _ h => exact h.errors_eq
  | expression _ h =>
    rw [State.errors_passSemicolon]
    exact h.errors_eq

theorem Completes.precedes (h : Completes config s st t) : s.Precedes t := by
  cases h with
  | letValue _ _ _ h => exact ((State.Precedes.advance s).trans (.advance _)).trans h.precedes
  | returnNothing => exact .advance s
  | returnValue _ _ h => exact h.precedes
  | expression _ h => exact h.precedes.trans (.passSemicolon _)

theorem fills_or_errors_ne (config : Config) (s : State) :
    Fills config s (Rule.statementValue config grouping.expression s).1
        (Rule.statementValue config grouping.expression s).2 ∨
      s.Precedes (Rule.statementValue config grouping.expression s).2 ∧
        (Rule.statementValue config grouping.expression s).2.errors ≠ s.errors := by
  unfold Rule.statementValue
  cases hv : config.values with
  | skip => exact .inl (.skipped hv)
  | parse =>
    have hadv := State.Precedes.advance s
    have hyields := yields_expression_grouping .lowest s.advance
    simp only
    generalize grouping.expression .lowest s.advance = o at hyields
    cases hyields with
    | formed h stops => exact .inl (.formed hv h stops)
    | @failed err t h =>
      exact .inr ⟨((hadv.trans h).trans (.record t err)).trans (.skipToSemicolon _),
        (hadv.trans h).errors_ne_of_record (.skipToSemicolon _)⟩
    | @faulty e t h hne =>
      exact .inr ⟨(hadv.trans h).trans (.passSemicolon t), by rwa [State.errors_passSemicolon]⟩

/-- **A statement is completed, or there is an error.** -/
theorem completes_or_errors_ne (config : Config) (s : State) :
    (∃ st, (grouping.statement config s).1 = some st ∧
      Completes config (s.note (.statement s.current.kind)) st (grouping.statement config s).2) ∨
    s.Precedes (grouping.statement config s).2 ∧
      (grouping.statement config s).2.errors ≠ s.errors := by
  set s' := s.note (.statement s.current.kind) with hs'
  have hprec : s.Precedes s' := .note s _
  by_cases hlet : s.current.kind = .letWord
  · have hr : grouping.ruleForStatement s.current.kind = Rule.letStatement :=
      ruleForStatement_standard_eq_let_iff.mpr hlet
    by_cases hn : s'.next.kind = .identifier
    · by_cases ha : s'.advance.next.kind = .assign
      · simp only [statement, ← hs', hr, Rule.letStatement, State.expectNext, hn, ha, if_true,
          State.current_advance]
        rcases fills_or_errors_ne config s'.advance.advance with h | ⟨h, hne⟩
        · exact .inl ⟨_, rfl, .letValue hlet hn ha h⟩
        · exact .inr ⟨hprec.trans (((State.Precedes.advance s').trans (.advance _)).trans h), hne⟩
      · simp only [statement, ← hs', hr, Rule.letStatement, State.expectNext, hn, ha, if_true,
          if_false]
        have hadv : s.Precedes s'.advance := hprec.trans (.advance s')
        exact .inr ⟨(hadv.trans (.record _ _)).trans (recover_precedes _ _),
          hadv.errors_ne_of_record (recover_precedes _ _)⟩
    · simp only [statement, ← hs', hr, Rule.letStatement, State.expectNext, hn, if_false]
      exact .inr ⟨(hprec.trans (.record _ _)).trans (recover_precedes _ _),
        hprec.errors_ne_of_record (recover_precedes _ _)⟩
  · by_cases hret : s.current.kind = .returnWord
    · have hr : grouping.ruleForStatement s.current.kind = Rule.returnStatement :=
        ruleForStatement_standard_eq_return_iff.mpr hret
      by_cases hn : s'.next.kind = .semicolon
      · simp only [statement, ← hs', hr, Rule.returnStatement, hn, if_true]
        exact .inl ⟨_, rfl, .returnNothing hret hn⟩
      · simp only [statement, ← hs', hr, Rule.returnStatement, hn, if_false]
        rcases fills_or_errors_ne config s' with h | ⟨h, hne⟩
        · exact .inl ⟨_, rfl, .returnValue hret hn h⟩
        · exact .inr ⟨hprec.trans h, hne⟩
    · have hr : grouping.ruleForStatement s.current.kind = Rule.expressionStatement :=
        ruleForStatement_standard_eq_expression_iff.mpr ⟨hlet, hret⟩
      have hyields := yields_expression_grouping .lowest s'
      simp only [statement, ← hs', hr, Rule.expressionStatement]
      generalize grouping.expression .lowest s' = o at hyields
      cases hyields with
      | formed h stops => exact .inl ⟨_, rfl, .expression ⟨hlet, hret⟩ h stops⟩
      | @failed err t h =>
        exact .inr ⟨((hprec.trans h).trans (.record t err)).trans (.passSemicolon _),
          (hprec.trans h).errors_ne_of_record (.passSemicolon _)⟩
      | @faulty e t h hne =>
        exact .inr ⟨(hprec.trans h).trans (.passSemicolon t), by rwa [State.errors_passSemicolon]⟩

theorem Fills.statementValue_eq {v : Option Expr} (h : Fills config s v t) :
    Rule.statementValue config grouping.expression s = (v, t) := by
  unfold Rule.statementValue
  cases h with
  | skipped hv => simp only [hv]
  | formed hv h stops =>
    simp only [hv, (expression_grouping_eq_ok_iff.mpr ⟨h, stops⟩).1]

theorem Completes.statement_eq
    (h : Completes config (s.note (.statement s.current.kind)) st t) :
    grouping.statement config s = (some st, t) := by
  set s' := s.note (.statement s.current.kind) with hs'
  have hcur : s.current = s'.current := rfl
  rw [statement, ← hs', hcur]
  cases h with
  | letValue hk hn ha h =>
    have hr := ruleForStatement_standard_eq_let_iff.mpr hk
    rw [← ruleForStatement_grouping] at hr
    simp only [hr, Rule.letStatement, State.expectNext, if_pos hn, if_pos ha, h.statementValue_eq,
      State.current_advance]
  | returnNothing hk hn =>
    have hr := ruleForStatement_standard_eq_return_iff.mpr hk
    rw [← ruleForStatement_grouping] at hr
    simp only [hr, Rule.returnStatement, if_pos hn]
  | returnValue hk hn h =>
    have hr := ruleForStatement_standard_eq_return_iff.mpr hk
    rw [← ruleForStatement_grouping] at hr
    simp only [hr, Rule.returnStatement, if_neg hn, h.statementValue_eq]
  | expression hk h stops =>
    have hr := ruleForStatement_standard_eq_expression_iff.mpr hk
    rw [← ruleForStatement_grouping] at hr
    simp only [hr, Rule.expressionStatement, (expression_grouping_eq_ok_iff.mpr ⟨h, stops⟩).1]

/-! ## Whole runs -/

/-- **A run without an error**: statements are completed one after another up to the end of the
input, and behind each of them one token is passed. -/
inductive Finishes (config : Config) : State → List Statement → State → Prop
  | nil {s : State} (hk : s.current.kind = .endOfInput) : Finishes config s [] s
  | cons {s t u : State} {st : Statement} {sts : List Statement}
      (hk : s.current.kind ≠ .endOfInput)
      (h : Completes config (s.note (.statement s.current.kind)) st t)
      (h' : Finishes config t.advance sts u) : Finishes config s (st :: sts) u

variable {sts : List Statement}

theorem statements_grouping_precedes (config : Config) (n : Nat) (s : State) :
    s.Precedes (grouping.statements config n s).2 := by
  refine statements_precedes_of_statement (fun s => ?_) n s
  rcases completes_or_errors_ne config s with ⟨st, -, h⟩ | ⟨h, -⟩
  · exact (State.Precedes.note s _).trans h.precedes
  · exact h

theorem finishes_of_errors_eq {n : Nat} (hn : s.tokensLeft ≤ n)
    (he : (grouping.statements config n s).2.errors = s.errors) :
    Finishes config s (grouping.statements config n s).1 (grouping.statements config n s).2 := by
  induction n generalizing s with
  | zero => exact .nil (State.kind_get_of_length_le hn)
  | succ n ih =>
    by_cases hk : s.current.kind = .endOfInput
    · rw [statements_of_endOfInput config hk]
      exact .nil hk
    · have hpos := State.tokensLeft_pos hk
      have hrest := (State.Precedes.advance (grouping.statement config s).2).trans
        (statements_grouping_precedes config n _)
      simp only [statements, if_neg hk] at he ⊢
      rcases completes_or_errors_ne config s with ⟨st, hst, h⟩ | ⟨h, hne⟩
      · have hle := h.precedes.tokensLeft_le
        change (grouping.statement config s).2.tokensLeft ≤ s.tokensLeft at hle
        have herrs := h.errors_eq
        rw [State.errors_note] at herrs
        rw [hst]
        refine .cons hk h (ih ?_ ?_)
        · rw [State.tokensLeft_advance]
          omega
        · rw [State.errors_advance, herrs, he]
      · exact absurd (h.errors_eq_left hrest he) hne

theorem Finishes.errors_eq (h : Finishes config s sts t) : t.errors = s.errors := by
  induction h with
  | nil => rfl
  | cons _ h _ ih => exact ih.trans h.errors_eq

theorem Finishes.statements_eq (h : Finishes config s sts t) {n : Nat} (hn : s.tokensLeft ≤ n) :
    grouping.statements config n s = (sts, t) := by
  induction h generalizing n with
  | nil hk => exact statements_of_endOfInput config hk n
  | cons hk h _ ih =>
    have hpos := State.tokensLeft_pos hk
    have hle := ((State.Precedes.note _ _).trans h.precedes).tokensLeft_le
    obtain ⟨n, rfl⟩ : ∃ k, n = k + 1 := ⟨n - 1, by omega⟩
    have hrest := ih (n := n) (by rw [State.tokensLeft_advance]; omega)
    simp only [statements, if_neg hk, h.statement_eq, hrest]
    rfl

end Grammar

/-- **Parses a source** by the standard grammar with a rule for parentheses. -/
def parseGrouping (config : Config) (source : Source) : Program × State :=
  Grammar.grouping.program config (.start (.ofSource source))

/-- **A source is parsed without an error exactly if its statements are completed.** -/
theorem parseGrouping_iff {config : Config} {source : Source} {sts : List Statement} :
    (parseGrouping config source).1.statements = sts ∧
        (parseGrouping config source).2.errors = #[] ↔
      ∃ t, Grammar.Finishes config (Token.Stream.ofSource source).begin sts t := by
  constructor
  · rintro ⟨rfl, he⟩
    exact ⟨_, Grammar.finishes_of_errors_eq (Nat.le_refl _) he⟩
  · rintro ⟨t, h⟩
    have heq := h.statements_eq (Nat.le_refl _)
    exact ⟨congrArg Prod.fst heq, (congrArg (State.errors ∘ Prod.snd) heq).trans h.errors_eq⟩

end PrattFrontend
