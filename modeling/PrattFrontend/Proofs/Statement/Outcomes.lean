import PrattFrontend.Parser.Program
import PrattFrontend.Proofs.Expression.Growth

/-!
# The outcomes of statements

What parsing a statement comes to is said as a relation between the state before it, the statement,
if there is one, and the state behind it. There is one case for each way in which a statement can
be read, lack its value, or fail.

* `Grammar.Values`: the outcomes of the value of a binding or a return;
* **`Grammar.Performs`**: the outcomes of a statement;
* **`Grammar.Plain.performs_statement`**: the parser has no others;
* `Token.Stream.begin`: where a run over the statements of a stream starts;
* `Grammar.Plain.statements_succ`: a run over statements, one turn at a time.
-/

namespace PrattFrontend

/-- The state in which the first statement of a stream is started. -/
def Token.Stream.begin (T : Token.Stream) : State :=
  (State.start T).note (.started T.stop.file)

namespace Grammar

variable (g : Grammar) (config : Config)

/-- The outcomes of the value behind the current token: it is passed over, read, or refused. -/
inductive Values (s : State) : Option Expr → State → Prop
  | skipped (hv : config.values = .skip) : Values s none s.skipToSemicolon
  | read {e t} (hv : config.values = .parse) (h : g.Reads .lowest s.advance e t) :
      Values s (some e) t.passSemicolon
  | refused {err} (hv : config.values = .parse) (h : g.Refuses s.advance err) :
      Values s none (s.advance.record err).skipToSemicolon

/-- **The outcomes of a statement.** A binding fails without a name or a sign; nothing else fails. -/
inductive Performs (s : State) : Option Statement → State → Prop
  | letNoName (hr : g.ruleForStatement s.current.kind = Rule.letStatement)
      (hn : s.next.kind ≠ .identifier) :
      Performs s none (recover config
        (s.record ⟨.unexpectedToken .identifier s.next.kind, s.next.span.start⟩))
  | letNoSign (hr : g.ruleForStatement s.current.kind = Rule.letStatement)
      (hn : s.next.kind = .identifier) (ha : s.advance.next.kind ≠ .assign) :
      Performs s none (recover config (s.advance.record
        ⟨.unexpectedToken .assign s.advance.next.kind, s.advance.next.span.start⟩))
  | letValue {v t} (hr : g.ruleForStatement s.current.kind = Rule.letStatement)
      (hn : s.next.kind = .identifier) (ha : s.advance.next.kind = .assign)
      (h : g.Values config s.advance.advance v t) :
      Performs s (some (.letValue s.current (.ofToken s.next) v)) t
  | returnNothing (hr : g.ruleForStatement s.current.kind = Rule.returnStatement)
      (hn : s.next.kind = .semicolon) :
      Performs s (some (.returnValue s.current none)) s.advance
  | returnValue {v t} (hr : g.ruleForStatement s.current.kind = Rule.returnStatement)
      (hn : s.next.kind ≠ .semicolon) (h : g.Values config s v t) :
      Performs s (some (.returnValue s.current v)) t
  | expression {e t} (hr : g.ruleForStatement s.current.kind = Rule.expressionStatement)
      (h : g.Reads .lowest s e t) :
      Performs s (some (.expression s.current (some e))) t.passSemicolon
  | expressionHole {err} (hr : g.ruleForStatement s.current.kind = Rule.expressionStatement)
      (h : g.Refuses s err) :
      Performs s (some (.expression s.current none)) (s.record err).passSemicolon

variable {g config} {s t : State}

theorem recover_precedes (config : Config) (s : State) : s.Precedes (recover config s) := by
  unfold recover
  split
  · exact .refl s
  · exact .skipToSemicolon s

theorem Values.precedes {v : Option Expr} (h : g.Values config s v t) : s.Precedes t := by
  cases h with
  | skipped => exact .skipToSemicolon s
  | read _ h =>
    exact (State.Precedes.advance s).trans (h.1.precedes.trans (.passSemicolon _))
  | refused => exact ((State.Precedes.advance s).trans (.record _ _)).trans (.skipToSemicolon _)

theorem Performs.precedes {st : Option Statement} (h : g.Performs config s st t) :
    s.Precedes t := by
  cases h with
  | letNoName => exact (State.Precedes.record s _).trans (recover_precedes _ _)
  | letNoSign =>
    exact ((State.Precedes.advance s).trans (.record _ _)).trans (recover_precedes _ _)
  | letValue _ _ _ h => exact ((State.Precedes.advance s).trans (.advance _)).trans h.precedes
  | returnNothing => exact .advance s
  | returnValue _ _ h => exact h.precedes
  | expression _ h => exact h.1.precedes.trans (.passSemicolon _)
  | expressionHole => exact (State.Precedes.record s _).trans (.passSemicolon _)

theorem Performs.token_eq {st : Statement} (h : g.Performs config s (some st) t) :
    st.token = s.current := by
  cases h <;> rfl

theorem statements_of_endOfInput (config : Config) (hk : s.current.kind = .endOfInput) (n : Nat) :
    g.statements config n s = ([], s) := by
  cases n with
  | zero => rfl
  | succ n => rw [statements, if_pos hk]

theorem statements_precedes_of_statement
    (hst : ∀ s : State, s.Precedes (g.statement config s).2) (n : Nat) (s : State) :
    s.Precedes (g.statements config n s).2 := by
  induction n generalizing s with
  | zero => exact .refl s
  | succ n ih =>
    by_cases hk : s.current.kind = .endOfInput
    · rw [statements_of_endOfInput config hk]
      exact .refl s
    · rw [statements, if_neg hk]
      exact ((hst s).trans (.advance _)).trans (ih _)

namespace Plain

variable (hg : g.Plain)
include hg

theorem values_statementValue (config : Config) (s : State) :
    g.Values config s (Rule.statementValue config g.expression s).1
      (Rule.statementValue config g.expression s).2 := by
  unfold Rule.statementValue
  cases hv : config.values with
  | skip => exact .skipped hv
  | parse =>
    have hans := hg.answers_expression .lowest s.advance
    simp only
    generalize g.expression .lowest s.advance = o at hans
    cases hans with
    | read h => exact .read hv h
    | refused h => exact .refused hv h

theorem ruleForStatement_cases (k : Token.Kind) :
    g.ruleForStatement k = Rule.letStatement ∨ g.ruleForStatement k = Rule.returnStatement ∨
      g.ruleForStatement k = Rule.expressionStatement := by
  unfold ruleForStatement
  cases h : g.statementRule? k with
  | none => exact .inr (.inr rfl)
  | some r => exact hg.statementRule h

/-- **Every statement has one of the outcomes.** -/
theorem performs_statement (config : Config) (s : State) :
    g.Performs config (s.note (.statement s.current.kind)) (g.statement config s).1
      (g.statement config s).2 := by
  set s' := s.note (.statement s.current.kind) with hs'
  rcases hg.ruleForStatement_cases s.current.kind with hr | hr | hr
  · by_cases hn : s'.next.kind = .identifier
    · by_cases ha : s'.advance.next.kind = .assign
      · simp only [statement, ← hs', hr, Rule.letStatement, State.expectNext, hn, ha, if_true,
          State.current_advance]
        exact .letValue hr hn ha (hg.values_statementValue config _)
      · simp only [statement, ← hs', hr, Rule.letStatement, State.expectNext, hn, ha, if_true,
          if_false]
        exact .letNoSign hr hn ha
    · simp only [statement, ← hs', hr, Rule.letStatement, State.expectNext, hn, if_false]
      exact .letNoName hr hn
  · by_cases hn : s'.next.kind = .semicolon
    · simp only [statement, ← hs', hr, Rule.returnStatement, hn, if_true]
      exact .returnNothing hr hn
    · simp only [statement, ← hs', hr, Rule.returnStatement, hn, if_false]
      exact .returnValue hr hn (hg.values_statementValue config _)
  · simp only [statement, ← hs', hr, Rule.expressionStatement]
    have hans := hg.answers_expression .lowest s'
    generalize g.expression .lowest s' = o at hans
    cases hans with
    | read h => exact .expression hr h
    | refused h => exact .expressionHole hr h

/-! ## Whole runs -/

theorem statements_succ (config : Config) {s : State} (n : Nat)
    (hk : s.current.kind ≠ .endOfInput) :
    ∃ st t, g.Performs config (s.note (.statement s.current.kind)) st t ∧
      g.statements config (n + 1) s =
        (st.toList ++ (g.statements config n t.advance).1, (g.statements config n t.advance).2) := by
  refine ⟨_, _, hg.performs_statement config s, ?_⟩
  rw [statements, if_neg hk]

theorem statement_precedes (config : Config) (s : State) :
    s.Precedes (g.statement config s).2 :=
  (State.Precedes.note s _).trans (hg.performs_statement config s).precedes

theorem statements_precedes (config : Config) (n : Nat) (s : State) :
    s.Precedes (g.statements config n s).2 :=
  statements_precedes_of_statement (hg.statement_precedes config) n s

theorem statements_eq_of_le (config : Config) {m n : Nat} {s : State} (hm : s.tokensLeft ≤ m)
    (hn : s.tokensLeft ≤ n) : g.statements config m s = g.statements config n s := by
  induction m generalizing n s with
  | zero =>
    have hk : s.current.kind = .endOfInput := State.kind_get_of_length_le hm
    rw [statements_of_endOfInput config hk, statements_of_endOfInput config hk]
  | succ m ih =>
    by_cases hk : s.current.kind = .endOfInput
    · rw [statements_of_endOfInput config hk, statements_of_endOfInput config hk]
    · have hpos := State.tokensLeft_pos hk
      have hle := (hg.performs_statement config s).precedes.tokensLeft_le
      change (g.statement config s).2.tokensLeft ≤ s.tokensLeft at hle
      obtain ⟨n, rfl⟩ : ∃ k, n = k + 1 := ⟨n - 1, by omega⟩
      have hrest := ih (n := n) (s := (g.statement config s).2.advance)
        (by rw [State.tokensLeft_advance]; omega) (by rw [State.tokensLeft_advance]; omega)
      simp only [statements, if_neg hk, hrest]

end Plain

end Grammar

end PrattFrontend
