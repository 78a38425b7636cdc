import PrattFrontend.Proofs.Statement.Holes

/-!
# Where recovery makes a difference

How to recover is asked behind a statement that failed and nowhere else. So two parsers that differ
in it do the same up to the first statement that fails, and the same to the end if none does.

* `Turn.Settled`: how a turn ends, as its errors tell;
* `Grammar.Plain.statement_cases`: one statement, parsed with two ways to recover;
* `Turn.FailsLike`: two turns that fail in the same way;
* `Grammar.turns_cases`: two runs, turn by turn;
* **`parse_recovery`**: sources.
-/

namespace PrattFrontend

open Grammar (standard standard_plain)

variable {config config' : Config} {s t : State}

/-! ## How a turn ends -/

/-- **A turn is settled**: it gave a statement and all its errors are refusals, or it failed with a
single error, which is none. -/
inductive Turn.Settled (turn : Turn) : Prop
  | given (hst : turn.statement ≠ none) (herrs : ∀ e ∈ turn.errors, e.isRefusal = true)
  | failed {e : ParseError} (hst : turn.statement = none) (herrs : turn.errors = [e])
      (he : e.isRefusal = false)

namespace Grammar

theorem Performs.settled {st : Option Statement}
    (h : standard.Performs config (s.note (.statement s.current.kind)) st t) :
    Turn.Settled ⟨s, st, t⟩ := by
  cases st with
  | none =>
    obtain ⟨expected, actual, position, herrs⟩ := h.errors_of_none
    exact .failed rfl (Turn.errors_eq herrs) rfl
  | some st =>
    obtain ⟨b, errs, -, -, herrs, hacc⟩ := h.leavesHoles (T := s.tokens) (a := 0) rfl
    have hturn : Turn.errors ⟨s, some st, t⟩ = errs := Turn.errors_eq herrs
    exact .given nofun (hturn ▸ hacc.isRefusal)

theorem settled_of_mem_turns (config : Config) (n : Nat) (s : State) :
    ∀ turn ∈ standard.turns config n s, turn.Settled :=
  standard_plain.forall_mem_turns config (Q := fun _ => True)
    (fun _ _ hst => ⟨hst.settled, trivial⟩) n trivial

/-! ## One statement -/

namespace Plain

variable {g : Grammar} (hg : g.Plain)
include hg

theorem ruleForStatement_eq_of_values (hv : config.values = config'.values) (k : Token.Kind) :
    g.ruleForStatement k config = g.ruleForStatement k config' := by
  have hvalue : Rule.statementValue config = Rule.statementValue config' := by
    funext expr s
    rw [Rule.statementValue, hv, Rule.statementValue]
  rcases hg.ruleForStatement_cases k with hr | hr | hr
  · rw [hr]
    funext expr s
    rw [Rule.letStatement, hvalue, Rule.letStatement]
  · rw [hr]
    funext expr s
    rw [Rule.returnStatement, hvalue, Rule.returnStatement]
  · rw [hr]
    rfl

/-- **A statement is parsed alike in both ways to recover**, or fails in both. -/
theorem statement_cases (hv : config.values = config'.values) (s : State) :
    (∃ st t, g.statement config s = (some st, t) ∧ g.statement config' s = (some st, t)) ∨
      ∃ t, g.statement config s = (none, recover config t) ∧
        g.statement config' s = (none, recover config' t) := by
  simp only [statement, hg.ruleForStatement_eq_of_values hv]
  split
  · exact .inl ⟨_, _, rfl, rfl⟩
  · exact .inr ⟨_, rfl, rfl⟩

end Plain

end Grammar

/-! ## Runs -/

/-- Two turns **fail alike** with an error if they start in the same state, give no statement, and
record that error and no other. -/
structure Turn.FailsLike (e : ParseError) (turn turn' : Turn) : Prop where
  start_eq : turn.start = turn'.start
  statement_eq : turn.statement = none ∧ turn'.statement = none
  errors_eq : turn.errors = [e] ∧ turn'.errors = [e]

namespace Grammar

theorem exists_failsLike (config' : Config)
    (h : standard.statement config s = (none, recover config t)) :
    ∃ e, e.isRefusal = false ∧
      Turn.FailsLike e ⟨s, none, recover config t⟩ ⟨s, none, recover config' t⟩ := by
  have hst := standard_plain.performs_statement config s
  rw [h] at hst
  obtain ⟨expected, actual, position, herrs⟩ := hst.errors_of_none
  refine ⟨_, rfl, rfl, ⟨rfl, rfl⟩, Turn.errors_eq herrs, Turn.errors_eq ?_⟩
  rw [errors_recover] at herrs ⊢
  exact herrs

/-- **Two runs that differ in how they recover** part where both fail alike. -/
theorem turns_cases (hv : config.values = config'.values) (n : Nat) (s : State) :
    ((∀ turn ∈ standard.turns config n s, turn.statement ≠ none) ∧
        standard.turns config n s = standard.turns config' n s ∧
        standard.statements config n s = standard.statements config' n s) ∨
      ∃ same turn turn' rest rest' e, (∀ turn ∈ same, turn.statement ≠ none) ∧
        e.isRefusal = false ∧ turn.FailsLike e turn' ∧
        standard.turns config n s = same ++ turn :: rest ∧
        standard.turns config' n s = same ++ turn' :: rest' := by
  induction n generalizing s with
  | zero => exact .inl ⟨by simp [turns], rfl, rfl⟩
  | succ n ih =>
    by_cases hk : s.current.kind = .endOfInput
    · simp [turns, statements, hk]
    · rcases standard_plain.statement_cases hv s with ⟨st, t, h, h'⟩ | ⟨t, h, h'⟩
      · simp only [turns, statements, if_neg hk, h, h']
        rcases ih t.advance with ⟨hgiven, hturns, hsts⟩ | hpart
        · rw [hturns] at hgiven
          rw [hturns, hsts]
          exact .inl ⟨List.forall_mem_cons.mpr ⟨Option.some_ne_none st, hgiven⟩, rfl, rfl⟩
        · obtain ⟨same, turn, turn', rest, rest', e, hsame, he, hfails, hturns, hturns'⟩ := hpart
          rw [hturns, hturns']
          exact .inr ⟨⟨s, some st, t⟩ :: same, turn, turn', rest, rest', e,
            List.forall_mem_cons.mpr ⟨Option.some_ne_none st, hsame⟩, he, hfails, rfl, rfl⟩
      · obtain ⟨e, he, hfails⟩ := exists_failsLike config' h
        simp only [turns, if_neg hk, h, h']
        exact .inr ⟨[], _, _, _, _, e, by simp, he, hfails, rfl, rfl⟩

end Grammar

/-! ## Sources -/

theorem Turn.isRefusal_of_settled {turns : List Turn} (hsettled : ∀ turn ∈ turns, turn.Settled)
    (hgiven : ∀ turn ∈ turns, turn.statement ≠ none) :
    ∀ e ∈ turns.flatMap Turn.errors, e.isRefusal = true := by
  intro e he
  obtain ⟨turn, hturn, hmem⟩ := List.mem_flatMap.mp he
  cases hsettled turn hturn with
  | given _ herrs => exact herrs e hmem
  | failed hst => exact absurd hst (hgiven turn hturn)

theorem parse_eq_of_statements_eq {source : Source}
    (h : standard.statements config (Token.Stream.ofSource source).ahead.length
        (Token.Stream.ofSource source).begin =
      standard.statements config' (Token.Stream.ofSource source).ahead.length
        (Token.Stream.ofSource source).begin) :
    parse config source = parse config' source := by
  simp only [parse, Grammar.program]
  exact congrArg (fun run : List Statement × State =>
    (Program.mk run.1, run.2.note (.finished run.1.length run.2.errors.size))) h

theorem parse_eq_of_failed {source : Source} {before behind : List Turn} {turn : Turn}
    {e : ParseError} (hturns : parseTurns config source = before ++ turn :: behind)
    (hst : turn.statement = none) (he : turn.errors = [e]) :
    (parse config source).2.errors.toList =
        before.flatMap Turn.errors ++ e :: behind.flatMap Turn.errors ∧
      (parse config source).1.statements =
        before.filterMap Turn.statement ++ behind.filterMap Turn.statement := by
  constructor
  · rw [errors_parse_eq, hturns, List.flatMap_append, List.flatMap_cons, he]
    rfl
  · rw [statements_parse_eq, hturns, List.filterMap_append, List.filterMap_cons_none hst]

/-- **How to recover makes a difference only from the first statement on that fails.** -/
theorem parse_recovery (values : ValueMode) (source : Source) :
    let here : Config := ⟨values, .advance⟩
    let later : Config := ⟨values, .semicolon⟩
    let errors := fun config => (parse config source).2.errors.toList
    let statements := fun config => (parse config source).1.statements
    ((∀ e ∈ errors here, e.isRefusal = true) ↔ ∀ e ∈ errors later, e.isRefusal = true) ∧
    ((∀ e ∈ errors here, e.isRefusal = true) → parse here source = parse later source) ∧
    ((∃ e ∈ errors here, e.isRefusal = false) →
      ∃ same turn turn' rest rest' e,
        parseTurns here source = same ++ turn :: rest ∧
        parseTurns later source = same ++ turn' :: rest' ∧
        (∀ turn ∈ same, turn.statement ≠ none) ∧ turn.FailsLike e turn' ∧
        (∀ e ∈ same.flatMap Turn.errors, e.isRefusal = true) ∧ e.isRefusal = false ∧
        errors here = same.flatMap Turn.errors ++ e :: rest.flatMap Turn.errors ∧
        errors later = same.flatMap Turn.errors ++ e :: rest'.flatMap Turn.errors ∧
        statements here = same.filterMap Turn.statement ++ rest.filterMap Turn.statement ∧
        statements later = same.filterMap Turn.statement ++ rest'.filterMap Turn.statement) := by
  intro here later errors statements
  have hsettled : ∀ turn ∈ parseTurns here source, turn.Settled :=
    Grammar.settled_of_mem_turns here _ _
  have herrors : ∀ config, errors config = (parseTurns config source).flatMap Turn.errors :=
    fun config => errors_parse_eq config source
  have hvalues : here.values = later.values := rfl
  rcases Grammar.turns_cases hvalues (Token.Stream.ofSource source).ahead.length
    (Token.Stream.ofSource source).begin with
    ⟨hgiven, hturns, hsts⟩ | ⟨same, turn, turn', rest, rest', e, hsame, he, hfails, hturns, hturns'⟩
  · -- no statement fails
    change parseTurns here source = parseTurns later source at hturns
    have hrefusal : ∀ e ∈ errors here, e.isRefusal = true := by
      rw [herrors]
      exact Turn.isRefusal_of_settled hsettled hgiven
    have heq := parse_eq_of_statements_eq hsts
    refine ⟨by rw [herrors, herrors, hturns], fun _ => heq, ?_⟩
    rintro ⟨e, hmem, he⟩
    rw [hrefusal e hmem] at he
    cases he
  · -- the first statement that fails does so for both
    change parseTurns here source = same ++ turn :: rest at hturns
    change parseTurns later source = same ++ turn' :: rest' at hturns'
    obtain ⟨herrs, hsts⟩ :=
      parse_eq_of_failed hturns hfails.statement_eq.1 hfails.errors_eq.1
    obtain ⟨herrs', hsts'⟩ :=
      parse_eq_of_failed hturns' hfails.statement_eq.2 hfails.errors_eq.2
    have hno : ∀ config, e ∈ errors config → ¬∀ e ∈ errors config, e.isRefusal = true := by
      intro config hmem h
      rw [h e hmem] at he
      cases he
    have hnohere := hno here (by simp [errors, herrs])
    have hnolater := hno later (by simp [errors, herrs'])
    have hrefusal := Turn.isRefusal_of_settled
      (fun turn hturn => hsettled turn (hturns ▸ List.mem_append_left _ hturn)) hsame
    exact ⟨iff_of_false hnohere hnolater, fun h => absurd h hnohere, fun _ =>
      ⟨same, turn, turn', rest, rest', e, hturns, hturns', hsame, hfails, hrefusal, he, herrs,
        herrs', hsts, hsts'⟩⟩

/-- A source with two bindings that lack their names, and an error before the first. -/
def twiceNameless : Source :=
  .ofText "a + ; let = 5; b let 7 - c; d" none

/-- The sample comes to two programs, with the same first two errors. -/
theorem parse_recovery_twiceNameless :
    (∃ e ∈ (parse ⟨.parse, .advance⟩ twiceNameless).2.errors.toList, e.isRefusal = false) ∧
      (parse ⟨.parse, .advance⟩ twiceNameless).1.code = "(a + )\n\n5\nb\n(7 - c)\nd" ∧
      (parse ⟨.parse, .semicolon⟩ twiceNameless).1.code = "(a + )\nb\nd" ∧
      ∃ errs e more more', (∀ e ∈ errs, e.isRefusal = true) ∧ e.isRefusal = false ∧
        (parse ⟨.parse, .advance⟩ twiceNameless).2.errors.toList = errs ++ e :: more ∧
        (parse ⟨.parse, .semicolon⟩ twiceNameless).2.errors.toList = errs ++ e :: more' := by
  have hfails : ∃ e ∈ (parse ⟨.parse, .advance⟩ twiceNameless).2.errors.toList,
      e.isRefusal = false := by
    decide +kernel
  obtain ⟨same, -, -, rest, rest', e, -, -, -, -, hrefusal, he, herrs, herrs', -⟩ :=
    (parse_recovery .parse twiceNameless).2.2 hfails
  exact ⟨hfails, by decide +kernel, by decide +kernel, _, e, _, _, hrefusal, he, herrs, herrs'⟩

end PrattFrontend
