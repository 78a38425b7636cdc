import PrattFrontend.Proofs.Expression.Unbounded
import PrattFrontend.Proofs.Statement.Turns

/-!
# Programs without bounds

Statements are parsed, and repeated up to the end of the input, without a bound on how often. Each
of them starts behind the one before, so that this comes to an end.

* `RuleTable.Values`, `RuleTable.Forms`, **`RuleTable.Performs`**: what parsing a statement comes
  to;
* **`RuleTable.Runs`**, `RuleTable.Finishes`: what parsing a program comes to, turn by turn;
* `RuleTable.Ends.performs_iff`, `RuleTable.Ends.runs_iff`: these are the outcomes of the parser
  with bounds;
* `Grammar.Plain.exists_starts`: the turns of a run start one behind the other;
* **`RuleTable.Ends.parsing_ends`**: whatever is parsed.
-/

namespace PrattFrontend

namespace RuleTable

/-! ## Statements -/

/-- What parsing or passing over the value behind the current token comes to. -/
inductive Values (R : RuleTable) (config : Config) (s : State) : Option Expr → State → Prop
  | skipped {t : State} (hv : config.values = .skip) (h : s.Skips t) : Values R config s none t
  | read {e : Expr} {t : State} (hv : config.values = .parse)
      (h : R.Parses .lowest none s.advance (.ok e, t)) : Values R config s (some e) t.passSemicolon
  | failed {err : ParseError} {t u : State} (hv : config.values = .parse)
      (h : R.Parses .lowest none s.advance (.error err, t)) (hskip : (t.record err).Skips u) :
      Values R config s none u

/-- What parsing a statement by the rule with a given name comes to. -/
inductive Forms (R : RuleTable) (config : Config) (s : State) :
    Rule.Form → Outcome Statement → Prop
  | letNoName {err : ParseError} (hn : s.expectNext .identifier = .error err) :
      Forms R config s .letStatement (.error err, s)
  | letNoSign {named : State} {err : ParseError} (hn : s.expectNext .identifier = .ok named)
      (ha : named.expectNext .assign = .error err) :
      Forms R config s .letStatement (.error err, named)
  | letValue {named assigned t : State} {v : Option Expr}
      (hn : s.expectNext .identifier = .ok named) (ha : named.expectNext .assign = .ok assigned)
      (h : R.Values config assigned v t) :
      Forms R config s .letStatement (.ok (.letValue s.current (.ofToken named.current) v), t)
  | returnNothing (hn : s.next.kind = .semicolon) :
      Forms R config s .returnStatement (.ok (.returnValue s.current none), s.advance)
  | returnValue {t : State} {v : Option Expr} (hn : s.next.kind ≠ .semicolon)
      (h : R.Values config s v t) :
      Forms R config s .returnStatement (.ok (.returnValue s.current v), t)
  | expression {e : Expr} {t : State} (h : R.Parses .lowest none s (.ok e, t)) :
      Forms R config s .expressionStatement
        (.ok (.expression s.current (some e)), t.passSemicolon)
  | expressionHole {err : ParseError} {t : State} (h : R.Parses .lowest none s (.error err, t)) :
      Forms R config s .expressionStatement
        (.ok (.expression s.current none), (t.record err).passSemicolon)

/-- Where parsing goes on behind a statement that failed. -/
inductive Recovers (config : Config) (s : State) : State → Prop
  | here (hr : config.recovery = .advance) : Recovers config s s
  | skipped {t : State} (hr : config.recovery = .semicolon) (h : s.Skips t) : Recovers config s t

/-- **What parsing a statement comes to.** -/
inductive Performs (R : RuleTable) (config : Config) (s : State) : Option Statement → State → Prop
  | formed {st : Statement} {t : State}
      (h : R.Forms config (s.note (.statement s.current.kind))
        ((R.form? s.current.kind).getD .expressionStatement) (.ok st, t)) :
      Performs R config s (some st) t
  | failed {err : ParseError} {t u : State}
      (h : R.Forms config (s.note (.statement s.current.kind))
        ((R.form? s.current.kind).getD .expressionStatement) (.error err, t))
      (hrec : Recovers config (t.record err) u) : Performs R config s none u

section

variable {R : RuleTable} {config : Config} {s t : State}

theorem recovers_iff : Recovers config s t ↔ t = Grammar.recover config s := by
  unfold Grammar.recover
  constructor
  · rintro (hr | ⟨hr, h⟩)
    · rw [hr]
    · rw [hr, State.skips_iff.mp h]
  · intro h
    cases hr : config.recovery with
    | advance =>
      rw [hr] at h
      exact h ▸ .here hr
    | semicolon =>
      rw [hr] at h
      exact .skipped hr (State.skips_iff.mpr h)

variable (hR : R.Ends)
include hR

theorem Ends.values_iff {v : Option Expr} :
    R.Values config s v t ↔ (v, t) = Rule.statementValue config R.grammar.expression s := by
  constructor
  · rintro (⟨hv, h⟩ | ⟨hv, h⟩ | ⟨hv, h, hskip⟩)
    · simp only [Rule.statementValue, hv, State.skips_iff.mp h]
    · simp only [Rule.statementValue, hv, ← hR.parses_iff.mp h]
    · simp only [Rule.statementValue, hv, ← hR.parses_iff.mp h, State.skips_iff.mp hskip]
  · intro h
    unfold Rule.statementValue at h
    cases hv : config.values with
    | skip =>
      simp only [hv] at h
      obtain ⟨rfl, rfl⟩ := Prod.mk.inj h
      exact .skipped hv (State.skips_iff.mpr rfl)
    | parse =>
      simp only [hv] at h
      split at h
      · next heq =>
        obtain ⟨rfl, rfl⟩ := Prod.mk.inj h
        exact .read hv (hR.parses_iff.mpr heq.symm)
      · next heq =>
        obtain ⟨rfl, rfl⟩ := Prod.mk.inj h
        exact .failed hv (hR.parses_iff.mpr heq.symm) (State.skips_iff.mpr rfl)

theorem Ends.forms_iff {name : Rule.Form} {o : Outcome Statement} :
    R.Forms config s name o ↔ o = name.rule config R.grammar.expression s := by
  constructor
  · intro h
    cases h with
    | letNoName hn => simp only [Rule.Form.rule, Rule.letStatement, hn]
    | letNoSign hn ha => simp only [Rule.Form.rule, Rule.letStatement, hn, ha]
    | letValue hn ha h =>
      simp only [Rule.Form.rule, Rule.letStatement, hn, ha, ← hR.values_iff.mp h]
    | returnNothing hn => simp only [Rule.Form.rule, Rule.returnStatement, hn, if_true]
    | returnValue hn h =>
      simp only [Rule.Form.rule, Rule.returnStatement, if_neg hn, ← hR.values_iff.mp h]
    | expression h =>
      simp only [Rule.Form.rule, Rule.expressionStatement, ← hR.parses_iff.mp h]
    | expressionHole h =>
      simp only [Rule.Form.rule, Rule.expressionStatement, ← hR.parses_iff.mp h]
  · rintro rfl
    cases name with
    | letStatement =>
      simp only [Rule.Form.rule, Rule.letStatement]
      split
      · next hn => exact .letNoName hn
      · next hn =>
        split
        · next ha => exact .letNoSign hn ha
        · next ha => exact .letValue hn ha (hR.values_iff.mpr rfl)
    | returnStatement =>
      simp only [Rule.Form.rule, Rule.returnStatement]
      split
      · next hn => exact .returnNothing hn
      · next hn => exact .returnValue hn (hR.values_iff.mpr rfl)
    | expressionStatement =>
      simp only [Rule.Form.rule, Rule.expressionStatement]
      split
      · next heq => exact .expression (hR.parses_iff.mpr heq.symm)
      · next heq => exact .expressionHole (hR.parses_iff.mpr heq.symm)

/-- **Parsing a statement comes to an end.** -/
theorem Ends.performs_iff {st : Option Statement} :
    R.Performs config s st t ↔ (st, t) = R.grammar.statement config s := by
  have hrule : ((R.form? s.current.kind).getD .expressionStatement).rule =
      R.grammar.ruleForStatement s.current.kind := by
    change _ = ((R.form? s.current.kind).map Rule.Form.rule).getD Rule.expressionStatement
    cases R.form? s.current.kind <;> rfl
  constructor
  · rintro (h | ⟨h, hrec⟩)
    · simp only [Grammar.statement, ← hrule, ← hR.forms_iff.mp h]
    · simp only [Grammar.statement, ← hrule, ← hR.forms_iff.mp h, recovers_iff.mp hrec]
  · intro h
    simp only [Grammar.statement, ← hrule] at h
    split at h
    · next heq =>
      obtain ⟨rfl, rfl⟩ := Prod.mk.inj h
      exact .formed (hR.forms_iff.mpr heq.symm)
    · next heq =>
      obtain ⟨rfl, rfl⟩ := Prod.mk.inj h
      exact .failed (hR.forms_iff.mpr heq.symm) (recovers_iff.mpr rfl)

end

/-! ## Programs -/

/-- **What parsing statements up to the end of the input comes to**, turn by turn, as often as it
takes. -/
inductive Runs (R : RuleTable) (config : Config) : State → List Turn → State → Prop
  | stop {s : State} (hk : s.current.kind = .endOfInput) : Runs R config s [] s
  | turn {s t u : State} {st : Option Statement} {turns : List Turn}
      (hk : s.current.kind ≠ .endOfInput) (h : R.Performs config s st t)
      (rest : Runs R config t.advance turns u) : Runs R config s (⟨s, st, t⟩ :: turns) u

/-- **What parsing a program comes to**, from the current token on. -/
def Finishes (R : RuleTable) (config : Config) (s : State) (run : Program × State) : Prop :=
  ∃ turns u, R.Runs config (s.note (.started s.tokens.stop.file)) turns u ∧
    run.1.statements = turns.filterMap Turn.statement ∧
    run.2 = u.note (.finished run.1.statements.length u.errors.size)

variable {R : RuleTable} {config : Config} {s u : State} {turns : List Turn}

theorem Runs.kind_current (h : R.Runs config s turns u) : u.current.kind = .endOfInput := by
  induction h with
  | stop hk => exact hk
  | turn _ _ _ ih => exact ih

/-- **A run over statements comes to an end.** -/
theorem Ends.runs_iff (hR : R.Ends) {n : Nat} (hn : s.tokensLeft ≤ n) :
    R.Runs config s turns u ↔
      turns = R.grammar.turns config n s ∧ u = (R.grammar.statements config n s).2 := by
  induction n generalizing s turns with
  | zero =>
    have hk : s.current.kind = .endOfInput := State.kind_get_of_length_le hn
    constructor
    · rintro (_ | ⟨hk', -, -⟩)
      · exact ⟨rfl, rfl⟩
      · exact absurd hk hk'
    · rintro ⟨rfl, rfl⟩
      exact .stop hk
  | succ n ih =>
    rw [Grammar.turns, Grammar.statements]
    by_cases hk : s.current.kind = .endOfInput
    · simp only [if_pos hk]
      constructor
      · rintro (_ | ⟨hk', -, -⟩)
        · exact ⟨rfl, rfl⟩
        · exact absurd hk hk'
      · rintro ⟨rfl, rfl⟩
        exact .stop hk
    · simp only [if_neg hk]
      have hpos := State.tokensLeft_pos hk
      have hle := (hR.plain.statement_precedes config s).tokensLeft_le
      have hleft : (R.grammar.statement config s).2.advance.tokensLeft ≤ n := by
        rw [State.tokensLeft_advance]
        omega
      constructor
      · rintro (hk' | ⟨-, h, rest⟩)
        · exact absurd hk' hk
        · have heq := hR.performs_iff.mp h
          rw [← heq] at hleft ⊢
          obtain ⟨rfl, rfl⟩ := (ih hleft).mp rest
          exact ⟨rfl, rfl⟩
      · rintro ⟨rfl, rfl⟩
        exact .turn hk (hR.performs_iff.mpr rfl) ((ih hleft).mpr ⟨rfl, rfl⟩)

/-- **Parsing a program comes to an end.** -/
theorem Ends.finishes_iff (hR : R.Ends) {run : Program × State} :
    R.Finishes config s run ↔ run = R.grammar.program config s := by
  have hstart : (s.note (.started s.tokens.stop.file)).tokensLeft ≤ s.tokens.ahead.length :=
    Nat.le_refl _
  have hsts := Grammar.statements_fst_eq R.grammar config s.tokens.ahead.length
    (s.note (.started s.tokens.stop.file))
  constructor
  · rintro ⟨turns, u, hrun, hsts', hstop⟩
    obtain ⟨rfl, rfl⟩ := (hR.runs_iff hstart).mp hrun
    obtain ⟨⟨sts⟩, t⟩ := run
    simp only at hsts' hstop
    rw [Grammar.program, hsts, hstop, hsts']
  · rintro rfl
    exact ⟨_, _, (hR.runs_iff hstart).mpr ⟨rfl, rfl⟩, hsts, rfl⟩

end RuleTable

namespace Grammar

variable {g : Grammar}

theorem length_turns_le (config : Config) (n : Nat) (s : State) :
    (g.turns config n s).length ≤ n := by
  induction n generalizing s with
  | zero => exact Nat.le_refl 0
  | succ n ih =>
    rw [turns]
    split
    · exact Nat.zero_le _
    · exact Nat.succ_le_succ (ih _)

/-- **The turns of a run start one behind the other.** -/
theorem Plain.exists_starts (hg : g.Plain) (config : Config) {T : Token.Stream} (n : Nat) {a : Nat}
    {s : State} (hs : s.tokens = T.drop a) :
    ∃ places : List Nat, places.Pairwise (· < ·) ∧ (∀ i ∈ places, a ≤ i) ∧
      List.Forall₂ (fun turn i => turn.start.tokens = T.drop i ∧ i < T.ahead.length ∧
        turn.start.current.kind ≠ .endOfInput) (g.turns config n s) places := by
  induction n generalizing a s with
  | zero => exact ⟨[], .nil, by simp, .nil⟩
  | succ n ih =>
    by_cases hk : s.current.kind = .endOfInput
    · rw [turns, if_pos hk]
      exact ⟨[], .nil, by simp, .nil⟩
    · obtain ⟨b, hlt, hb⟩ := (hg.statement_precedes config s).exists_tokens_advance_eq hs
      obtain ⟨places, hordered, hle, hstarts⟩ := ih hb
      rw [turns, if_neg hk]
      have hbehind : ∀ i ∈ places, a < i := fun i hi => Nat.lt_of_lt_of_le hlt (hle i hi)
      refine ⟨a :: places, List.pairwise_cons.mpr ⟨hbehind, hordered⟩,
        List.forall_mem_cons.mpr ⟨Nat.le_refl a, fun i hi => Nat.le_of_lt (hbehind i hi)⟩,
        .cons ⟨hs, ?_, hk⟩ hstarts⟩
      have hpos := State.tokensLeft_pos hk
      rw [State.tokensLeft, hs, Token.Stream.ahead_drop, List.length_drop] at hpos
      exact Nat.lt_of_sub_pos hpos

end Grammar

namespace RuleTable

/-- **Parsing comes to an end**, unless the end of the input is an operator. -/
theorem Ends.parsing_ends {R : RuleTable} (hR : R.Ends) (config : Config) (s : State) :
    (∀ power o, R.Parses power none s o ↔ o = R.grammar.expression power s) ∧
    (∀ t, s.Skips t ↔ t = s.skipToSemicolon) ∧
    (∀ st t, R.Performs config s st t ↔ (st, t) = R.grammar.statement config s) ∧
    (∀ run, R.Finishes config s run ↔ run = R.grammar.program config s) ∧
    ∃ turns stop, R.Runs config (s.note (.started s.tokens.stop.file)) turns stop ∧
      stop.current.kind = .endOfInput ∧
      (R.grammar.program config s).1.statements = turns.filterMap Turn.statement ∧
      (∃ places : List Nat, places.Pairwise (· < ·) ∧
        List.Forall₂ (fun turn i => turn.start.tokens = s.tokens.drop i ∧ i < s.tokensLeft ∧
          turn.start.current.kind ≠ .endOfInput) turns places) ∧
      (R.grammar.program config s).1.statements.length ≤ s.tokensLeft := by
  have hrun : R.Runs config (s.note (.started s.tokens.stop.file)) _ _ :=
    (hR.runs_iff (Nat.le_refl _)).mpr ⟨rfl, rfl⟩
  have hsts : (R.grammar.program config s).1.statements = _ :=
    Grammar.statements_fst_eq R.grammar config s.tokensLeft (s.note (.started s.tokens.stop.file))
  obtain ⟨places, hordered, -, hstarts⟩ := hR.plain.exists_starts config s.tokensLeft
    (T := s.tokens) (a := 0) (s := s.note (.started s.tokens.stop.file)) s.tokens.drop_zero.symm
  refine ⟨fun _ _ => hR.parses_iff, fun _ => State.skips_iff, fun _ _ => hR.performs_iff,
    fun _ => hR.finishes_iff, _, _, hrun, hrun.kind_current, hsts, ⟨places, hordered, hstarts⟩, ?_⟩
  rw [hsts]
  exact Nat.le_trans (List.length_filterMap_le _ _) (Grammar.length_turns_le config _ _)

/-- A table in which the semicolon and the end of the input are names, an exclamation mark stands
between two operands, a plus sign starts a binding, and the end of the input a return. -/
def oddTable : RuleTable where
  start?
    | .semicolon | .endOfInput => some .identifier
    | .integer => some .integer
    | .minus => some .unary
    | _ => none
  power?
    | .bang => some .call
    | .minus => some .sum
    | _ => none
  form?
    | .plus => some .letStatement
    | .endOfInput => some .returnStatement
    | _ => none

/-- The state before anything of the sample text is parsed. -/
def oddStart : State :=
  .start (.ofSource (.ofText "1 ! ; - ) + a = ; -" none))

/-- The sample has a hole, and the end of the input for a name. -/
theorem parsing_ends_oddTable :
    (oddTable.start? .endOfInput ≠ some .unary ∧ oddTable.power? .endOfInput = none) ∧
      (∀ run, oddTable.Finishes ⟨.parse, .advance⟩ oddStart run ↔
        run = oddTable.grammar.program ⟨.parse, .advance⟩ oddStart) ∧
      (oddTable.grammar.program ⟨.parse, .advance⟩ oddStart).1.statements.map
          (fun st => st.tokens.map Token.literal) =
        [["1", "!", ";", "-"], ["+", "a", ";", "-", ""]] ∧
      (oddTable.grammar.program ⟨.parse, .advance⟩ oddStart).1.statements.length ≤ 10 := by
  have hends : oddTable.Ends := ⟨by decide, by decide⟩
  have hleft : oddStart.tokensLeft = 10 := by decide +kernel
  obtain ⟨-, -, -, hprogram, -, -, -, -, -, -, hlength⟩ :=
    hends.parsing_ends ⟨.parse, .advance⟩ oddStart
  exact ⟨⟨hends.start_ne, hends.power_eq⟩, hprogram, by decide +kernel, hleft ▸ hlength⟩

end RuleTable

end PrattFrontend
