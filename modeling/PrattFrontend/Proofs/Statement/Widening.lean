import PrattFrontend.Parser.Session
import PrattFrontend.Proofs.Statement.Simulation

/-!
# More rules for the start of an expression

A parser that finds no rule for the start of an expression says so, and no later step takes that
back. So a parser that never said so comes to the same with more rules, whatever they do, as long as
they take the place of none.

* `Grammar.Plain.statements_eq_of_follows`: a run with one grammar is a run with any that follows it;
* **`Grammar.withPrefixes`**: a grammar with more rules for the start of an expression;
* `Grammar.follows_withPrefixes`: it follows the grammar without them, as long as no rule is missed;
* **`Session.run_program_after_withPrefixes`**: sources.
-/

namespace PrattFrontend

open Grammar (standard standard_plain)

variable {rules : List (Token.Kind × PrefixRule)} {errs : List ParseError} {config : Config}

/-! ## Whole runs -/

namespace Grammar

variable {g g' : Grammar}

/-- **A run with one grammar is a run with any that follows it.** -/
theorem Plain.statements_eq_of_follows (hg : g.Plain) (n : Nat) {s : State}
    (hf : g'.Follows g (g.statements config n s).2.errors.toList) :
    g'.statements config n s = g.statements config n s := by
  induction n generalizing s with
  | zero => rfl
  | succ n ih =>
    by_cases hk : s.current.kind = .endOfInput
    · rw [statements_of_endOfInput config hk, statements_of_endOfInput config hk]
    · simp only [statements, if_neg hk] at hf ⊢
      -- what a statement records is still recorded at the end of the run
      have hrest := hg.statements_precedes config n (g.statement config s).2.advance
      have hst := hg.statement_eq_of_follows (hg.performs_statement config s)
        (hf.mono hrest.errors.subset)
      rw [hst, ih hf]

theorem Plain.program_eq_of_follows (hg : g.Plain) {s : State}
    (hf : g'.Follows g (g.program config s).2.errors.toList) :
    g'.program config s = g.program config s := by
  simp only [program] at hf ⊢
  rw [hg.statements_eq_of_follows _ hf]

/-! ## Rows of rules -/

/-- **The grammar with more rules** for the start of an expression, each by the kind of the first
token. Of two rules for one kind the later takes the place of the earlier. -/
def withPrefixes (g : Grammar) (rules : List (Token.Kind × PrefixRule)) : Grammar :=
  rules.foldl (fun g r => g.withPrefix r.1 r.2) g

theorem prefixRule?_withPrefixes {k : Token.Kind} (h : ∀ r ∈ rules, r.1 ≠ k) :
    (g.withPrefixes rules).prefixRule? k = g.prefixRule? k := by
  induction rules generalizing g with
  | nil => rfl
  | cons r rules ih =>
    obtain ⟨hr, hrules⟩ := List.forall_mem_cons.mp h
    refine (ih hrules).trans ?_
    rw [prefixRule?_withPrefix, if_neg hr.symm]

@[simp] theorem operator?_withPrefixes (k : Token.Kind) :
    (g.withPrefixes rules).operator? k = g.operator? k := by
  induction rules generalizing g with
  | nil => rfl
  | cons r rules ih => exact ih

@[simp] theorem ruleForStatement_withPrefixes (k : Token.Kind) :
    (g.withPrefixes rules).ruleForStatement k = g.ruleForStatement k := by
  induction rules generalizing g with
  | nil => rfl
  | cons r rules ih => exact ih

/-- **More rules make no difference where no rule was missed.** -/
theorem follows_withPrefixes (hrules : ∀ r ∈ rules, g.prefixRule? r.1 = none)
    (herrs : ∀ e ∈ errs, ∀ k, e.cause ≠ .noPrefixRule k) :
    (g.withPrefixes rules).Follows g errs := by
  have hold : ∀ {k r}, g.prefixRule? k = some r → (g.withPrefixes rules).prefixRule? k = some r := by
    intro k r h
    rw [prefixRule?_withPrefixes, h]
    rintro r' hmem rfl
    rw [hrules r' hmem] at h
    cases h
  refine ⟨hold, operator?_withPrefixes, ruleForStatement_withPrefixes, fun hmem h => ?_⟩
  cases h with
  | noRule h => exact absurd rfl (herrs _ hmem _)
  | outOfRange h hv => exact .outOfRange (hold h) hv

end Grammar

/-! ## Sessions -/

namespace Session

theorem after_withPrefixes (σ : Session) (rules : List (Token.Kind × PrefixRule)) :
    σ.after (rules.map fun r => .withPrefix r.1 r.2) =
      { σ with grammar := σ.grammar.withPrefixes rules } := by
  induction rules generalizing σ with
  | nil => rfl
  | cons r rules ih => exact ih _

/-- **More rules for the start of an expression change nothing where none was missed.** -/
theorem run_program_after_withPrefixes (config : Config) (source : Source)
    (rules : List (Token.Kind × PrefixRule))
    (hrules : ∀ r ∈ rules, standard.prefixRule? r.1 = none)
    (h : ∀ e ∈ (parse config source).2.errors.toList, ∀ k, e.cause ≠ .noPrefixRule k) :
    let σ := (start config (.ofSource source)).after (rules.map fun r => .withPrefix r.1 r.2)
    Operation.program.run σ =
      (.ok (.program (parse config source).1), { σ with state := (parse config source).2 }) := by
  intro σ
  have hprogram : (standard.withPrefixes rules).program config (.start (.ofSource source)) =
      parse config source :=
    standard_plain.program_eq_of_follows (Grammar.follows_withPrefixes hrules h)
  have hσ : σ = ⟨standard.withPrefixes rules, config, .start (.ofSource source)⟩ :=
    after_withPrefixes _ _
  simp only [hσ, Operation.run, hprogram]

/-- A source with a binding that fails and a number out of range. -/
def faultySource : Source :=
  .ofText "let 5; 1 + 99999999999999999999; !a - b" none

/-- Refuses the current token, with an error at its end. -/
def reject : PrefixRule := fun _ s =>
  (.error ⟨.noPrefixRule s.current.kind, s.current.span.stop⟩, s)

/-- Rules for parentheses, the first of them replaced by another, and operators that the standard
grammar does not have, one of them at the end of the input. -/
def strayRules : List (Token.Kind × PrefixRule) :=
  [(.leftParen, Rule.grouped), (.semicolon, Rule.unary), (.endOfInput, Rule.unary),
    (.leftParen, reject)]

theorem run_program_after_strayRules :
    let σ := (start {} (.ofSource faultySource)).after
      (strayRules.map fun r => .withPrefix r.1 r.2)
    (∀ r ∈ strayRules, standard.prefixRule? r.1 = none) ∧
      (∀ e ∈ (parse {} faultySource).2.errors.toList, ∀ k, e.cause ≠ .noPrefixRule k) ∧
      (parse {} faultySource).1.code = "5\n(1 + )\n((!a) - b)" ∧
      (parse {} faultySource).2.errors.toList.map (·.position.offset) = [4, 11] ∧
      Operation.program.run σ =
        (.ok (.program (parse {} faultySource).1), { σ with state := (parse {} faultySource).2 }) := by
  intro σ
  have hrules : ∀ r ∈ strayRules, standard.prefixRule? r.1 = none := by
    decide
  have herrs : ∀ e ∈ (parse {} faultySource).2.errors.toList, ∀ k, e.cause ≠ .noPrefixRule k := by
    have hcause : (parse {} faultySource).2.errors.toList.map (·.cause) =
        [.unexpectedToken .identifier .integer, .integerOutOfRange "99999999999999999999"] := by
      decide +kernel
    intro e he k
    have hmem := List.mem_map_of_mem (f := (·.cause)) he
    rw [hcause] at hmem
    rintro hk
    simp [hk] at hmem
  exact ⟨hrules, herrs, by decide +kernel, by decide +kernel,
    run_program_after_withPrefixes {} faultySource strayRules hrules herrs⟩

end Session

end PrattFrontend
