import Mathlib.Order.Defs.LinearOrder
import PrattFrontend.Proofs.Expression.Growth

/-!
# The rules of the standard grammar

* powers are in a line;
* `Grammar.standard_plain`: the standard grammar is plain;
* `Grammar.prefixRule?_standard_eq_identifier_iff` and its like: which kinds of tokens call for a
  rule;
* `Grammar.nextOperator?_standard_eq_some_iff`, `Grammar.nextOperator?_standard_eq_none_iff`: when
  an operator follows.
-/

namespace PrattFrontend

/-! ## Powers -/

/-- Powers are in a line, by their ranks. -/
instance : LinearOrder Power where
  le_refl a := Nat.le_refl a.rank
  le_trans _ _ _ := Nat.le_trans
  lt_iff_le_not_ge a b := by
    rw [Power.lt_iff, Power.le_iff, Power.le_iff]
    omega
  le_antisymm _ _ h h' := Power.rank_inj.mp (Nat.le_antisymm h h')
  le_total a b := Nat.le_total a.rank b.rank
  toDecidableLE := inferInstance
  toDecidableLT := inferInstance

/-! ## No two rules are the same -/

namespace Rule

/-- A state with nothing left to parse. There a name is read, a number is refused, and an operator
has a hole for its operand. -/
def atEnd : State :=
  .start ⟨[], .null, 0⟩

/-- What a rule for the start of an expression gives at the end of the input. -/
def outcomeAtEnd (r : PrefixRule) : Except ParseError Expr :=
  (r (fun _ s => (.error s.refusal, s)) atEnd).1

theorem identifier_ne_integer : identifier ≠ integer := fun h =>
  absurd (congrArg outcomeAtEnd h) (by decide)

theorem identifier_ne_unary : identifier ≠ unary := fun h =>
  absurd (congrArg outcomeAtEnd h) (by decide)

theorem integer_ne_unary : integer ≠ unary := fun h =>
  absurd (congrArg outcomeAtEnd h) (by decide)

/-- What a rule for statements gives at the end of the input. -/
def statementAtEnd (r : StatementRule) : Except ParseError Statement :=
  (r {} (fun _ s => (.error s.refusal, s)) atEnd).1

theorem letStatement_ne_returnStatement : letStatement ≠ returnStatement := fun h =>
  absurd (congrArg statementAtEnd h) (by decide)

theorem letStatement_ne_expressionStatement : letStatement ≠ expressionStatement := fun h =>
  absurd (congrArg statementAtEnd h) (by decide)

theorem returnStatement_ne_expressionStatement : returnStatement ≠ expressionStatement := fun h =>
  absurd (congrArg statementAtEnd h) (by decide)

end Rule

namespace Grammar

variable {k : Token.Kind} {p q : Power} {s : State}

theorem standard_plain : standard.Plain where
  prefixRule := by
    intro k r h
    cases k <;> simp_all [standard, standardPrefixRule?]
  operator := by
    intro k op h
    rw [operator?_standard] at h
    obtain ⟨q, -, rfl⟩ := Option.map_eq_some_iff.mp h
    rfl
  statementRule := by
    intro k r h
    cases k <;> simp_all [standard, standardStatementRule?]
  unary_endOfInput := by simp [standard, standardPrefixRule?]
  operator_endOfInput := rfl

/-! ## Rules for the start of an expression -/

theorem prefixRule?_standard_eq_identifier_iff :
    standard.prefixRule? k = some Rule.identifier ↔ k = .identifier := by
  have h₁ := Rule.identifier_ne_integer
  have h₂ := Rule.identifier_ne_unary
  cases k <;> simp [standard, standardPrefixRule?, Ne.symm h₁, Ne.symm h₂]

theorem prefixRule?_standard_eq_integer_iff :
    standard.prefixRule? k = some Rule.integer ↔ k = .integer := by
  have h₁ := Rule.identifier_ne_integer
  have h₂ := Rule.integer_ne_unary
  cases k <;> simp [standard, standardPrefixRule?, h₁, Ne.symm h₂]

theorem prefixRule?_standard_eq_unary_iff :
    standard.prefixRule? k = some Rule.unary ↔ k = .bang ∨ k = .minus := by
  have h₁ := Rule.identifier_ne_unary
  have h₂ := Rule.integer_ne_unary
  cases k <;> simp [standard, standardPrefixRule?, h₁, h₂]

theorem prefixRule?_standard_eq_none_iff :
    standard.prefixRule? k = none ↔
      k ≠ .identifier ∧ k ≠ .integer ∧ k ≠ .bang ∧ k ≠ .minus := by
  cases k <;> simp [standard, standardPrefixRule?]

/-! ## Operators between two operands -/

theorem lowest_lt_of_standardPower? (h : standardPower? k = some q) : .lowest < q := by
  cases k <;> cases h <;> decide

theorem lt_unary_of_standardPower? (h : standardPower? k = some q) : q < .unary := by
  cases k <;> cases h <;> decide

theorem powerOf_standard_of_standardPower? (h : standardPower? k = some q) :
    standard.powerOf k = q := by
  rw [powerOf_standard, h, Option.getD_some]

theorem nextOperator?_standard_eq_some_iff {op : Operator} :
    standard.nextOperator? p s = some op ↔
      ∃ q, standardPower? s.next.kind = some q ∧ p < q ∧ op = ⟨q, Rule.binary⟩ := by
  rw [nextOperator?_eq_some_iff, operator?_standard]
  constructor
  · rintro ⟨hop, hlt, -⟩
    obtain ⟨q, hq, rfl⟩ := Option.map_eq_some_iff.mp hop
    exact ⟨q, hq, hlt, rfl⟩
  · rintro ⟨q, hq, hlt, rfl⟩
    have hsemi : s.next.kind ≠ .semicolon := by
      intro hk
      rw [hk] at hq
      cases hq
    exact ⟨by rw [hq, Option.map_some], hlt, hsemi⟩

theorem nextOperator?_eq_none_iff :
    standard.nextOperator? p s = none ↔
      s.next.kind = .semicolon ∨ standard.powerOf s.next.kind ≤ p :=
  paired_standard.nextOperator?_eq_none_iff

theorem nextOperator?_standard_eq_none_iff :
    standard.nextOperator? p s = none ↔ ∀ q, standardPower? s.next.kind = some q → q ≤ p := by
  rw [Option.eq_none_iff_forall_ne_some]
  constructor
  · intro h q hq
    by_contra hle
    exact h _ (nextOperator?_standard_eq_some_iff.mpr ⟨q, hq, lt_of_not_ge hle, rfl⟩)
  · intro h op hop
    obtain ⟨q, hq, hlt, -⟩ := nextOperator?_standard_eq_some_iff.mp hop
    exact not_lt_of_ge (h q hq) hlt

theorem nextOperator?_lowest_standard_eq_none_iff :
    standard.nextOperator? .lowest s = none ↔ standardPower? s.next.kind = none := by
  rw [nextOperator?_standard_eq_none_iff]
  constructor
  · intro h
    refine Option.eq_none_iff_forall_ne_some.mpr fun q hq => ?_
    exact not_lt_of_ge (h q hq) (lowest_lt_of_standardPower? hq)
  · intro h q hq
    rw [h] at hq
    cases hq

theorem nextOperator?_unary_standard (s : State) : standard.nextOperator? .unary s = none :=
  nextOperator?_standard_eq_none_iff.mpr fun _ hq => le_of_lt (lt_unary_of_standardPower? hq)

/-! ## Rules for statements -/

theorem ruleForStatement_standard_eq_let_iff :
    standard.ruleForStatement k = Rule.letStatement ↔ k = .letWord := by
  have h₁ := Rule.letStatement_ne_returnStatement
  have h₂ := Rule.letStatement_ne_expressionStatement
  cases k <;> simp [ruleForStatement, standard, standardStatementRule?, Ne.symm h₁, Ne.symm h₂]

theorem ruleForStatement_standard_eq_return_iff :
    standard.ruleForStatement k = Rule.returnStatement ↔ k = .returnWord := by
  have h₁ := Rule.letStatement_ne_returnStatement
  have h₂ := Rule.returnStatement_ne_expressionStatement
  cases k <;> simp [ruleForStatement, standard, standardStatementRule?, h₁, Ne.symm h₂]

theorem ruleForStatement_standard_eq_expression_iff :
    standard.ruleForStatement k = Rule.expressionStatement ↔ k ≠ .letWord ∧ k ≠ .returnWord := by
  have h₁ := Rule.letStatement_ne_expressionStatement
  have h₂ := Rule.returnStatement_ne_expressionStatement
  cases k <;> simp [ruleForStatement, standard, standardStatementRule?, h₁, h₂]

end Grammar

end PrattFrontend
