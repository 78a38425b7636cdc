import PrattFrontend.Parser.State
import PrattFrontend.Tree

/-!
# Grammars

A grammar is three tables of rules, each by the kind of the token that calls for the rule, and a
table of the powers with which operators bind. A rule is told how whole expressions are parsed and
so may ask for operands; it is in turn part of how they are parsed.

* `ValueMode`, `Recovery`, **`Config`**: how to parse;
* **`Power`**, ordered by `Power.rank`: how tightly an operator binds, which takes as an operand
  whatever binds tighter than itself;
* `Outcome`, `ExprParser`: what a rule gives back, and what it is told;
* `PrefixRule`, `InfixRule`, `StatementRule`: the three sorts of rules;
* **`Grammar`**, with `Grammar.withPrefix`, `Grammar.withOperator`, `Grammar.withStatement`;
* `Grammar.powerOf`, `Grammar.operator?`, `Grammar.nextOperator?`;
* `Grammar.Paired`: the operators with a rule are those with a power.
-/

namespace PrattFrontend

/-! ## Configurations -/

/-- What becomes of the value of a binding or a return. -/
inductive ValueMode where
  /-- It is passed over, up to the next semicolon. -/
  | skip
  /-- It is read as an expression. -/
  | parse
deriving DecidableEq, Repr

/-- Where parsing goes on behind a statement that had to be given up. -/
inductive Recovery where
  /-- Behind the token at which the statement failed. -/
  | advance
  /-- Behind the next semicolon. -/
  | semicolon
deriving DecidableEq, Repr

/-- **How to parse.** -/
structure Config where
  values : ValueMode := .skip
  recovery : Recovery := .advance
deriving DecidableEq, Repr

/-! ## Binding powers -/

/-- **A binding power**, from the weakest to the strongest. -/
inductive Power where
  /-- The power of what is no operator. -/
  | lowest
  | equality
  | comparison
  | sum
  | product
  | unary
  /-- A power that no operator has yet. -/
  | call
deriving DecidableEq, Repr

namespace Power

/-- How tightly a power binds. -/
def rank : Power → Nat
  | lowest => 0
  | equality => 1
  | comparison => 2
  | sum => 3
  | product => 4
  | unary => 5
  | call => 6

instance : LT Power where
  lt a b := a.rank < b.rank

instance : LE Power where
  le a b := a.rank ≤ b.rank

theorem lt_iff {a b : Power} : a < b ↔ a.rank < b.rank := Iff.rfl

theorem le_iff {a b : Power} : a ≤ b ↔ a.rank ≤ b.rank := Iff.rfl

instance (a b : Power) : Decidable (a < b) :=
  inferInstanceAs (Decidable (a.rank < b.rank))

instance (a b : Power) : Decidable (a ≤ b) :=
  inferInstanceAs (Decidable (a.rank ≤ b.rank))

theorem not_lt {a b : Power} : ¬a < b ↔ b ≤ a := by
  rw [lt_iff, le_iff]
  omega

theorem rank_inj {a b : Power} : a.rank = b.rank ↔ a = b := by
  cases a <;> cases b <;> decide

theorem not_lt_lowest (a : Power) : ¬a < lowest := by
  rw [lt_iff]
  exact Nat.not_lt_zero _

end Power

/-! ## Rules and their tables -/

/-- The outcome of parsing: a result or an error, and the state that is reached. -/
abbrev Outcome (α : Type) : Type := Except ParseError α × State

/-- How to parse an expression that starts at the current token and goes on for as long as operators
bind tighter than a given power. -/
abbrev ExprParser : Type := Power → State → Outcome Expr

/-- How to parse what starts with the current token, up to its last token. -/
abbrev PrefixRule : Type := ExprParser → State → Outcome Expr

/-- How to parse what follows a left operand, from the operator on, which is the current token and
has the given power. -/
abbrev InfixRule : Type := ExprParser → Expr → Power → State → Outcome Expr

/-- How to parse a statement that starts with the current token. -/
abbrev StatementRule : Type := Config → ExprParser → State → Outcome Statement

/-- An operator behind a left operand: how tightly it binds and how it is parsed. -/
structure Operator where
  power : Power
  rule : InfixRule

/-- **A grammar**: the rules and the powers by the kinds of tokens. -/
structure Grammar where
  /-- The rules for tokens that start an expression. -/
  prefixRule? : Token.Kind → Option PrefixRule := fun _ => none
  /-- The rules for tokens that stand behind a left operand. -/
  infixRule? : Token.Kind → Option InfixRule := fun _ => none
  /-- How tightly tokens bind that stand behind a left operand. -/
  power? : Token.Kind → Option Power := fun _ => none
  /-- The rules for tokens that start a statement of their own sort. -/
  statementRule? : Token.Kind → Option StatementRule := fun _ => none

namespace Grammar

/-- The grammar with a rule for expressions that start with a token of some kind. -/
def withPrefix (g : Grammar) (kind : Token.Kind) (rule : PrefixRule) : Grammar :=
  { g with prefixRule? := fun k => if k = kind then some rule else g.prefixRule? k }

/-- The grammar with a rule for a kind of token as an operator of some power. -/
def withOperator (g : Grammar) (kind : Token.Kind) (power : Power) (rule : InfixRule) : Grammar :=
  { g with
    infixRule? := fun k => if k = kind then some rule else g.infixRule? k
    power? := fun k => if k = kind then some power else g.power? k }

/-- The grammar with a rule for statements that start with a token of some kind. -/
def withStatement (g : Grammar) (kind : Token.Kind) (rule : StatementRule) : Grammar :=
  { g with statementRule? := fun k => if k = kind then some rule else g.statementRule? k }

/-- The power with which a kind of token binds a left operand. -/
def powerOf (g : Grammar) (kind : Token.Kind) : Power :=
  (g.power? kind).getD .lowest

/-- What a kind of token is behind a left operand: its rule, and its power. -/
def operator? (g : Grammar) (kind : Token.Kind) : Option Operator :=
  (g.infixRule? kind).map fun rule => ⟨g.powerOf kind, rule⟩

@[simp] theorem prefixRule?_withPrefix (g : Grammar) (kind : Token.Kind) (rule : PrefixRule)
    (k : Token.Kind) :
    (g.withPrefix kind rule).prefixRule? k = if k = kind then some rule else g.prefixRule? k := rfl

@[simp] theorem statementRule?_withStatement (g : Grammar) (kind : Token.Kind)
    (rule : StatementRule) (k : Token.Kind) :
    (g.withStatement kind rule).statementRule? k =
      if k = kind then some rule else g.statementRule? k := rfl

@[simp] theorem operator?_withOperator (g : Grammar) (kind : Token.Kind) (power : Power)
    (rule : InfixRule) (k : Token.Kind) :
    (g.withOperator kind power rule).operator? k =
      if k = kind then some ⟨power, rule⟩ else g.operator? k := by
  by_cases h : k = kind <;> simp [operator?, withOperator, powerOf, h]

/-- The operator that the next token is, if it binds tighter than a power and there is a rule for
it. A semicolon never binds. -/
def nextOperator? (g : Grammar) (power : Power) (s : State) : Option Operator :=
  if s.next.kind ≠ .semicolon ∧ power < g.powerOf s.next.kind then g.operator? s.next.kind else none

theorem powerOf_eq_of_operator? {g : Grammar} {kind : Token.Kind} {op : Operator}
    (h : g.operator? kind = some op) : g.powerOf kind = op.power := by
  obtain ⟨rule, -, rfl⟩ := Option.map_eq_some_iff.mp h
  rfl

theorem nextOperator?_eq_some_iff {g : Grammar} {power : Power} {s : State} {op : Operator} :
    g.nextOperator? power s = some op ↔
      g.operator? s.next.kind = some op ∧ power < op.power ∧ s.next.kind ≠ .semicolon := by
  rw [nextOperator?, Option.ite_none_right_eq_some]
  constructor
  · rintro ⟨⟨hsemi, hlt⟩, hop⟩
    exact ⟨hop, powerOf_eq_of_operator? hop ▸ hlt, hsemi⟩
  · rintro ⟨hop, hlt, hsemi⟩
    exact ⟨⟨hsemi, powerOf_eq_of_operator? hop ▸ hlt⟩, hop⟩

/-- The rules and the powers of operators are **paired** if they are there for the same kinds of
tokens. -/
def Paired (g : Grammar) : Prop :=
  ∀ kind, (g.infixRule? kind).isSome = (g.power? kind).isSome

namespace Paired

variable {g : Grammar} {kind : Token.Kind} {power : Power}

theorem withOperator (hg : g.Paired) (kind : Token.Kind) (power : Power) (rule : InfixRule) :
    (g.withOperator kind power rule).Paired := by
  intro k
  by_cases h : k = kind
  · simp [Grammar.withOperator, h]
  · simp [Grammar.withOperator, h, hg k]

theorem isSome_infixRule? (hg : g.Paired) (h : power < g.powerOf kind) :
    (g.infixRule? kind).isSome = true := by
  rw [hg kind]
  cases hp : g.power? kind with
  | none =>
    rw [powerOf, hp] at h
    exact absurd h (Power.not_lt_lowest power)
  | some q => rfl

theorem nextOperator?_eq_none_iff (hg : g.Paired) {s : State} :
    g.nextOperator? power s = none ↔
      s.next.kind = .semicolon ∨ g.powerOf s.next.kind ≤ power := by
  rw [nextOperator?, ← Power.not_lt]
  split
  · next h =>
    obtain ⟨rule, hrule⟩ := Option.isSome_iff_exists.mp (hg.isSome_infixRule? h.2)
    simp [operator?, hrule, h]
  · next h =>
    exact iff_of_true rfl ((Decidable.not_and_iff_not_or_not.mp h).imp_left Decidable.not_not.mp)

end Paired

end Grammar

end PrattFrontend
