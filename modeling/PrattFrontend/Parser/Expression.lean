import PrattFrontend.Parser.Grammar
import PrattFrontend.Text.Basic

/-!
# Parsing expressions

An expression starts with what the rule for its first token gives. As long as the next token is an
operator that binds tighter than the power asked for, the operator's rule takes what there is so far
as its left operand.

* `Rule.identifier`, `Rule.integer`: tokens that are expressions by themselves;
* `Rule.operand`: an operand, which leaves a hole in the tree if it cannot be parsed;
* **`Rule.unary`**, **`Rule.binary`**: operators before an operand and between two;
* `Rule.grouped`: an expression in parentheses;
* `Grammar.climb`: taking in operators;
* `Grammar.expressionStep`: one expression, with its operands left to another parser;
* **`Grammar.expression`**: expressions in full. The operands of an expression have fewer tokens
  ahead of them than the expression itself, so the number of tokens ahead bounds how deep
  expressions nest.
-/

namespace PrattFrontend.Rule

/-! ## Rules -/

/-- The current token as a name. -/
def identifier : PrefixRule := fun _ s =>
  (.ok (.identifier (.ofToken s.current)), s)

/-- The current token as a number. -/
def integer : PrefixRule := fun _ s =>
  match Text.readInteger? s.current.literal with
  | some value => (.ok (.integer s.current value), s)
  | none => (.error ⟨.integerOutOfRange s.current.literal, s.current.span.start⟩, s)

/-- Parses an operand. If that fails the error is recorded and the operand is missing. -/
def operand (expr : ExprParser) (power : Power) (s : State) : Option Expr × State :=
  match expr power s with
  | (.ok e, s) => (some e, s)
  | (.error e, s) => (none, s.record e)

/-- **An operator before its operand.** -/
def unary : PrefixRule := fun expr s =>
  let right := operand expr .unary s.advance
  (.ok (.unary s.current s.current.literal right.1), right.2)

/-- **An operator between two operands.** The right one is parsed at the power of the operator, so
that operators of one power group to the left. -/
def binary : InfixRule := fun expr left power s =>
  let right := operand expr power s.advance
  (.ok (.binary s.current left s.current.literal right.1), right.2)

/-- An expression between parentheses, of which the opening one is the current token. -/
def grouped : PrefixRule := fun expr s =>
  match expr .lowest s.advance with
  | (.error e, s) => (.error e, s)
  | (.ok inner, s) =>
    match s.expectNext .rightParen with
    | .error e => (.error e, s)
    | .ok s => (.ok inner, s)

end PrattFrontend.Rule

namespace PrattFrontend.Grammar

/-! ## Expressions -/

variable (g : Grammar)

/-- Lets the operators that follow take an expression as their left operand, at most a given number
of them, as long as they bind tighter than a power. -/
def climb (expr : ExprParser) (power : Power) : Nat → Expr → State → Outcome Expr
  | 0, left, s => (.ok left, s)
  | n + 1, left, s =>
    match g.nextOperator? power s with
    | none => (.ok left, s)
    | some op =>
      match op.rule expr left op.power s.advance with
      | (.ok e, s) => climb expr power n e s
      | (.error e, s) => (.error e, s)

/-- Parses an expression, with `expr` for the expressions inside it. -/
def expressionStep (expr : ExprParser) (power : Power) (s : State) : Outcome Expr :=
  match g.prefixRule? s.current.kind with
  | none => (.error s.refusal, s)
  | some rule =>
    match rule expr s with
    | (.ok left, s) => g.climb expr power s.tokens.ahead.length left s
    | (.error e, s) => (.error e, s)

/-- Parses an expression in which expressions nest no deeper than a given number; `inner` stands for
those below. -/
def expressionWithin (inner : ExprParser) : Nat → ExprParser
  | 0 => inner
  | n + 1 => g.expressionStep (expressionWithin inner n)

/-- **Parses an expression** from the current token on, up to its last token. -/
def expression : ExprParser := fun power s =>
  g.expressionWithin (fun _ s => (.error s.refusal, s)) (s.tokens.ahead.length + 1) power s

@[simp] theorem expressionWithin_zero (inner : ExprParser) :
    g.expressionWithin inner 0 = inner := rfl

theorem expressionWithin_succ (inner : ExprParser) (n : Nat) :
    g.expressionWithin inner (n + 1) = g.expressionStep (g.expressionWithin inner n) := rfl

theorem climb_of_nextOperator?_eq_none {expr : ExprParser} {power : Power} {s : State}
    (h : g.nextOperator? power s = none) (n : Nat) (left : Expr) :
    g.climb expr power n left s = (.ok left, s) := by
  cases n with
  | zero => rfl
  | succ n => simp [climb, h]

end PrattFrontend.Grammar
