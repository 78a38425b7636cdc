import PrattFrontend.Token.Basic

/-!
# Syntax trees

An expression is a name, a number, or an operator with its operands. The right operand of an
operator may be missing: a tree with such a **hole** is what is kept of a faulty text. A statement is
a binding, a return, or a bare expression; each may lack its expression, because it was passed over
or could not be read.

* `Identifier`, **`Expr`**, with `Expr.induct` for proofs by `induction`;
* `Expr.token`, `Expr.tokens`: the token that an expression is named for, and all its tokens;
* **`Expr.code`**: an expression as text, with parentheses around every operator;
* **`Statement`**, with `Statement.token` and `Statement.tokens`; **`Program`**: a row of them;
* `Statement.code`, **`Program.code`**: statements and programs as text.
-/

namespace PrattFrontend

/-! ## Expressions -/

/-- A name, as a value or as the target of a binding. -/
structure Identifier where
  token : Token
  name : String
deriving DecidableEq, Repr

/-- The identifier that a token spells. -/
def Identifier.ofToken (t : Token) : Identifier :=
  ⟨t, t.literal⟩

/-- **An expression.** The token of an operator node is the operator. -/
inductive Expr where
  | identifier (name : Identifier)
  | integer (token : Token) (value : Int)
  | unary (token : Token) (operator : String) (right : Option Expr)
  | binary (token : Token) (left : Expr) (operator : String) (right : Option Expr)
deriving Repr

namespace Expr

/-- Induction on expressions: what holds of an operator node whenever it holds of the operands that
the node has, holds of all expressions. -/
@[induction_eliminator]
theorem induct {motive : Expr → Prop}
    (identifier : ∀ name, motive (identifier name))
    (integer : ∀ token value, motive (integer token value))
    (unary : ∀ token operator right, (∀ e ∈ right, motive e) → motive (unary token operator right))
    (binary : ∀ token left operator right, motive left → (∀ e ∈ right, motive e) →
      motive (binary token left operator right)) (e : Expr) : motive e :=
  match e with
  | .identifier name => identifier name
  | .integer token value => integer token value
  | .unary token operator none => unary token operator none (by simp)
  | .unary token operator (some r) =>
    have hr := induct identifier integer unary binary r
    unary token operator (some r) (by simpa using hr)
  | .binary token left operator none =>
    binary token left operator none (induct identifier integer unary binary left) (by simp)
  | .binary token left operator (some r) =>
    have hr := induct identifier integer unary binary r
    binary token left operator (some r) (induct identifier integer unary binary left)
      (by simpa using hr)
termination_by structural e

/-! ## Equality -/

/-- Whether two expressions are the same tree. -/
def same : Expr → Expr → Bool
  | .identifier a, .identifier b => a = b
  | .integer t v, .integer u w => t = u && v = w
  | .unary t p none, .unary u q none => t = u && p = q
  | .unary t p (some e), .unary u q (some f) => t = u && p = q && e.same f
  | .binary t d p none, .binary u e q none => t = u && d.same e && p = q
  | .binary t d p (some f), .binary u e q (some g) => t = u && d.same e && p = q && f.same g
  | _, _ => false
termination_by structural e => e

theorem same_iff {e f : Expr} : e.same f = true ↔ e = f := by
  induction e generalizing f with
  | identifier a => cases f <;> simp [same]
  | integer t v => cases f <;> simp [same]
  | unary t p r ih =>
    cases f with
    | unary u q s => cases r <;> cases s <;> simp_all [same, and_assoc]
    | _ => cases r <;> simp [same]
  | binary t d p r ihd ih =>
    cases f with
    | binary u e q s => cases r <;> cases s <;> simp_all [same, and_assoc]
    | _ => cases r <;> simp [same]

instance : DecidableEq Expr := fun _ _ => decidable_of_iff _ same_iff

/-! ## Tokens -/

/-- The token that an expression is named for. -/
def token : Expr → Token
  | .identifier i => i.token
  | .integer t _ => t
  | .unary t _ _ => t
  | .binary t _ _ _ => t

/-- The tokens of an expression in the order of the source: an operator stands before the operand of
a unary node and between those of a binary one. -/
def tokens : Expr → List Token
  | .identifier i => [i.token]
  | .integer t _ => [t]
  | .unary t _ none => [t]
  | .unary t _ (some e) => t :: e.tokens
  | .binary t d _ none => d.tokens ++ [t]
  | .binary t d _ (some e) => d.tokens ++ t :: e.tokens
termination_by structural e => e

theorem token_mem_tokens (e : Expr) : e.token ∈ e.tokens := by
  cases e with
  | identifier => simp [token, tokens]
  | integer => simp [token, tokens]
  | unary t p r => cases r <;> simp [token, tokens]
  | binary t d p r => cases r <;> simp [token, tokens]

/-! ## Text -/

/-- **An expression as text.** Every operator stands in parentheses with its operands, and nothing
stands for a missing operand. -/
def code : Expr → String
  | .identifier i => i.name
  | .integer _ value => toString value
  | .unary _ operator none => "(" ++ operator ++ ")"
  | .unary _ operator (some e) => "(" ++ operator ++ e.code ++ ")"
  | .binary _ d operator none => "(" ++ d.code ++ " " ++ operator ++ " )"
  | .binary _ d operator (some e) => "(" ++ d.code ++ " " ++ operator ++ " " ++ e.code ++ ")"
termination_by structural e => e

/-- The text of an expression that may be missing. -/
def codeOf : Option Expr → String
  | none => ""
  | some e => e.code

@[simp] theorem code_identifier (i : Identifier) : (identifier i).code = i.name := rfl

@[simp] theorem code_integer (t : Token) (value : Int) :
    (integer t value).code = toString value := rfl

theorem code_unary (t : Token) (operator : String) (right : Option Expr) :
    (unary t operator right).code = "(" ++ operator ++ codeOf right ++ ")" := by
  cases right <;> simp [code, codeOf]

theorem code_binary (t : Token) (d : Expr) (operator : String) (right : Option Expr) :
    (binary t d operator right).code =
      "(" ++ d.code ++ " " ++ operator ++ " " ++ codeOf right ++ ")" := by
  cases right <;> simp [code, codeOf, String.append_assoc]

end Expr

/-! ## Statements and programs -/

/-- **A statement**, with the token that it starts with. -/
inductive Statement where
  /-- The binding of a name to a value. -/
  | letValue (token : Token) (name : Identifier) (value : Option Expr)
  /-- The return of a value. -/
  | returnValue (token : Token) (value : Option Expr)
  /-- An expression that stands by itself. -/
  | expression (token : Token) (value : Option Expr)
deriving DecidableEq, Repr

namespace Statement

/-- The token that a statement starts with. -/
def token : Statement → Token
  | letValue t _ _ => t
  | returnValue t _ => t
  | expression t _ => t

/-- The expression of a statement, if it has one. -/
def value : Statement → Option Expr
  | letValue _ _ v => v
  | returnValue _ v => v
  | expression _ v => v

/-- The tokens that a statement holds, in the order of the source. A bare expression holds its first
token twice, and here it counts once. -/
def tokens : Statement → List Token
  | letValue t name v => t :: name.token :: (v.map Expr.tokens).getD []
  | returnValue t v => t :: (v.map Expr.tokens).getD []
  | expression _ v => (v.map Expr.tokens).getD []

/-- **A statement as text.** A binding and a return end with a semicolon, a bare expression does
not. -/
def code : Statement → String
  | letValue t name v => t.literal ++ " " ++ name.name ++ " = " ++ Expr.codeOf v ++ ";"
  | returnValue t v => t.literal ++ " " ++ Expr.codeOf v ++ ";"
  | expression _ v => Expr.codeOf v

end Statement

/-- **A program**: its statements, in order. -/
structure Program where
  statements : List Statement
deriving DecidableEq, Repr

namespace Program

/-- The text of the token that a program starts with. -/
def literal (p : Program) : String :=
  (p.statements.head?.map (·.token.literal)).getD ""

/-- **A program as text**: its statements, one on a line. -/
def code (p : Program) : String :=
  "\n".intercalate (p.statements.map Statement.code)

end Program

end PrattFrontend
