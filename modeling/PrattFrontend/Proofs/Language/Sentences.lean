import PrattFrontend.Parser.Grammar
import PrattFrontend.Text.Basic
import PrattFrontend.Token.Basic

/-!
# The sentences of the language

What a program may look like is said by a grammar for rows of tokens, without a parser. The grammar
is ambiguous: no semicolon need stand between two statements, so that a minus sign may stand between
two operands or start a statement. Read from left to right, token by token, it is not.

* `Language.Operand`, `Language.Expression`, `Language.Value`, `Language.Sentence`;
* **`Language.Sentences`**: the rows of tokens that are programs;
* `Language.Expression.append`, `Language.Expression.exists_head`.
-/

namespace PrattFrontend.Language

/-- The operators that stand before an operand. -/
def prefixKinds : List Token.Kind :=
  [.bang, .minus]

/-- The operators that stand between two operands. -/
def infixKinds : List Token.Kind :=
  [.equal, .notEqual, .lessThan, .greaterThan, .plus, .minus, .asterisk, .slash]

/-- A name, or a number below the bound. -/
def Atom (t : Token) : Prop :=
  t.kind = .identifier ∨
    t.kind = .integer ∧ Text.decimalValue t.literal.toList < Text.integerBound

/-- An operand: a name or a number, with operators before it. -/
inductive Operand : List Token → Prop
  | atom {t} (h : Atom t) : Operand [t]
  | unary {t ts} (ht : t.kind ∈ prefixKinds) (h : Operand ts) : Operand (t :: ts)

/-- An expression: operands with operators between them. -/
inductive Expression : List Token → Prop
  | operand {ts} (h : Operand ts) : Expression ts
  | operation {ts t us} (h : Expression ts) (ht : t.kind ∈ infixKinds) (h' : Operand us) :
      Expression (ts ++ t :: us)

/-- Nothing, or a semicolon. -/
inductive Closing : List Token → Prop
  | none : Closing []
  | semicolon {c} (hc : c.kind = .semicolon) : Closing [c]

/-- The value of a binding or a return, with its semicolon, and the tokens behind it. A value that
is passed over is any row of tokens up to a semicolon or to the end. -/
inductive Value (values : ValueMode) : List Token → List Token → Prop
  | read {ts cs us} (hv : values = .parse) (h : Expression ts) (hc : Closing cs) :
      Value values (ts ++ cs) us
  | skipped {ts c us} (hv : values = .skip) (h : ∀ t ∈ ts, t.kind ≠ .semicolon)
      (hc : c.kind = .semicolon) : Value values (ts ++ [c]) us
  | skippedToEnd {ts} (hv : values = .skip) (h : ∀ t ∈ ts, t.kind ≠ .semicolon) :
      Value values ts []

/-- A statement, and the tokens behind it. -/
inductive Sentence (values : ValueMode) : List Token → List Token → Prop
  | binding {l n a ts us} (hl : l.kind = .letWord) (hn : n.kind = .identifier)
      (ha : a.kind = .assign) (h : Value values ts us) : Sentence values (l :: n :: a :: ts) us
  | returnNothing {r c us} (hr : r.kind = .returnWord) (hc : c.kind = .semicolon) :
      Sentence values [r, c] us
  | returnValue {r ts us} (hr : r.kind = .returnWord) (h : Value values ts us) :
      Sentence values (r :: ts) us
  | expression {ts cs us} (h : Expression ts) (hc : Closing cs) : Sentence values (ts ++ cs) us

/-- **The rows of tokens that are programs**: statements, one after another. -/
inductive Sentences (values : ValueMode) : List Token → Prop
  | nil : Sentences values []
  | cons {ts us} (h : Sentence values ts us) (h' : Sentences values us) :
      Sentences values (ts ++ us)

variable {values : ValueMode} {t : Token} {ts us : List Token}

/-! ## Expressions -/

theorem Expression.append (h : Expression ts) (ht : t.kind ∈ infixKinds) (h' : Expression us) :
    Expression (ts ++ t :: us) := by
  induction h' with
  | operand h' => exact .operation h ht h'
  | @operation us u vs _ hu hv ih =>
    have heq : ts ++ t :: (us ++ u :: vs) = (ts ++ t :: us) ++ u :: vs := by simp
    rw [heq]
    exact .operation ih hu hv

/-- The kinds of tokens that an expression starts with. -/
def startKinds : List Token.Kind :=
  [.identifier, .integer, .bang, .minus]

theorem Operand.exists_head (h : Operand ts) : ∃ t us, ts = t :: us ∧ t.kind ∈ startKinds := by
  cases h with
  | @atom t h =>
    refine ⟨t, [], rfl, ?_⟩
    rcases h with h | ⟨h, -⟩
    · simp [h, startKinds]
    · simp [h, startKinds]
  | @unary t us ht =>
    refine ⟨t, us, rfl, ?_⟩
    simp only [prefixKinds, List.mem_cons, List.not_mem_nil, or_false] at ht
    simp [startKinds, ht]

theorem Expression.exists_head (h : Expression ts) :
    ∃ t us, ts = t :: us ∧ t.kind ∈ startKinds := by
  induction h with
  | operand h => exact h.exists_head
  | @operation ts u vs _ _ _ ih =>
    obtain ⟨t, us, rfl, ht⟩ := ih
    exact ⟨t, us ++ u :: vs, rfl, ht⟩

end PrattFrontend.Language
