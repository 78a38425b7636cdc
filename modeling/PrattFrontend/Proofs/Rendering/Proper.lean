import PrattFrontend.Proofs.Rendering.Legible
import PrattFrontend.Proofs.Statement.Tokens
import PrattFrontend.Proofs.Token.Prescription

/-!
# Proper trees

The parts of a tree are names that are no reserved words, numbers and the operators of the language,
and its operands and values may be missing. Whatever is parsed is such a tree, with errors or
without, since its nodes say what their tokens say, and these are tokens of the source.

* **`Expr.Proper`**, **`Statement.Proper`**: the trees of which this is so;
* `Expr.Spelled.proper`, `Statement.Spelled.proper`: trees with proper tokens are proper;
* **`proper_of_mem_parse`**: the statements of a source are.
-/

namespace PrattFrontend

open Grammar (standardPower?)
open Token (Lexeme Kind)

/-! ## Trees of proper parts -/

/-- The operators before an operand. -/
def unaryOperators : List String :=
  ["!", "-"]

/-- The operators between two operands. -/
def binaryOperators : List String :=
  ["==", "!=", "<", ">", "+", "-", "*", "/"]

/-- Whether the parts of a node are those of its sort: a name is an identifier, and an operator is
one of its sort. A number may be any, and operands may be missing. -/
def Expr.HasProperParts : Expr → Prop
  | .identifier i => (Lexeme.mk .identifier i.name.toList).Proper
  | .integer _ _ => True
  | .unary _ o _ => o ∈ unaryOperators
  | .binary _ _ o _ => o ∈ binaryOperators

instance : ∀ n : Expr, Decidable n.HasProperParts
  | .identifier i => inferInstanceAs (Decidable (Lexeme.mk .identifier i.name.toList).Proper)
  | .integer _ _ => inferInstanceAs (Decidable True)
  | .unary _ o _ => inferInstanceAs (Decidable (o ∈ unaryOperators))
  | .binary _ _ o _ => inferInstanceAs (Decidable (o ∈ binaryOperators))

/-- **A proper expression**: all its nodes have proper parts. -/
def Expr.Proper (e : Expr) : Prop :=
  ∀ n ∈ e.nodes, n.HasProperParts

instance (e : Expr) : Decidable e.Proper :=
  inferInstanceAs (Decidable (∀ n ∈ e.nodes, n.HasProperParts))

theorem Expr.proper_identifier_iff {i : Identifier} :
    (identifier i).Proper ↔ (Lexeme.mk .identifier i.name.toList).Proper := by
  simp [Expr.Proper, nodes, HasProperParts]

theorem Expr.proper_unary_iff {t : Token} {o : String} {r : Option Expr} :
    (unary t o r).Proper ↔ o ∈ unaryOperators ∧ ∀ e ∈ r, e.Proper :=
  forall_mem_nodes_unary

theorem Expr.proper_binary_iff {t : Token} {d : Expr} {o : String} {r : Option Expr} :
    (binary t d o r).Proper ↔ o ∈ binaryOperators ∧ d.Proper ∧ ∀ e ∈ r, e.Proper :=
  forall_mem_nodes_binary

/-- **A proper statement**: it starts with its word, and its name and its value are proper. The
value may be missing. -/
def Statement.Proper : Statement → Prop
  | letValue t name v =>
    t.literal = "let" ∧ (Lexeme.mk .identifier name.name.toList).Proper ∧ ∀ e ∈ v, e.Proper
  | returnValue t v => t.literal = "return" ∧ ∀ e ∈ v, e.Proper
  | expression _ v => ∀ e ∈ v, e.Proper

instance : ∀ st : Statement, Decidable st.Proper
  | .letValue t name v =>
    inferInstanceAs (Decidable (t.literal = "let" ∧
      (Lexeme.mk .identifier name.name.toList).Proper ∧ ∀ e ∈ v, e.Proper))
  | .returnValue t v => inferInstanceAs (Decidable (t.literal = "return" ∧ ∀ e ∈ v, e.Proper))
  | .expression _ v => inferInstanceAs (Decidable (∀ e ∈ v, e.Proper))

/-! ## What was parsed is proper -/

namespace Expr

variable {e n : Expr}

theorem literal_mem_of_mark {t : Token} (h : t.lexeme.Proper) {ops : List String}
    (hops : Token.marks.any fun m => m.2 = t.kind ∧ m.1 ∈ ops) : t.literal ∈ ops := by
  obtain ⟨⟨text, k⟩, hmem, hmark⟩ := List.any_eq_true.mp hops
  obtain ⟨hk, htext⟩ := of_decide_eq_true hmark
  rwa [String.toList_inj.mp (h.text_of_mark hmem hk.symm)]

/-- **A node that says what its token says has proper parts.** -/
theorem Spells.hasProperParts (h : n.Spells) (ht : n.token.lexeme.Proper) : n.HasProperParts := by
  cases n with
  | identifier i =>
    obtain ⟨hk, hname⟩ := h
    rw [token, Token.lexeme, hk, ← hname] at ht
    exact ht
  | integer t v => exact trivial
  | unary t o r =>
    obtain ⟨hk, rfl⟩ := h
    have hall : ∀ k : Kind, k = .bang ∨ k = .minus →
        Token.marks.any fun m => m.2 = k ∧ m.1 ∈ unaryOperators := by
      rintro k (rfl | rfl) <;> decide
    exact literal_mem_of_mark ht (hall _ hk)
  | binary t d o r =>
    obtain ⟨hk, rfl⟩ := h
    have hall : ∀ k : Kind, (standardPower? k).isSome →
        Token.marks.any fun m => m.2 = k ∧ m.1 ∈ binaryOperators := by
      intro k
      cases k <;> decide
    exact literal_mem_of_mark ht (hall _ hk)

/-- **An expression that says what its tokens say is proper**, if these are. -/
theorem Spelled.proper (he : e.Spelled) (ht : ∀ t ∈ e.tokens, t.lexeme.Proper) : e.Proper := by
  intro n hn
  have hmem : n.token ∈ e.tokens := by
    rw [← map_token_nodes]
    exact List.mem_map_of_mem hn
  exact (he n hn).hasProperParts (ht _ hmem)

end Expr

/-- **A statement that says what its tokens say is proper**, if these are. -/
theorem Statement.Spelled.proper {st : Statement} (hst : st.Spelled)
    (ht : ∀ t ∈ st.tokens, t.lexeme.Proper) : st.Proper := by
  obtain ⟨hvalue, hst⟩ := hst
  have hproper : ∀ e ∈ st.value, (∀ t ∈ e.tokens, t.lexeme.Proper) → e.Proper :=
    fun e he => (hvalue e he).proper
  cases st with
  | letValue t name v =>
    obtain ⟨hk, hname, heq⟩ := hst
    have hword := ht t List.mem_cons_self
    have hident := ht name.token (List.mem_cons_of_mem t List.mem_cons_self)
    rw [Token.lexeme, hname, ← heq] at hident
    have hlet : ("let", Kind.letWord) ∈ Token.reservedWords := by decide
    refine ⟨String.toList_inj.mp (hword.text_of_reserved hlet hk), hident, ?_⟩
    rintro e rfl
    exact hproper e rfl fun x hx => ht x (List.mem_cons_of_mem t (List.mem_cons_of_mem _ hx))
  | returnValue t v =>
    have hword := ht t List.mem_cons_self
    have hreturn : ("return", Kind.returnWord) ∈ Token.reservedWords := by decide
    refine ⟨String.toList_inj.mp (hword.text_of_reserved hreturn hst), ?_⟩
    rintro e rfl
    exact hproper e rfl fun x hx => ht x (List.mem_cons_of_mem t hx)
  | expression t v =>
    rintro e rfl
    exact hproper e rfl ht

/-- **Every statement of a source is proper**, whatever errors are found. -/
theorem proper_of_mem_parse {config : Config} {source : Source} :
    ∀ st ∈ (parse config source).1.statements, st.Proper := by
  intro st hst
  have hspelled : st.Spelled := by
    have hturns := hst
    rw [statements_parse_eq] at hturns
    obtain ⟨turn, hturn, heq⟩ := List.mem_filterMap.mp hturns
    exact (spelled_of_mem_parseTurns config source turn hturn st heq).1
  refine hspelled.proper fun t ht => ?_
  have hmem : t ∈ (Token.Stream.ofSource source).ahead :=
    (Grammar.tokens_statements_sublist config _ _).subset (List.mem_flatMap.mpr ⟨st, hst, ht⟩)
  have hlexeme : t.lexeme ∈ Token.lexemes source.text.toList := by
    rw [← Token.Stream.map_lexeme_ofSource]
    exact List.mem_map_of_mem hmem
  exact Token.proper_of_mem_lexemes hlexeme

end PrattFrontend
