import PrattFrontend.Proofs.Parser.StandardRules

/-!
# The nodes of an expression

What a tree says about each of its operators is said node by node.

* `Expr.nodes`: the nodes, in the order in which their tokens stand in the source;
* `Expr.Complete`: no operand is missing;
* `Expr.Spelled`: every node says what its token says, and the standard grammar has a rule for it;
* `Expr.Grouped`: every operand binds as tightly as its operator asks;
* **`Expr.Canonical`**: the three together.
-/

namespace PrattFrontend.Expr

open Grammar (standard standardPower?)

/-- The nodes of an expression, each at the place of its token. -/
def nodes : Expr → List Expr
  | .identifier i => [.identifier i]
  | .integer t v => [.integer t v]
  | .unary t o none => [.unary t o none]
  | .unary t o (some e) => .unary t o (some e) :: e.nodes
  | .binary t d o none => d.nodes ++ [.binary t d o none]
  | .binary t d o (some e) => d.nodes ++ .binary t d o (some e) :: e.nodes
termination_by structural e => e

theorem map_token_nodes (e : Expr) : e.nodes.map token = e.tokens := by
  induction e with
  | identifier i => rfl
  | integer t v => rfl
  | unary t o r ih =>
    cases r with
    | none => rfl
    | some e => simp [nodes, tokens, token, ih e rfl]
  | binary t d o r ihd ih =>
    cases r with
    | none => simp [nodes, tokens, token, ihd]
    | some e => simp [nodes, tokens, token, ihd, ih e rfl]

section Forall

variable {P : Expr → Prop}

theorem forall_mem_nodes_unary {t : Token} {o : String} {r : Option Expr} :
    (∀ n ∈ (unary t o r).nodes, P n) ↔ P (unary t o r) ∧ ∀ e ∈ r, ∀ n ∈ e.nodes, P n := by
  cases r with
  | none => simp [nodes]
  | some e => simp [nodes]

theorem forall_mem_nodes_binary {t : Token} {d : Expr} {o : String} {r : Option Expr} :
    (∀ n ∈ (binary t d o r).nodes, P n) ↔
      P (binary t d o r) ∧ (∀ n ∈ d.nodes, P n) ∧ ∀ e ∈ r, ∀ n ∈ e.nodes, P n := by
  cases r with
  | none =>
    simp only [nodes, List.forall_mem_append, List.forall_mem_singleton, Option.not_mem_none,
      false_imp_iff, implies_true, and_true]
    exact and_comm
  | some e =>
    simp only [nodes, List.forall_mem_append, List.forall_mem_cons, Option.mem_some_iff,
      forall_eq']
    exact and_left_comm

end Forall

/-! ## Missing operands -/

/-- Whether a node is an operator without an operand behind it. -/
def lacksOperand : Expr → Bool
  | .unary _ _ none => true
  | .binary _ _ _ none => true
  | _ => false

/-- No operand is missing. -/
def Complete (e : Expr) : Prop :=
  ∀ n ∈ e.nodes, n.lacksOperand = false

instance (e : Expr) : Decidable e.Complete :=
  inferInstanceAs (Decidable (∀ n ∈ e.nodes, n.lacksOperand = false))

theorem complete_unary_iff {t : Token} {o : String} {r : Option Expr} :
    (unary t o r).Complete ↔ ∃ e, r = some e ∧ e.Complete := by
  unfold Complete
  rw [forall_mem_nodes_unary]
  cases r <;> simp [lacksOperand]

theorem complete_binary_iff {t : Token} {d : Expr} {o : String} {r : Option Expr} :
    (binary t d o r).Complete ↔ d.Complete ∧ ∃ e, r = some e ∧ e.Complete := by
  unfold Complete
  rw [forall_mem_nodes_binary]
  cases r <;> simp [lacksOperand]

/-! ## Nodes and their tokens -/

/-- A node says what its token says: a name is the literal of an identifier, a number is the value
of the literal of an integer, and an operator is the literal of a token that is one. -/
def Spells : Expr → Prop
  | .identifier i => i.token.kind = .identifier ∧ i.name = i.token.literal
  | .integer t v => t.kind = .integer ∧ Text.readInteger? t.literal = some v
  | .unary t o _ => (t.kind = .bang ∨ t.kind = .minus) ∧ o = t.literal
  | .binary t _ o _ => (standardPower? t.kind).isSome ∧ o = t.literal

instance : ∀ n : Expr, Decidable n.Spells
  | .identifier i => inferInstanceAs (Decidable (i.token.kind = _ ∧ i.name = i.token.literal))
  | .integer t v => inferInstanceAs (Decidable (t.kind = _ ∧ Text.readInteger? t.literal = some v))
  | .unary t o _ => inferInstanceAs (Decidable ((t.kind = _ ∨ t.kind = _) ∧ o = t.literal))
  | .binary t _ o _ => inferInstanceAs (Decidable ((standardPower? t.kind).isSome ∧ o = t.literal))

/-- Every node says what its token says. -/
def Spelled (e : Expr) : Prop :=
  ∀ n ∈ e.nodes, n.Spells

instance (e : Expr) : Decidable e.Spelled :=
  inferInstanceAs (Decidable (∀ n ∈ e.nodes, n.Spells))

theorem Spells.prefixRule_or_power {n : Expr} (h : n.Spells) :
    (standard.prefixRule? n.token.kind).isSome ∨ (standardPower? n.token.kind).isSome := by
  cases n with
  | identifier i => exact .inl (by rw [token, h.1]; rfl)
  | integer t v => exact .inl (by rw [token, h.1]; rfl)
  | unary t o r =>
    rcases h.1 with hk | hk
    · exact .inl (by rw [token, hk]; rfl)
    · exact .inl (by rw [token, hk]; rfl)
  | binary t d o r => exact .inr h.1

theorem Spelled.prefixRule_or_power {e : Expr} (he : e.Spelled) {t : Token} (ht : t ∈ e.tokens) :
    (standard.prefixRule? t.kind).isSome ∨ (standardPower? t.kind).isSome := by
  rw [← map_token_nodes] at ht
  obtain ⟨n, hn, rfl⟩ := List.mem_map.mp ht
  exact (he n hn).prefixRule_or_power

/-! ## Operators and their operands -/

/-- The power of the operator at the root, if that stands between two operands. -/
def rootPower? : Expr → Option Power
  | .binary t _ _ _ => some (standard.powerOf t.kind)
  | _ => none

/-- The operands of a node bind as tightly as its operator asks: no operator between two operands
stands under one before an operand, and of those between two operands none of less power stands on
the left, and none of the same power or less on the right. -/
def HoldsTightly : Expr → Prop
  | .unary _ _ r => ∀ e ∈ r, e.rootPower? = none
  | .binary t d _ r =>
    (∀ q ∈ d.rootPower?, standard.powerOf t.kind ≤ q) ∧
      ∀ e ∈ r, ∀ q ∈ e.rootPower?, standard.powerOf t.kind < q
  | _ => True

instance : ∀ n : Expr, Decidable n.HoldsTightly
  | .identifier _ => inferInstanceAs (Decidable True)
  | .integer _ _ => inferInstanceAs (Decidable True)
  | .unary _ _ r => inferInstanceAs (Decidable (∀ e ∈ r, e.rootPower? = none))
  | .binary t d _ r =>
    inferInstanceAs (Decidable ((∀ q ∈ d.rootPower?, standard.powerOf t.kind ≤ q) ∧
      ∀ e ∈ r, ∀ q ∈ e.rootPower?, standard.powerOf t.kind < q))

/-- Every node holds its operands tightly. -/
def Grouped (e : Expr) : Prop :=
  ∀ n ∈ e.nodes, n.HoldsTightly

instance (e : Expr) : Decidable e.Grouped :=
  inferInstanceAs (Decidable (∀ n ∈ e.nodes, n.HoldsTightly))

/-- **A canonical expression** has all its operands, says what its tokens say, and needs no
parentheses. -/
structure Canonical (e : Expr) : Prop where
  complete : e.Complete
  spelled : e.Spelled
  grouped : e.Grouped

instance (e : Expr) : Decidable e.Canonical :=
  decidable_of_iff (e.Complete ∧ e.Spelled ∧ e.Grouped)
    ⟨fun ⟨hc, hs, hg⟩ => ⟨hc, hs, hg⟩, fun h => ⟨h.complete, h.spelled, h.grouped⟩⟩

theorem canonical_unary_iff {t : Token} {o : String} {r : Option Expr} :
    (unary t o r).Canonical ↔
      (unary t o r).Spells ∧ ∃ e, r = some e ∧ e.rootPower? = none ∧ e.Canonical := by
  constructor
  · rintro ⟨hc, hs, hg⟩
    obtain ⟨e, rfl, hce⟩ := complete_unary_iff.mp hc
    obtain ⟨hs, hse⟩ := forall_mem_nodes_unary.mp hs
    obtain ⟨hg, hge⟩ := forall_mem_nodes_unary.mp hg
    exact ⟨hs, e, rfl, hg e rfl, hce, hse e rfl, hge e rfl⟩
  · rintro ⟨hs, e, rfl, hr, hce, hse, hge⟩
    refine ⟨complete_unary_iff.mpr ⟨e, rfl, hce⟩, forall_mem_nodes_unary.mpr ⟨hs, ?_⟩,
      forall_mem_nodes_unary.mpr ⟨?_, ?_⟩⟩
    · rintro _ ⟨⟩
      exact hse
    · rintro _ ⟨⟩
      exact hr
    · rintro _ ⟨⟩
      exact hge

theorem canonical_binary_iff {t : Token} {d : Expr} {o : String} {r : Option Expr} :
    (binary t d o r).Canonical ↔
      (binary t d o r).Spells ∧ ((∀ q ∈ d.rootPower?, standard.powerOf t.kind ≤ q) ∧ d.Canonical) ∧
        ∃ e, r = some e ∧ (∀ q ∈ e.rootPower?, standard.powerOf t.kind < q) ∧ e.Canonical := by
  constructor
  · rintro ⟨hc, hs, hg⟩
    obtain ⟨hcd, e, rfl, hce⟩ := complete_binary_iff.mp hc
    obtain ⟨hs, hsd, hse⟩ := forall_mem_nodes_binary.mp hs
    obtain ⟨⟨hgl, hgr⟩, hgd, hge⟩ := forall_mem_nodes_binary.mp hg
    exact ⟨hs, ⟨hgl, hcd, hsd, hgd⟩, e, rfl, hgr e rfl, hce, hse e rfl, hge e rfl⟩
  · rintro ⟨hs, ⟨hgl, hcd, hsd, hgd⟩, e, rfl, hgr, hce, hse, hge⟩
    refine ⟨complete_binary_iff.mpr ⟨hcd, e, rfl, hce⟩, forall_mem_nodes_binary.mpr ⟨hs, hsd, ?_⟩,
      forall_mem_nodes_binary.mpr ⟨⟨hgl, ?_⟩, hgd, ?_⟩⟩
    · rintro _ ⟨⟩
      exact hse
    · rintro _ ⟨⟩
      exact hgr
    · rintro _ ⟨⟩
      exact hge

end PrattFrontend.Expr
