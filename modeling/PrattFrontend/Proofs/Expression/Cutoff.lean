import PrattFrontend.Proofs.Expression.Precedence
import PrattFrontend.Proofs.Parser.Orderly

/-!
# Powers that cut an expression off

With a higher power the loop over operators ends earlier, and nothing else is different. So what is
parsed with the higher power is what the loop with the lower one gets to on its way.

* `Expr.leftSpine`: an expression, its left operand, the left operand of that, and so on;
* `Grammar.Grows.mono`: what grows with some power grows with a lower one;
* `Grammar.Plain.expression_eq_expressionStep`: the loop of the parser has the parser itself for its
  operands;
* `Grammar.mem_leftSpine_of_climb`: the loop keeps what it has got as a left operand;
* `Grammar.Plain.exists_climb_eq_of_le`: going on with a lower power;
* **`Grammar.expression_cut_off`**: two powers, one behind the other, in the standard grammar.
-/

namespace PrattFrontend

/-! ## Left operands of left operands -/

namespace Expr

/-- An expression, its left operand, the left operand of that, and so on. -/
def leftSpine : Expr → List Expr
  | .identifier i => [.identifier i]
  | .integer t v => [.integer t v]
  | .unary t o r => [.unary t o r]
  | .binary t d o r => .binary t d o r :: d.leftSpine
termination_by structural e => e

theorem self_mem_leftSpine (e : Expr) : e ∈ e.leftSpine := by
  cases e <;> simp [leftSpine]

theorem mem_leftSpine_trans {d e f : Expr} (hd : d ∈ f.leftSpine) (hf : f ∈ e.leftSpine) :
    d ∈ e.leftSpine := by
  induction e with
  | identifier i => rwa [List.mem_singleton.mp hf] at hd
  | integer t v => rwa [List.mem_singleton.mp hf] at hd
  | unary t o r => rwa [List.mem_singleton.mp hf] at hd
  | binary t l o r ihl =>
    rcases List.mem_cons.mp hf with rfl | hf
    · exact hd
    · exact List.mem_cons_of_mem _ (ihl hf)

theorem left_mem_leftSpine {t : Token} {d e : Expr} {o : String} {r : Option Expr}
    (h : binary t d o r ∈ e.leftSpine) : d ∈ e.leftSpine :=
  mem_leftSpine_trans (f := binary t d o r) (List.mem_cons_of_mem _ d.self_mem_leftSpine) h

end Expr

namespace Grammar

variable {g : Grammar} {expr : ExprParser} {p q : Power} {s t u : State} {l e f : Expr}

/-! ## Lower powers -/

theorem nextOperator?_eq_some_of_le (hpq : p ≤ q) {op : Operator}
    (h : g.nextOperator? q s = some op) : g.nextOperator? p s = some op := by
  obtain ⟨hop, hlt, hsemi⟩ := nextOperator?_eq_some_iff.mp h
  exact nextOperator?_eq_some_iff.mpr ⟨hop, lt_of_le_of_lt hpq hlt, hsemi⟩

/-- **What grows with some power grows with a lower one.** -/
theorem Grows.mono (hpq : p ≤ q) (h : g.Grows q s e t) : g.Grows p s e t := by
  induction h with
  | identifier h => exact .identifier h
  | integer h hv => exact .integer h hv
  | unary h right stops => exact .unary h right stops
  | unaryHole h hole => exact .unaryHole h hole
  | binary _ hop right stops ihl =>
    exact .binary (ihl hpq) (nextOperator?_eq_some_of_le hpq hop) right stops
  | binaryHole _ hop hole ihl =>
    exact .binaryHole (ihl hpq) (nextOperator?_eq_some_of_le hpq hop) hole

/-! ## The loop over operators -/

theorem Answers.precedes {o : Outcome Expr} (h : g.Answers p s o) : s.Precedes o.2 := by
  cases h with
  | read h => exact h.1.precedes
  | refused => exact .refl s

namespace Plain

variable (hg : g.Plain)
include hg

theorem expression_precedes (p : Power) (s : State) : s.Precedes (g.expression p s).2 :=
  (hg.answers_expression p s).precedes

/-- **An expression is one step**, with whole expressions for the operands in it. -/
theorem expression_eq_expressionStep (p : Power) (s : State) :
    g.expression p s = g.expressionStep g.expression p s :=
  hg.expression_eq_of_answers
    (hg.answers_expressionStep fun q u _ => hg.answers_expression q u)

/-- **What the loop has got to stays a left operand.** -/
theorem mem_leftSpine_of_climb (hexpr : ∀ (q : Power) (u : State), u.Precedes (expr q u).2)
    {n : Nat} (h : g.climb expr p n l t = (.ok e, u)) : l ∈ e.leftSpine ∧ t.Precedes u := by
  induction n generalizing l t with
  | zero =>
    cases h
    exact ⟨Expr.self_mem_leftSpine _, .refl _⟩
  | succ n ih =>
    cases hop : g.nextOperator? p t with
    | none =>
      rw [climb_of_nextOperator?_eq_none g hop] at h
      cases h
      exact ⟨Expr.self_mem_leftSpine _, .refl _⟩
    | some op =>
      rw [climb_succ_of_nextOperator? hop (hg.operator (operator?_of_nextOperator? hop).1)] at h
      obtain ⟨hmem, hprec⟩ := ih h
      have hadv : t.Precedes t.advance.advance := (State.Precedes.advance t).trans (.advance _)
      exact ⟨Expr.left_mem_leftSpine hmem,
        (hadv.trans (Rule.operand_precedes hexpr op.power _)).trans hprec⟩

/-- **Going on with a lower power**, from where a higher one has stopped. -/
theorem exists_climb_eq_of_le (hpq : p ≤ q) (h : g.expression q s = (.ok f, u)) :
    ∃ e t, g.expression p s = (.ok e, t) ∧
      ∀ n, u.tokensLeft ≤ n → g.climb g.expression p n f u = (.ok e, t) := by
  have hgrows : g.Grows p s f u := (hg.expression_eq_ok_iff.mp h).1.mono hpq
  have hloop (n : Nat) (hn : u.tokensLeft ≤ n) :
      ∃ e t, g.climb g.expression p n f u = (.ok e, t) ∧ g.expression p s = (.ok e, t) := by
    obtain ⟨e, t, he, hreads⟩ :=
      hg.exists_climb (fun q u _ => hg.answers_expression q u) n f u hgrows hn hn
    exact ⟨e, t, he, hg.expression_eq_ok_iff.mpr hreads⟩
  obtain ⟨e, t, -, he⟩ := hloop u.tokensLeft (Nat.le_refl _)
  refine ⟨e, t, he, fun n hn => ?_⟩
  obtain ⟨e', t', hclimb, he'⟩ := hloop n hn
  rw [hclimb, ← he', he]

end Plain

/-- **A higher power cuts an expression off along its left spine.** -/
theorem expression_cut_off (hpq : p ≤ q) (s : State) :
    (∃ err, standard.expression p s = (.error err, s) ∧
      standard.expression q s = (.error err, s)) ∨
    ∃ e t f u, standard.expression p s = (.ok e, t) ∧ standard.expression q s = (.ok f, u) ∧
      f ∈ e.leftSpine ∧ s.Precedes u ∧ u.Precedes t ∧
      ∀ n, u.tokensLeft ≤ n → standard.climb standard.expression p n f u = (.ok e, t) := by
  have hg := standard_plain
  cases hq : standard.expression q s with
  | mk r u =>
    cases r with
    | error err =>
      obtain ⟨hrefuses, rfl⟩ := hg.expression_eq_error_iff.mp hq
      exact .inl ⟨err, hrefuses.expression_eq p, rfl⟩
    | ok f =>
      obtain ⟨e, t, he, hclimb⟩ := hg.exists_climb_eq_of_le hpq hq
      obtain ⟨hmem, hprec⟩ :=
        hg.mem_leftSpine_of_climb hg.expression_precedes (hclimb _ (Nat.le_refl _))
      have hsu : s.Precedes u := by
        have := hg.expression_precedes q s
        rwa [hq] at this
      exact .inr ⟨e, t, f, u, he, rfl, hmem, hsu, hprec, hclimb⟩

/-- The state before a text in which two operators lack an operand. -/
def danglingStart : State :=
  .start (.ofSource (.ofText "-a * ) - b == )" none))

/-- With the power of a sum, the sample is cut off before the first parenthesis. -/
theorem expression_cut_off_danglingStart :
    Power.lowest ≤ .sum ∧ ∃ e t f u,
      standard.expression .lowest danglingStart = (.ok e, t) ∧
      standard.expression .sum danglingStart = (.ok f, u) ∧
      (e.code = "((((-a) * ) - b) == )" ∧ f.code = "((-a) * )") ∧
      (u.errors.size = 1 ∧ t.errors.size = 2) ∧
      f ∈ e.leftSpine ∧ danglingStart.Precedes u ∧ u.Precedes t ∧
      ∀ n, u.tokensLeft ≤ n → standard.climb standard.expression .lowest n f u = (.ok e, t) := by
  have hle : Power.lowest ≤ .sum := by decide
  have hlow : (standard.expression .lowest danglingStart).1.map Expr.code =
      .ok "((((-a) * ) - b) == )" := by decide +kernel
  have hsum : (standard.expression .sum danglingStart).1.map Expr.code = .ok "((-a) * )" := by
    decide +kernel
  have herrors : (standard.expression .sum danglingStart).2.errors.size = 1 ∧
      (standard.expression .lowest danglingStart).2.errors.size = 2 := by decide +kernel
  rcases expression_cut_off hle danglingStart with ⟨err, he, -⟩ | ⟨e, t, f, u, he, hf, h⟩
  · rw [he] at hlow
    cases hlow
  · rw [he] at hlow herrors
    rw [hf] at hsum herrors
    exact ⟨hle, e, t, f, u, he, hf, ⟨Except.ok.inj hlow, Except.ok.inj hsum⟩, herrors, h⟩

end Grammar

end PrattFrontend
