import PrattFrontend.Proofs.Parser.Orderly
import PrattFrontend.Proofs.Parser.StandardRules
import PrattFrontend.Proofs.Statement.Outcomes

/-!
# Expressions in parentheses

The standard grammar reads no parentheses, but the text of an expression has them. With one more
rule it reads them. Here is what the grammar then parses without an error.

* **`Grammar.grouping`**: the standard grammar with a rule for parentheses;
* **`Grammar.Forms`**: the expressions that parsing passes through without an error, with the state
  behind each;
* `Grammar.Yields`: the outcomes of parsing an expression;
* **`Grammar.expression_grouping_eq_ok_iff`**: without an error the parser returns what is formed.
-/

namespace PrattFrontend

namespace Grammar

/-- **The standard grammar with a rule for parentheses.** -/
def grouping : Grammar :=
  standard.withPrefix .leftParen Rule.grouped

theorem ruleForStatement_grouping : grouping.ruleForStatement = standard.ruleForStatement := rfl

theorem prefixRule?_grouping_leftParen : grouping.prefixRule? .leftParen = some Rule.grouped := rfl

theorem prefixRule?_grouping_of_ne {k : Token.Kind} (h : k ≠ .leftParen) :
    grouping.prefixRule? k = standard.prefixRule? k :=
  if_neg h

/-- **An expression is formed** without an error. A name, a number and an operator before an operand
are formed as in the standard grammar, and so is an operator between two; an expression between
parentheses is formed as itself. -/
inductive Forms : Power → State → Expr → State → Prop
  | identifier {p s} (hk : s.current.kind = .identifier) :
      Forms p s (.identifier (.ofToken s.current)) s
  | integer {p s v} (hk : s.current.kind = .integer)
      (hv : Text.readInteger? s.current.literal = some v) : Forms p s (.integer s.current v) s
  | unary {p s e t} (hk : s.current.kind = .bang ∨ s.current.kind = .minus)
      (right : Forms .unary s.advance e t) :
      Forms p s (.unary s.current s.current.literal (some e)) t
  | grouped {p s e t} (hk : s.current.kind = .leftParen) (inner : Forms .lowest s.advance e t)
      (hclose : t.next.kind = .rightParen) : Forms p s e t.advance
  | binary {p s l t op e u} (left : Forms p s l t) (hop : standard.nextOperator? p t = some op)
      (right : Forms op.power t.advance.advance e u)
      (stops : standard.nextOperator? op.power u = none) :
      Forms p s (.binary t.next l t.next.literal (some e)) u

/-- The outcomes of parsing an expression: it is formed as far as the power allows, or else there is
an error, which is returned, or was recorded on the way to what is returned. -/
inductive Yields (p : Power) (s : State) : Outcome Expr → Prop
  | formed {e t} (h : Forms p s e t) (stops : standard.nextOperator? p t = none) :
      Yields p s (.ok e, t)
  | failed {err t} (h : s.Precedes t) : Yields p s (.error err, t)
  | faulty {e t} (h : s.Precedes t) (hne : t.errors ≠ s.errors) : Yields p s (.ok e, t)

variable {p : Power} {s t u : State} {e : Expr}

theorem Forms.precedes (h : Forms p s e t) : s.Precedes t := by
  induction h with
  | identifier => exact .refl _
  | integer => exact .refl _
  | unary _ _ ih => exact (State.Precedes.advance _).trans ih
  | grouped _ _ _ ih => exact ((State.Precedes.advance _).trans ih).trans (.advance _)
  | binary _ _ _ _ ihl ih =>
    exact (ihl.trans (.advance _)).trans ((State.Precedes.advance _).trans ih)

theorem Forms.errors_eq (h : Forms p s e t) : t.errors = s.errors := by
  induction h with
  | identifier => rfl
  | integer => rfl
  | unary _ _ ih => exact ih
  | grouped _ _ _ ih => exact ih
  | binary _ _ _ _ ihl ih => exact ih.trans ihl

theorem Yields.precedes {o : Outcome Expr} (h : Yields p s o) : s.Precedes o.2 := by
  cases h with
  | formed h => exact h.precedes
  | failed h => exact h
  | faulty h => exact h

theorem Yields.of_errors_ne {o : Outcome Expr} (h : s.Precedes t) (h' : t.Precedes o.2)
    (hne : t.errors ≠ s.errors) : Yields p s o := by
  obtain ⟨r, u⟩ := o
  cases r with
  | error err => exact .failed (h.trans h')
  | ok e => exact .faulty (h.trans h') fun he => hne (h.errors_eq_left h' he)

/-! ## What the parser returns is formed -/

theorem climb_grouping_succ {expr : ExprParser} {op : Operator}
    (hop : standard.nextOperator? p t = some op) (m : Nat) (l : Expr) :
    grouping.climb expr p (m + 1) l t =
      grouping.climb expr p m
        (.binary t.next l t.next.literal (Rule.operand expr op.power t.advance.advance).1)
        (Rule.operand expr op.power t.advance.advance).2 :=
  climb_succ_of_nextOperator? (g := grouping) hop
    (standard_plain.operator (operator?_of_nextOperator? hop).1) m l

section Step

variable {expr : ExprParser} (hexpr : ∀ q u, Yields q u (expr q u))
include hexpr

theorem operand_precedes (p : Power) (s : State) : s.Precedes (Rule.operand expr p s).2 :=
  Rule.operand_precedes (fun q u => (hexpr q u).precedes) p s

theorem operand_cases (p : Power) (s : State) :
    (∃ e t, Rule.operand expr p s = (some e, t) ∧ Forms p s e t ∧
      standard.nextOperator? p t = none) ∨ (Rule.operand expr p s).2.errors ≠ s.errors := by
  have hyields := hexpr p s
  unfold Rule.operand
  generalize expr p s = o at hyields
  cases hyields with
  | formed h stops => exact .inl ⟨_, _, rfl, h, stops⟩
  | failed h => exact .inr (h.errors_ne_of_record (.refl _))
  | faulty _ hne => exact .inr hne

theorem climb_grouping_precedes (m : Nat) (l : Expr) (t : State) :
    t.Precedes (grouping.climb expr p m l t).2 := by
  induction m generalizing l t with
  | zero => exact .refl t
  | succ m ih =>
    cases hop : standard.nextOperator? p t with
    | none =>
      rw [climb_of_nextOperator?_eq_none grouping hop]
      exact .refl t
    | some op =>
      rw [climb_grouping_succ hop]
      have hright := operand_precedes hexpr op.power t.advance.advance
      exact (((State.Precedes.advance t).trans (.advance _)).trans hright).trans (ih _ _)

/-- **The loop over operators**: an expression is formed until none follows. -/
theorem yields_climb (m : Nat) (l : Expr) (t : State) (hl : Forms p s l t) (hm : t.tokensLeft ≤ m) :
    Yields p s (grouping.climb expr p m l t) := by
  induction m generalizing l t with
  | zero =>
    refine .formed hl (Option.eq_none_iff_forall_ne_some.mpr fun op hop => ?_)
    have := standard_plain.one_lt_tokensLeft hop
    omega
  | succ m ih =>
    cases hop : standard.nextOperator? p t with
    | none =>
      rw [climb_of_nextOperator?_eq_none grouping hop]
      exact .formed hl hop
    | some op =>
      have hlt := standard_plain.one_lt_tokensLeft hop
      have hadv : t.Precedes t.advance.advance := (State.Precedes.advance t).trans (.advance _)
      have hright := operand_precedes hexpr op.power t.advance.advance
      rw [climb_grouping_succ hop]
      rcases operand_cases hexpr op.power t.advance.advance with ⟨e, u, heq, he, stops⟩ | hne
      · have hle := he.precedes.tokensLeft_le
        rw [State.tokensLeft_advance, State.tokensLeft_advance] at hle
        rw [heq]
        refine ih _ _ (.binary hl hop he stops) ?_
        change u.tokensLeft ≤ m
        omega
      · exact .of_errors_ne (hl.precedes.trans (hadv.trans hright))
          (climb_grouping_precedes hexpr m _ _) fun h => hne (h.trans hl.errors_eq.symm)

theorem yields_of_forms (h : Forms p s e t) :
    Yields p s (grouping.climb expr p t.tokens.ahead.length e t) :=
  yields_climb hexpr _ e t h (Nat.le_refl _)

theorem yields_of_errors_ne (h : s.Precedes t) (hne : t.errors ≠ s.errors) (e : Expr) (m : Nat) :
    Yields p s (grouping.climb expr p m e t) :=
  .of_errors_ne h (climb_grouping_precedes hexpr m e t) hne

/-- **One expression**, if those inside it are parsed as the relation says. -/
theorem yields_expressionStep (p : Power) (s : State) :
    Yields p s (grouping.expressionStep expr p s) := by
  unfold expressionStep
  by_cases hk : s.current.kind = .leftParen
  · have hadv := State.Precedes.advance s
    have hinner := hexpr .lowest s.advance
    simp only [hk, prefixRule?_grouping_leftParen, Rule.grouped, State.expectNext]
    generalize expr .lowest s.advance = o at hinner
    cases hinner with
    | @formed e t h stops =>
      by_cases hclose : t.next.kind = .rightParen
      · simp only [hclose, if_true]
        exact yields_of_forms hexpr (.grouped hk h hclose)
      · simp only [hclose, if_false]
        exact .failed (hadv.trans h.precedes)
    | failed h => exact .failed (hadv.trans h)
    | @faulty e t h hne =>
      by_cases hclose : t.next.kind = .rightParen
      · simp only [hclose, if_true]
        exact yields_of_errors_ne hexpr ((hadv.trans h).trans (.advance t)) hne _ _
      · simp only [hclose, if_false]
        exact .failed (hadv.trans h)
  · rw [prefixRule?_grouping_of_ne hk]
    cases hr : standard.prefixRule? s.current.kind with
    | none => exact .failed (.refl s)
    | some r =>
      rcases standard_plain.prefixRule hr with rfl | rfl | rfl
      · exact yields_of_forms hexpr (.identifier (prefixRule?_standard_eq_identifier_iff.mp hr))
      · have hkind := prefixRule?_standard_eq_integer_iff.mp hr
        simp only [Rule.integer]
        cases hv : Text.readInteger? s.current.literal with
        | none => exact .failed (.refl s)
        | some v => exact yields_of_forms hexpr (.integer hkind hv)
      · have hkind := prefixRule?_standard_eq_unary_iff.mp hr
        have hright := operand_precedes hexpr .unary s.advance
        simp only [Rule.unary]
        rcases operand_cases hexpr .unary s.advance with ⟨e, t, heq, he, -⟩ | hne
        · rw [heq]
          exact yields_of_forms hexpr (.unary hkind he)
        · exact yields_of_errors_ne hexpr ((State.Precedes.advance s).trans hright) hne _ _

end Step

theorem yields_expression_grouping (p : Power) (s : State) :
    Yields p s (grouping.expression p s) := by
  have hwithin : ∀ n q u,
      Yields q u (grouping.expressionWithin (fun _ s => (.error s.refusal, s)) n q u) := by
    intro n
    induction n with
    | zero => exact fun q u => .failed (.refl u)
    | succ n ih => exact fun q u => yields_expressionStep ih q u
  exact hwithin _ p s

/-! ## What is formed is what the parser returns -/

/-- **Every expression that is formed is reached by the parser.** -/
theorem Forms.exists_climb_eq (inner : ExprParser) (h : Forms p s e t) :
    ∀ n, s.tokensLeft ≤ n → ∃ m, t.tokensLeft ≤ m ∧
      grouping.expressionWithin inner (n + 1) p s =
        grouping.climb (grouping.expressionWithin inner n) p m e t := by
  induction h with
  | @identifier p s hk =>
    intro n _
    refine ⟨s.tokensLeft, Nat.le_refl _, ?_⟩
    have hr := prefixRule?_standard_eq_identifier_iff.mpr hk
    rw [← prefixRule?_grouping_of_ne (by simp [hk])] at hr
    simp only [expressionWithin_succ, expressionStep, hr, Rule.identifier]
    rfl
  | @integer p s v hk hv =>
    intro n _
    refine ⟨s.tokensLeft, Nat.le_refl _, ?_⟩
    have hr := prefixRule?_standard_eq_integer_iff.mpr hk
    rw [← prefixRule?_grouping_of_ne (by simp [hk])] at hr
    simp only [expressionWithin_succ, expressionStep, hr, Rule.integer, hv]
    rfl
  | @unary p s e t hk right ih =>
    intro n hn
    have hr := prefixRule?_standard_eq_unary_iff.mpr hk
    have hpos := standard_plain.tokensLeft_pos hr
    rw [← prefixRule?_grouping_of_ne (by rcases hk with hk | hk <;> simp [hk])] at hr
    obtain ⟨k, rfl⟩ : ∃ k, n = k + 1 := ⟨n - 1, by omega⟩
    obtain ⟨m, -, hm⟩ := ih k (by rw [State.tokensLeft_advance]; omega)
    rw [climb_of_nextOperator?_eq_none grouping (nextOperator?_unary_standard t)] at hm
    refine ⟨t.tokensLeft, Nat.le_refl _, ?_⟩
    rw [expressionWithin_succ]
    simp only [expressionStep, hr, Rule.unary, Rule.operand, hm]
    rfl
  | @grouped p s e t hk inner hclose ih =>
    intro n hn
    have hpos := State.tokensLeft_pos (s := s) (by simp [hk])
    obtain ⟨k, rfl⟩ : ∃ k, n = k + 1 := ⟨n - 1, by omega⟩
    obtain ⟨m, -, hm⟩ := ih k (by rw [State.tokensLeft_advance]; omega)
    have hstops : standard.nextOperator? .lowest t = none :=
      nextOperator?_lowest_standard_eq_none_iff.mpr (by rw [hclose]; rfl)
    rw [climb_of_nextOperator?_eq_none grouping hstops] at hm
    refine ⟨t.advance.tokensLeft, Nat.le_refl _, ?_⟩
    rw [expressionWithin_succ]
    simp only [expressionStep, hk, prefixRule?_grouping_leftParen, Rule.grouped, hm,
      State.expectNext, hclose, if_true]
    rfl
  | @binary p s l t op e u left hop right stops ihl ih =>
    intro n hn
    have hlt := standard_plain.one_lt_tokensLeft hop
    have hle := left.precedes.tokensLeft_le
    have hle' := right.precedes.tokensLeft_le
    rw [State.tokensLeft_advance, State.tokensLeft_advance] at hle'
    obtain ⟨m, hm, hl⟩ := ihl n hn
    obtain ⟨k, rfl⟩ : ∃ k, n = k + 1 := ⟨n - 1, by omega⟩
    obtain ⟨j, rfl⟩ : ∃ j, m = j + 1 := ⟨m - 1, by omega⟩
    obtain ⟨i, -, hi⟩ := ih k (by rw [State.tokensLeft_advance, State.tokensLeft_advance]; omega)
    rw [climb_of_nextOperator?_eq_none grouping stops] at hi
    refine ⟨j, by omega, ?_⟩
    rw [hl, climb_succ_of_nextOperator? (g := grouping) hop
      (standard_plain.operator (operator?_of_nextOperator? hop).1)]
    simp only [Rule.operand, hi]

/-- **Without an error the parser returns what is formed.** -/
theorem expression_grouping_eq_ok_iff :
    grouping.expression p s = (.ok e, t) ∧ t.errors = s.errors ↔
      Forms p s e t ∧ standard.nextOperator? p t = none := by
  constructor
  · rintro ⟨h, he⟩
    have hyields := yields_expression_grouping p s
    rw [h] at hyields
    cases hyields with
    | formed h stops => exact ⟨h, stops⟩
    | faulty _ hne => exact absurd he hne
  · rintro ⟨h, stops⟩
    refine ⟨?_, h.errors_eq⟩
    obtain ⟨m, -, hm⟩ := h.exists_climb_eq (fun _ s => (.error s.refusal, s)) _ (Nat.le_refl _)
    rw [climb_of_nextOperator?_eq_none grouping stops] at hm
    exact hm

end Grammar

end PrattFrontend
