import PrattFrontend.Parser.Program
import PrattFrontend.Proofs.Parser.Progress

/-!
# How expressions grow

An expression is parsed by starting with a token and taking in operators, one after another. Here
that is said as a relation between the state at the start, the expression read so far and the state
reached with it; the parser is then shown to follow it.

* `Grammar.Plain`: a grammar that puts the standard rules on kinds of tokens as it likes, but has
  no others;
* `Grammar.Refuses`: why no expression starts at a state;
* **`Grammar.Grows`**: the expressions that parsing passes through, with the state behind each;
* `Grammar.Reads`: the last of them, behind which no operator follows that binds tighter;
* `Grammar.Follows`: grammars that come to the same, although they may have more rules;
* **`Grammar.Plain.expression_eq_ok_iff`**, **`Grammar.Plain.expression_eq_error_iff`**: the
  outcomes of the parser are those two.
-/

namespace PrattFrontend.Grammar

/-- A **plain** grammar has the standard rules only, for whatever kinds of tokens. The end of the
input is no operator in it, neither before an operand nor between two. -/
structure Plain (g : Grammar) : Prop where
  prefixRule : ∀ {k r}, g.prefixRule? k = some r →
    r = Rule.identifier ∨ r = Rule.integer ∨ r = Rule.unary
  operator : ∀ {k op}, g.operator? k = some op → op.rule = Rule.binary
  statementRule : ∀ {k r}, g.statementRule? k = some r →
    r = Rule.letStatement ∨ r = Rule.returnStatement ∨ r = Rule.expressionStatement
  unary_endOfInput : g.prefixRule? .endOfInput ≠ some Rule.unary
  operator_endOfInput : g.operator? .endOfInput = none

variable (g : Grammar)

/-- No expression starts at a state: no rule is there for the current token, or it is a number out
of range. -/
inductive Refuses (s : State) : ParseError → Prop
  | noRule (h : g.prefixRule? s.current.kind = none) : Refuses s s.refusal
  | outOfRange (h : g.prefixRule? s.current.kind = some Rule.integer)
      (hv : Text.readInteger? s.current.literal = none) :
      Refuses s ⟨.integerOutOfRange s.current.literal, s.current.span.start⟩

/-- **An expression grows.** From a state and a power on, parsing gets to an expression and a state
behind it: a leaf, an operator before what is read for its operand, or an expression it got to
before with an operator behind it that binds tighter than the power. An operand that is refused
leaves a hole, and the refusal is recorded. -/
inductive Grows : Power → State → Expr → State → Prop
  | identifier {p s} (h : g.prefixRule? s.current.kind = some Rule.identifier) :
      Grows p s (.identifier (.ofToken s.current)) s
  | integer {p s v} (h : g.prefixRule? s.current.kind = some Rule.integer)
      (hv : Text.readInteger? s.current.literal = some v) :
      Grows p s (.integer s.current v) s
  | unary {p s e t} (h : g.prefixRule? s.current.kind = some Rule.unary)
      (right : Grows .unary s.advance e t) (stops : g.nextOperator? .unary t = none) :
      Grows p s (.unary s.current s.current.literal (some e)) t
  | unaryHole {p s err} (h : g.prefixRule? s.current.kind = some Rule.unary)
      (hole : g.Refuses s.advance err) :
      Grows p s (.unary s.current s.current.literal none) (s.advance.record err)
  | binary {p s l t op e u} (left : Grows p s l t) (hop : g.nextOperator? p t = some op)
      (right : Grows op.power t.advance.advance e u)
      (stops : g.nextOperator? op.power u = none) :
      Grows p s (.binary t.next l t.next.literal (some e)) u
  | binaryHole {p s l t op err} (left : Grows p s l t) (hop : g.nextOperator? p t = some op)
      (hole : g.Refuses t.advance.advance err) :
      Grows p s (.binary t.next l t.next.literal none) (t.advance.advance.record err)

/-- An expression is read when it has grown as far as the power allows. -/
def Reads (p : Power) (s : State) (e : Expr) (t : State) : Prop :=
  g.Grows p s e t ∧ g.nextOperator? p t = none

/-- The outcomes of parsing an expression: one is read, or it is refused at its first token. -/
inductive Answers (p : Power) (s : State) : Outcome Expr → Prop
  | read {e t} (h : g.Reads p s e t) : Answers p s (.ok e, t)
  | refused {err} (h : g.Refuses s err) : Answers p s (.error err, s)

/-- A grammar **follows** another one as far as given errors go. It has all the rules of the other
for the start of an expression, the same operators and the same rules for statements. It may have
more rules for the start of an expression, but not where the other refused a token with one of the
errors. -/
structure Follows (g' g : Grammar) (errs : List ParseError) : Prop where
  prefixRule : ∀ {k r}, g.prefixRule? k = some r → g'.prefixRule? k = some r
  operator : ∀ k, g'.operator? k = g.operator? k
  ruleForStatement : ∀ k, g'.ruleForStatement k = g.ruleForStatement k
  refuses : ∀ {s err}, err ∈ errs → g.Refuses s err → g'.Refuses s err

variable {g} {g' : Grammar} {errs errs' : List ParseError} {p : Power} {s t : State} {e : Expr}
  {err : ParseError}

theorem Follows.refl (g : Grammar) (errs : List ParseError) : g.Follows g errs :=
  ⟨fun h => h, fun _ => rfl, fun _ => rfl, fun _ h => h⟩

theorem Follows.mono (h : g'.Follows g errs) (hsub : errs' ⊆ errs) : g'.Follows g errs' :=
  ⟨h.prefixRule, h.operator, h.ruleForStatement, fun he => h.refuses (hsub he)⟩

theorem Follows.nextOperator?_eq (h : g'.Follows g errs) (p : Power) (s : State) :
    g'.nextOperator? p s = g.nextOperator? p s := by
  ext op
  rw [nextOperator?_eq_some_iff, nextOperator?_eq_some_iff, h.operator]

theorem Grows.precedes (h : g.Grows p s e t) : s.Precedes t := by
  induction h with
  | identifier => exact .refl _
  | integer => exact .refl _
  | unary _ _ _ ih => exact (State.Precedes.advance _).trans ih
  | unaryHole => exact (State.Precedes.advance _).trans (.record _ _)
  | binary _ _ _ _ ihl ih =>
    exact (ihl.trans (.advance _)).trans ((State.Precedes.advance _).trans ih)
  | binaryHole _ _ _ ihl =>
    exact (ihl.trans (.advance _)).trans ((State.Precedes.advance _).trans (.record _ _))

/-! ## Operators that follow -/

theorem operator?_of_nextOperator? {op : Operator} (h : g.nextOperator? p s = some op) :
    g.operator? s.next.kind = some op ∧ p < op.power ∧ s.next.kind ≠ .semicolon :=
  nextOperator?_eq_some_iff.mp h

theorem climb_succ_of_nextOperator? {expr : ExprParser} {op : Operator}
    (hop : g.nextOperator? p t = some op) (hrule : op.rule = Rule.binary) (m : Nat) (l : Expr) :
    g.climb expr p (m + 1) l t =
      g.climb expr p m
        (.binary t.next l t.next.literal (Rule.operand expr op.power t.advance.advance).1)
        (Rule.operand expr op.power t.advance.advance).2 := by
  simp only [climb, hop, hrule, Rule.binary, State.current_advance]

theorem Refuses.expressionStep_eq (h : g.Refuses s err) (expr : ExprParser) (p : Power) :
    g.expressionStep expr p s = (.error err, s) := by
  unfold expressionStep
  cases h with
  | noRule h => rw [h]
  | outOfRange h hv => simp only [h, Rule.integer, hv]

theorem Refuses.expression_eq (h : g.Refuses s err) (p : Power) :
    g.expression p s = (.error err, s) :=
  h.expressionStep_eq _ p

namespace Plain

variable (hg : g.Plain)
include hg

theorem one_lt_tokensLeft {op : Operator} (h : g.nextOperator? p s = some op) :
    1 < s.tokensLeft := by
  refine State.one_lt_tokensLeft fun hk => ?_
  have := (operator?_of_nextOperator? h).1
  rw [hk, hg.operator_endOfInput] at this
  exact absurd this (by simp)

theorem tokensLeft_pos (h : g.prefixRule? s.current.kind = some Rule.unary) : 0 < s.tokensLeft := by
  refine State.tokensLeft_pos fun hk => ?_
  rw [hk] at h
  exact hg.unary_endOfInput h

/-! ## The parser follows the relation -/

/-- **The loop over operators**: an expression grows until none follows. -/
theorem exists_climb {expr : ExprParser} {n : Nat}
    (hexpr : ∀ q u, u.tokensLeft < n → g.Answers q u (expr q u)) :
    ∀ (m : Nat) (l : Expr) (t : State), g.Grows p s l t → t.tokensLeft ≤ n → t.tokensLeft ≤ m →
      ∃ e u, g.climb expr p m l t = (.ok e, u) ∧ g.Reads p s e u := by
  intro m
  induction m with
  | zero =>
    intro l t hl _ hm
    refine ⟨l, t, rfl, hl, Option.eq_none_iff_forall_ne_some.mpr fun op hop => ?_⟩
    have := hg.one_lt_tokensLeft hop
    omega
  | succ m ih =>
    intro l t hl hn hm
    cases hop : g.nextOperator? p t with
    | none => exact ⟨l, t, climb_of_nextOperator?_eq_none g hop _ _, hl, hop⟩
    | some op =>
      have hlt := hg.one_lt_tokensLeft hop
      have hrule := hg.operator (operator?_of_nextOperator? hop).1
      have hans := hexpr op.power t.advance.advance
        (by rw [State.tokensLeft_advance, State.tokensLeft_advance]; omega)
      rw [climb_succ_of_nextOperator? hop hrule]
      generalize ho : expr op.power t.advance.advance = o at hans
      cases hans with
      | read h =>
        have hle := h.1.precedes.tokensLeft_le
        rw [State.tokensLeft_advance, State.tokensLeft_advance] at hle
        simp only [Rule.operand, ho]
        exact ih _ _ (.binary hl hop h.1 h.2) (by omega) (by omega)
      | refused h =>
        have hle : t.advance.advance.tokensLeft = t.tokensLeft - 1 - 1 := by
          rw [State.tokensLeft_advance, State.tokensLeft_advance]
        simp only [Rule.operand, ho]
        refine ih _ _ (.binaryHole hl hop h) ?_ ?_
        · rw [State.tokensLeft_record]
          omega
        · rw [State.tokensLeft_record]
          omega

/-- **One expression**, if those inside it are answered. -/
theorem answers_expressionStep {expr : ExprParser}
    (hexpr : ∀ q u, u.tokensLeft < s.tokensLeft → g.Answers q u (expr q u)) :
    g.Answers p s (g.expressionStep expr p s) := by
  have hclimb : ∀ {l t}, g.Grows p s l t →
      g.Answers p s (g.climb expr p t.tokens.ahead.length l t) := by
    intro l t hl
    obtain ⟨e, u, he, hread⟩ :=
      hg.exists_climb hexpr _ l t hl hl.precedes.tokensLeft_le (Nat.le_refl _)
    change g.Answers p s (g.climb expr p t.tokensLeft l t)
    rw [he]
    exact .read hread
  unfold expressionStep
  cases hr : g.prefixRule? s.current.kind with
  | none => exact .refused (.noRule hr)
  | some r =>
    rcases hg.prefixRule hr with rfl | rfl | rfl
    · exact hclimb (.identifier hr)
    · simp only [Rule.integer]
      cases hv : Text.readInteger? s.current.literal with
      | none => exact .refused (.outOfRange hr hv)
      | some v => exact hclimb (.integer hr hv)
    · have hans := hexpr .unary s.advance
        (by have := hg.tokensLeft_pos hr; rw [State.tokensLeft_advance]; omega)
      simp only [Rule.unary, Rule.operand]
      generalize expr .unary s.advance = o at hans
      cases hans with
      | read h => exact hclimb (.unary hr h.1 h.2)
      | refused h => exact hclimb (.unaryHole hr h)

theorem answers_expressionWithin (inner : ExprParser) (n : Nat) (p : Power) (s : State)
    (h : s.tokensLeft < n) : g.Answers p s (g.expressionWithin inner n p s) := by
  induction n generalizing p s with
  | zero => omega
  | succ n ih =>
    rw [expressionWithin_succ]
    exact hg.answers_expressionStep fun q u hu => ih q u (by omega)

/-! ## The relation is followed to the end -/

/-- **Every expression that is grown is reached by the parser.** -/
theorem exists_climb_eq (inner : ExprParser) (h : g.Grows p s e t)
    (hf : g'.Follows g t.errors.toList) :
    ∀ n, s.tokensLeft ≤ n → ∃ m, t.tokensLeft ≤ m ∧
      g'.expressionWithin inner (n + 1) p s = g'.climb (g'.expressionWithin inner n) p m e t := by
  induction h with
  | @identifier p s h =>
    intro n _
    refine ⟨s.tokensLeft, Nat.le_refl _, ?_⟩
    simp only [expressionWithin_succ, expressionStep, hf.prefixRule h, Rule.identifier]
    rfl
  | @integer p s v h hv =>
    intro n _
    refine ⟨s.tokensLeft, Nat.le_refl _, ?_⟩
    simp only [expressionWithin_succ, expressionStep, hf.prefixRule h, Rule.integer, hv]
    rfl
  | @unary p s e t h _ stops ih =>
    intro n hn
    have hpos := hg.tokensLeft_pos h
    obtain ⟨k, rfl⟩ : ∃ k, n = k + 1 := ⟨n - 1, by omega⟩
    obtain ⟨m, -, hm⟩ := ih hf k (by rw [State.tokensLeft_advance]; omega)
    rw [← hf.nextOperator?_eq] at stops
    rw [climb_of_nextOperator?_eq_none g' stops] at hm
    refine ⟨t.tokensLeft, Nat.le_refl _, ?_⟩
    rw [expressionWithin_succ]
    simp only [expressionStep, hf.prefixRule h, Rule.unary, Rule.operand, hm]
    rfl
  | @unaryHole p s err h hole =>
    intro n hn
    have hpos := hg.tokensLeft_pos h
    obtain ⟨k, rfl⟩ : ∃ k, n = k + 1 := ⟨n - 1, by omega⟩
    have hk : g'.expressionWithin inner (k + 1) .unary s.advance = (.error err, s.advance) :=
      (hf.refuses (by simp) hole).expressionStep_eq _ _
    refine ⟨(s.advance.record err).tokensLeft, Nat.le_refl _, ?_⟩
    rw [expressionWithin_succ]
    simp only [expressionStep, hf.prefixRule h, Rule.unary, Rule.operand, hk]
    rfl
  | @binary p s l t op e u left hop right stops ihl ih =>
    intro n hn
    have hlt := hg.one_lt_tokensLeft hop
    have hle := left.precedes.tokensLeft_le
    have hle' := right.precedes.tokensLeft_le
    rw [State.tokensLeft_advance, State.tokensLeft_advance] at hle'
    have hrest : t.Precedes u :=
      ((State.Precedes.advance t).trans (.advance _)).trans right.precedes
    obtain ⟨m, hm, hl⟩ := ihl (hf.mono hrest.errors.subset) n hn
    obtain ⟨k, rfl⟩ : ∃ k, n = k + 1 := ⟨n - 1, by omega⟩
    obtain ⟨j, rfl⟩ : ∃ j, m = j + 1 := ⟨m - 1, by omega⟩
    obtain ⟨i, -, hi⟩ := ih hf k (by rw [State.tokensLeft_advance, State.tokensLeft_advance]; omega)
    have hrule := hg.operator (operator?_of_nextOperator? hop).1
    rw [← hf.nextOperator?_eq] at hop stops
    rw [climb_of_nextOperator?_eq_none g' stops] at hi
    refine ⟨j, by omega, ?_⟩
    rw [hl, climb_succ_of_nextOperator? hop hrule]
    simp only [Rule.operand, hi]
  | @binaryHole p s l t op err left hop hole ihl =>
    intro n hn
    have hlt := hg.one_lt_tokensLeft hop
    have hle := left.precedes.tokensLeft_le
    obtain ⟨m, hm, hl⟩ := ihl (hf.mono (by simp)) n hn
    obtain ⟨k, rfl⟩ : ∃ k, n = k + 1 := ⟨n - 1, by omega⟩
    obtain ⟨j, rfl⟩ : ∃ j, m = j + 1 := ⟨m - 1, by omega⟩
    have hk : g'.expressionWithin inner (k + 1) op.power t.advance.advance =
        (.error err, t.advance.advance) :=
      (hf.refuses (by simp) hole).expressionStep_eq _ _
    have hrule := hg.operator (operator?_of_nextOperator? hop).1
    rw [← hf.nextOperator?_eq] at hop
    refine ⟨j, ?_, ?_⟩
    · rw [State.tokensLeft_record, State.tokensLeft_advance, State.tokensLeft_advance]
      omega
    · rw [hl, climb_succ_of_nextOperator? hop hrule]
      simp only [Rule.operand, hk]

theorem answers_expression (p : Power) (s : State) : g.Answers p s (g.expression p s) :=
  hg.answers_expressionWithin _ _ p s (Nat.lt_succ_self _)

theorem expression_eq_of_reads (h : g.Reads p s e t) (hf : g'.Follows g t.errors.toList) :
    g'.expression p s = (.ok e, t) := by
  obtain ⟨m, -, hm⟩ :=
    hg.exists_climb_eq (fun _ s => (.error s.refusal, s)) h.1 hf _ (Nat.le_refl _)
  exact hm.trans (climb_of_nextOperator?_eq_none g' (by rw [hf.nextOperator?_eq, h.2]) m e)

theorem expression_eq_of_answers {o : Outcome Expr} (h : g.Answers p s o) :
    g.expression p s = o := by
  cases h with
  | read h => exact hg.expression_eq_of_reads h (.refl g _)
  | refused h => exact h.expression_eq p

/-- **An expression is what the parser returns exactly if it is read.** -/
theorem expression_eq_ok_iff : g.expression p s = (.ok e, t) ↔ g.Reads p s e t := by
  constructor
  · intro h
    have hans := hg.answers_expression p s
    rw [h] at hans
    cases hans with
    | read hread => exact hread
  · intro h
    exact hg.expression_eq_of_answers (.read h)

/-- **The parser fails exactly if the expression is refused at its first token.** -/
theorem expression_eq_error_iff :
    g.expression p s = (.error err, t) ↔ g.Refuses s err ∧ t = s := by
  constructor
  · intro h
    have hans := hg.answers_expression p s
    rw [h] at hans
    cases hans with
    | refused href => exact ⟨href, rfl⟩
  · rintro ⟨h, rfl⟩
    exact hg.expression_eq_of_answers (.refused h)

end Plain

end PrattFrontend.Grammar
