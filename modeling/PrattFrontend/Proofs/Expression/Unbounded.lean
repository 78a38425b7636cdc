import PrattFrontend.Proofs.Parser.StandardRules

/-!
# Expressions without bounds

How deep expressions nest, and how many operators are taken in, is bounded by the number of tokens
ahead. Here it is said without these bounds what parsing an expression comes to, so that it might
come to nothing and go on for ever. With the standard rules it comes to an end all the same, for
whatever kinds of tokens they are used, as long as the end of the input is no operator.

* **`RuleTable`**: which standard rule is used for which kind of tokens;
* `RuleTable.Ends`: the end of the input is no operator;
* **`RuleTable.Parses`**: what parsing an expression comes to, step by step;
* `RuleTable.Parses.eq`: that is one outcome at most;
* **`RuleTable.Ends.parses_iff`**: it is the outcome of the parser with bounds;
* `RuleTable.not_parses_of_unary_endOfInput`: an operator at the end of the input goes on for ever;
* `State.Skips`, `State.skips_iff`: the next semicolon.
-/

namespace PrattFrontend

/-! ## Tables of standard rules -/

/-- The standard rules for the start of an expression, by name. -/
inductive Rule.Start where
  | identifier
  | integer
  | unary
deriving DecidableEq, Repr

/-- The standard rules for statements, by name. -/
inductive Rule.Form where
  | letStatement
  | returnStatement
  | expressionStatement
deriving DecidableEq, Repr

/-- The rule with a given name. -/
def Rule.Start.rule : Rule.Start → PrefixRule
  | identifier => Rule.identifier
  | integer => Rule.integer
  | unary => Rule.unary

/-- The rule with a given name. -/
def Rule.Form.rule : Rule.Form → StatementRule
  | letStatement => Rule.letStatement
  | returnStatement => Rule.returnStatement
  | expressionStatement => Rule.expressionStatement

theorem Rule.Start.rule_injective : Function.Injective Rule.Start.rule := by
  have h₁ := Rule.identifier_ne_integer
  have h₂ := Rule.identifier_ne_unary
  have h₃ := Rule.integer_ne_unary
  intro a b h
  cases a <;> cases b <;> simp_all [rule, eq_comm]

/-- **A table of standard rules**: which of them is used for which kind of tokens, and the powers of
the operators between two operands, for which there is one rule. -/
structure RuleTable where
  start? : Token.Kind → Option Rule.Start := fun _ => none
  power? : Token.Kind → Option Power := fun _ => none
  form? : Token.Kind → Option Rule.Form := fun _ => none

namespace RuleTable

/-- The grammar with the rules of a table. -/
def grammar (R : RuleTable) : Grammar where
  prefixRule? k := (R.start? k).map Rule.Start.rule
  infixRule? k := (R.power? k).map fun _ => Rule.binary
  power? := R.power?
  statementRule? k := (R.form? k).map Rule.Form.rule

/-- In a table that **ends**, the end of the input is no operator, neither before an operand nor
between two. -/
structure Ends (R : RuleTable) : Prop where
  start_ne : R.start? .endOfInput ≠ some .unary
  power_eq : R.power? .endOfInput = none

variable {R : RuleTable}

theorem start?_eq_some_iff {k : Token.Kind} {r : Rule.Start} :
    R.start? k = some r ↔ R.grammar.prefixRule? k = some r.rule := by
  change _ ↔ (R.start? k).map Rule.Start.rule = some r.rule
  rw [Option.map_eq_some_iff]
  constructor
  · intro h
    exact ⟨r, h, rfl⟩
  · rintro ⟨r', h, heq⟩
    rwa [← Rule.Start.rule_injective heq]

theorem operator?_grammar (k : Token.Kind) :
    R.grammar.operator? k = (R.power? k).map fun power => ⟨power, Rule.binary⟩ := by
  change ((R.power? k).map fun _ => Rule.binary).map _ = _
  rw [Option.map_map]
  cases h : R.power? k with
  | none => rfl
  | some power => simp [Grammar.powerOf, grammar, h]

theorem Ends.plain (hR : R.Ends) : R.grammar.Plain where
  prefixRule := by
    intro k r h
    obtain ⟨name, -, rfl⟩ := Option.map_eq_some_iff.mp h
    cases name <;> simp [Rule.Start.rule]
  operator := by
    intro k op h
    rw [operator?_grammar] at h
    obtain ⟨power, -, rfl⟩ := Option.map_eq_some_iff.mp h
    rfl
  statementRule := by
    intro k r h
    obtain ⟨name, -, rfl⟩ := Option.map_eq_some_iff.mp h
    cases name <;> simp [Rule.Form.rule]
  unary_endOfInput h := hR.start_ne (start?_eq_some_iff.mpr h)
  operator_endOfInput := by rw [operator?_grammar, hR.power_eq, Option.map_none]

/-! ## Expressions -/

end RuleTable

/-- What an outcome is as an operand: an expression, or nothing, and then the error is recorded. -/
def Outcome.operand : Outcome Expr → Option Expr × State
  | (.ok e, t) => (some e, t)
  | (.error e, t) => (none, t.record e)

namespace RuleTable

/-- **What parsing an expression comes to**, from a state on. The expression is still to be started,
or it has been, and may become the left operand of the operator that follows. -/
inductive Parses (R : RuleTable) : Power → Option Expr → State → Outcome Expr → Prop
  | refused {p s} (h : R.start? s.current.kind = none) : Parses R p none s (.error s.refusal, s)
  | identifier {p s o} (h : R.start? s.current.kind = some .identifier)
      (rest : Parses R p (some (.identifier (.ofToken s.current))) s o) : Parses R p none s o
  | integer {p s o v} (h : R.start? s.current.kind = some .integer)
      (hv : Text.readInteger? s.current.literal = some v)
      (rest : Parses R p (some (.integer s.current v)) s o) : Parses R p none s o
  | outOfRange {p s} (h : R.start? s.current.kind = some .integer)
      (hv : Text.readInteger? s.current.literal = none) :
      Parses R p none s (.error ⟨.integerOutOfRange s.current.literal, s.current.span.start⟩, s)
  | unary {p s right o} (h : R.start? s.current.kind = some .unary)
      (operand : Parses R .unary none s.advance right)
      (rest : Parses R p (some (.unary s.current s.current.literal right.operand.1))
        right.operand.2 o) : Parses R p none s o
  | stop {p e s} (h : R.grammar.nextOperator? p s = none) : Parses R p (some e) s (.ok e, s)
  | binary {p e s op right o} (h : R.grammar.nextOperator? p s = some op)
      (operand : Parses R op.power none s.advance.advance right)
      (rest : Parses R p (some (.binary s.next e s.next.literal right.operand.1))
        right.operand.2 o) : Parses R p (some e) s o

variable {R : RuleTable} {p : Power} {left : Option Expr} {e : Expr} {err : ParseError} {s t : State}
  {o o' : Outcome Expr}

/-- **Parsing an expression has one outcome at most.** -/
theorem Parses.eq (h : R.Parses p left s o) (h' : R.Parses p left s o') : o = o' := by
  induction h generalizing o' with
  | refused h => cases h' <;> simp_all
  | identifier h _ ih =>
    cases h' with
    | identifier _ rest' => exact ih rest'
    | _ => simp_all
  | integer h hv _ ih =>
    cases h' with
    | integer _ hv' rest' =>
      obtain rfl := Option.some.inj (hv.symm.trans hv')
      exact ih rest'
    | _ => simp_all
  | outOfRange h hv => cases h' <;> simp_all
  | @unary p s right o h operand rest ih₁ ih₂ =>
    cases h' with
    | unary _ operand' rest' =>
      obtain rfl := ih₁ operand'
      exact ih₂ rest'
    | _ => simp_all
  | stop h => cases h' <;> simp_all
  | @binary p e s op right o h operand rest ih₁ ih₂ =>
    cases h' with
    | stop h' => simp_all
    | binary h' operand' rest' =>
      obtain rfl := Option.some.inj (h.symm.trans h')
      obtain rfl := ih₁ operand'
      exact ih₂ rest'

theorem parses_of_refuses (h : R.grammar.Refuses s err) (p : Power) :
    R.Parses p none s (.error err, s) := by
  cases h with
  | noRule h => exact .refused (Option.map_eq_none_iff.mp h)
  | outOfRange h hv => exact .outOfRange (start?_eq_some_iff (r := .integer).mpr h) hv

/-- **Every expression that is grown is reached** without a bound. -/
theorem parses_of_grows (h : R.grammar.Grows p s e t) (rest : R.Parses p (some e) t o) :
    R.Parses p none s o := by
  induction h generalizing o with
  | identifier h => exact .identifier (start?_eq_some_iff (r := .identifier).mpr h) rest
  | integer h hv => exact .integer (start?_eq_some_iff (r := .integer).mpr h) hv rest
  | unary h _ stops ih =>
    exact .unary (start?_eq_some_iff (r := .unary).mpr h) (ih (.stop stops)) rest
  | unaryHole h hole =>
    exact .unary (start?_eq_some_iff (r := .unary).mpr h) (parses_of_refuses hole _) rest
  | binary _ hop _ stops ihl ih => exact ihl (.binary hop (ih (.stop stops)) rest)
  | binaryHole _ hop hole ihl => exact ihl (.binary hop (parses_of_refuses hole _) rest)

/-- **Parsing an expression comes to an end.** -/
theorem Ends.parses_iff (hR : R.Ends) : R.Parses p none s o ↔ o = R.grammar.expression p s := by
  have hparses : R.Parses p none s (R.grammar.expression p s) := by
    have h := hR.plain.answers_expression p s
    generalize R.grammar.expression p s = o at h
    cases h with
    | read h => exact parses_of_grows h.1 (.stop h.2)
    | refused h => exact parses_of_refuses h p
  constructor
  · exact fun h => h.eq hparses
  · rintro rfl
    exact hparses

/-- Where the end of the input is a sign, it is its own operand. -/
theorem not_parses_of_unary_endOfInput (h : R.start? .endOfInput = some .unary) (p : Power)
    (hs : s.tokensLeft = 0) (o : Outcome Expr) : ¬R.Parses p none s o := by
  intro hparses
  generalize hleft : (none : Option Expr) = left at hparses
  induction hparses with
  | unary _ _ _ ih => exact ih (by rw [State.tokensLeft_advance, hs]) rfl
  | stop => cases hleft
  | binary => cases hleft
  | _ =>
    have hend := State.kind_get_of_length_le (Nat.le_of_eq hs)
    simp_all [State.current]

end RuleTable

/-! ## The next semicolon -/

/-- Moving on to the first semicolon or to the end of the input, however far that is. -/
inductive State.Skips : State → State → Prop
  | stop {s} (h : s.current.kind = .semicolon ∨ s.current.kind = .endOfInput) : Skips s s
  | go {s t} (h : ¬(s.current.kind = .semicolon ∨ s.current.kind = .endOfInput))
      (rest : Skips s.advance t) : Skips s t

variable {s t : State}

theorem State.skipToSemicolon_of_stop
    (h : s.current.kind = .semicolon ∨ s.current.kind = .endOfInput) :
    s.skipToSemicolon = s := by
  have hzero : s.distanceToSemicolon = 0 := by
    unfold distanceToSemicolon
    cases hs : s.tokens.ahead with
    | nil => rfl
    | cons x xs =>
      rw [current_of_ahead hs] at h
      rw [List.takeWhile_cons_of_neg (by rcases h with h | h <;> simp [h]), List.length_nil]
  rw [skipToSemicolon, hzero, advanceBy_zero]

theorem State.skipToSemicolon_of_go
    (h : ¬(s.current.kind = .semicolon ∨ s.current.kind = .endOfInput)) :
    s.skipToSemicolon = s.advance.skipToSemicolon := by
  obtain ⟨hsemi, hend⟩ := not_or.mp h
  have hsucc : s.distanceToSemicolon = s.advance.distanceToSemicolon + 1 := by
    unfold distanceToSemicolon
    rw [ahead_eq_cons hend, List.takeWhile_cons_of_pos (by simp [hsemi, hend]), List.length_cons]
  rw [skipToSemicolon, hsucc, advanceBy]
  rfl

/-- **Skipping comes to an end.** -/
theorem State.skips_iff : s.Skips t ↔ t = s.skipToSemicolon := by
  constructor
  · intro h
    induction h with
    | stop h => rw [skipToSemicolon_of_stop h]
    | go h _ ih => rw [ih, skipToSemicolon_of_go h]
  · rintro rfl
    obtain ⟨n, hn⟩ : ∃ n, s.tokensLeft ≤ n := ⟨_, Nat.le_refl _⟩
    induction n generalizing s with
    | zero =>
      have hend : s.current.kind = .endOfInput := kind_get_of_length_le hn
      rw [skipToSemicolon_of_stop (.inr hend)]
      exact .stop (.inr hend)
    | succ n ih =>
      by_cases h : s.current.kind = .semicolon ∨ s.current.kind = .endOfInput
      · rw [skipToSemicolon_of_stop h]
        exact .stop h
      · rw [skipToSemicolon_of_go h]
        exact .go h (ih (by rw [tokensLeft_advance]; omega))

end PrattFrontend
