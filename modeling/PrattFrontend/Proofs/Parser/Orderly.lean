import PrattFrontend.Parser.Program
import PrattFrontend.Proofs.Parser.Progress

/-!
# Rules that do not go back

A rule that is told how to parse expressions keeps what is asked of that: if no expression takes the
parser back, the rule does not, and what it hands back as an error it has not recorded.

* **`State.Orderly`**: an outcome that does not go back and does not record its own error;
* `Rule.orderly_unary`, `Rule.orderly_binary` and their like: rules for expressions;
* `Rule.orderly_letStatement` and its like: rules for statements.
-/

namespace PrattFrontend

variable {α : Type} {s : State}

/-! ## Outcomes -/

/-- An outcome is **orderly** behind a state if parsing did not go back, and recorded nothing if it
failed. -/
structure State.Orderly (s : State) (o : Outcome α) : Prop where
  precedes : s.Precedes o.2
  errors_eq : ∀ e, o.1 = .error e → o.2.errors = s.errors

theorem State.orderly_ok {a : α} {t : State} (h : s.Precedes t) : s.Orderly (.ok a, t) :=
  ⟨h, fun _ he => by cases he⟩

theorem State.orderly_error (s : State) (e : ParseError) :
    s.Orderly (α := α) (.error e, s) :=
  ⟨.refl s, fun _ _ => rfl⟩

theorem State.Orderly.of_precedes {t : State} {o : Outcome α} (h : t.Orderly o)
    (hst : s.Precedes t) (he : t.errors = s.errors) : s.Orderly o :=
  ⟨hst.trans h.precedes, fun e ho => (h.errors_eq e ho).trans he⟩

/-! ## Rules -/

namespace Rule

theorem orderly_identifier (expr : ExprParser) (s : State) : s.Orderly (identifier expr s) :=
  State.orderly_ok (.refl s)

theorem orderly_integer (expr : ExprParser) (s : State) : s.Orderly (integer expr s) := by
  unfold integer
  split
  · exact State.orderly_ok (.refl s)
  · exact State.orderly_error s _

section

variable {expr : ExprParser} (hexpr : ∀ (p : Power) (s : State), s.Precedes (expr p s).2)
include hexpr

theorem operand_precedes (p : Power) (s : State) : s.Precedes (operand expr p s).2 := by
  have h := hexpr p s
  unfold operand
  generalize expr p s = o at h
  match o, h with
  | (.ok _, t), h => exact h
  | (.error e, t), h => exact h.trans (.record t e)

theorem orderly_unary (s : State) : s.Orderly (unary expr s) :=
  State.orderly_ok ((State.Precedes.advance s).trans (operand_precedes hexpr .unary s.advance))

theorem orderly_binary (left : Expr) (p : Power) (s : State) : s.Orderly (binary expr left p s) :=
  State.orderly_ok ((State.Precedes.advance s).trans (operand_precedes hexpr p s.advance))

theorem statementValue_precedes (config : Config) (s : State) :
    s.Precedes (statementValue config expr s).2 := by
  unfold statementValue
  cases config.values with
  | skip => exact .skipToSemicolon s
  | parse =>
    have h := (State.Precedes.advance s).trans (hexpr .lowest s.advance)
    simp only
    generalize expr .lowest s.advance = o at h
    match o, h with
    | (.ok _, t), h => exact h.trans (.passSemicolon t)
    | (.error e, t), h => exact (h.trans (.record t e)).trans (.skipToSemicolon _)

theorem orderly_letStatement (config : Config) (s : State) :
    s.Orderly (letStatement config expr s) := by
  unfold letStatement State.expectNext
  by_cases hn : s.next.kind = .identifier
  · have hadv := State.Precedes.advance s
    by_cases ha : s.advance.next.kind = .assign
    · simp only [if_pos hn, if_pos ha]
      exact State.orderly_ok ((hadv.trans (.advance _)).trans
        (statementValue_precedes hexpr config s.advance.advance))
    · simp only [if_pos hn, if_neg ha]
      exact (State.orderly_error s.advance _).of_precedes hadv rfl
  · simp only [if_neg hn]
    exact State.orderly_error s _

theorem orderly_returnStatement (config : Config) (s : State) :
    s.Orderly (returnStatement config expr s) := by
  unfold returnStatement
  split
  · exact State.orderly_ok (.advance s)
  · exact State.orderly_ok (statementValue_precedes hexpr config s)

theorem orderly_expressionStatement (config : Config) (s : State) :
    s.Orderly (expressionStatement config expr s) := by
  have h := hexpr .lowest s
  unfold expressionStatement
  generalize expr .lowest s = o at h
  match o, h with
  | (.ok _, t), h => exact State.orderly_ok (h.trans (.passSemicolon t))
  | (.error e, t), h => exact State.orderly_ok ((h.trans (.record t e)).trans (.passSemicolon _))

end

end Rule

end PrattFrontend
