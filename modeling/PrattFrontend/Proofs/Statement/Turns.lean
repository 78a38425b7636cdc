import PrattFrontend.Proofs.Parser.StandardRules
import PrattFrontend.Proofs.Statement.Outcomes

/-!
# A run, turn by turn

A program is parsed in turns. In each of them a statement is parsed, which may fail, and one more
token is passed.

* **`Turn`**, `Grammar.turns`: what the turns of a run started with, gave and stopped at;
* `Grammar.statements_fst_eq`: the statements of a run are those that its turns gave;
* `Grammar.Plain.forall_mem_turns`: a law of every statement that is parsed is a law of the turns;
* `Grammar.Plain.errors_statements_eq`: the errors of a run are those of its turns, one after
  another;
* `parseTurns`: the turns in which a source is parsed.
-/

namespace PrattFrontend

/-- **A turn** of a run over statements: the state in which a statement is started, the statement,
if there is one, and the state behind it. -/
structure Turn where
  start : State
  statement : Option Statement
  stop : State

/-- The errors that are recorded in a turn. -/
def Turn.errors (turn : Turn) : List ParseError :=
  turn.stop.errors.toList.drop turn.start.errors.size

theorem Turn.errors_eq {turn : Turn} {errs : List ParseError}
    (h : turn.stop.errors.toList = turn.start.errors.toList ++ errs) : turn.errors = errs := by
  rw [Turn.errors, h, ← Array.length_toList, List.drop_left]

namespace Grammar

variable (g : Grammar) (config : Config)

/-- The turns of a run over statements, at most a given number of them. -/
def turns : Nat → State → List Turn
  | 0, _ => []
  | n + 1, s =>
    if s.current.kind = .endOfInput then []
    else
      let parsed := g.statement config s
      ⟨s, parsed.1, parsed.2⟩ :: turns n parsed.2.advance

/-- **The statements of a run are those that its turns gave.** -/
theorem statements_fst_eq (n : Nat) (s : State) :
    (g.statements config n s).1 = (g.turns config n s).filterMap Turn.statement := by
  induction n generalizing s with
  | zero => rfl
  | succ n ih =>
    rw [statements, turns]
    split
    · rfl
    · simp only [ih, List.filterMap_cons]
      cases (g.statement config s).1 <;> rfl

namespace Plain

variable {g} (hg : g.Plain)
include hg

theorem turns_succ (n : Nat) {s : State} (hk : s.current.kind ≠ .endOfInput) :
    ∃ st t, g.Performs config (s.note (.statement s.current.kind)) st t ∧
      g.turns config (n + 1) s = ⟨s, st, t⟩ :: g.turns config n t.advance ∧
      (g.statements config (n + 1) s).2 = (g.statements config n t.advance).2 := by
  refine ⟨_, _, hg.performs_statement config s, ?_, ?_⟩
  · rw [turns, if_neg hk]
  · rw [statements, if_neg hk]

/-- **What holds of every statement that is parsed holds of the turns of a run.** -/
theorem forall_mem_turns {P : Turn → Prop} {Q : State → Prop}
    (hP : ∀ {s st t}, Q s → s.current.kind ≠ .endOfInput →
      g.Performs config (s.note (.statement s.current.kind)) st t → P ⟨s, st, t⟩ ∧ Q t.advance)
    (n : Nat) {s : State} (hs : Q s) : ∀ turn ∈ g.turns config n s, P turn := by
  induction n generalizing s with
  | zero => simp [turns]
  | succ n ih =>
    by_cases hk : s.current.kind = .endOfInput
    · simp [turns, hk]
    · obtain ⟨st, t, hst, heq, -⟩ := hg.turns_succ config n hk
      obtain ⟨hturn, ht⟩ := hP hs hk hst
      rw [heq]
      exact List.forall_mem_cons.mpr ⟨hturn, ih ht⟩

/-- **The errors of a run are those of its turns, one after another.** -/
theorem errors_statements_eq (n : Nat) (s : State) :
    (g.statements config n s).2.errors.toList =
      s.errors.toList ++ (g.turns config n s).flatMap Turn.errors := by
  induction n generalizing s with
  | zero => simp [statements, turns]
  | succ n ih =>
    by_cases hk : s.current.kind = .endOfInput
    · simp [statements, turns, hk]
    · obtain ⟨st, t, hst, hturns, hstate⟩ := hg.turns_succ config n hk
      obtain ⟨errs, herrs⟩ := hst.precedes.errors
      rw [State.errors_note] at herrs
      have hturn : Turn.errors ⟨s, st, t⟩ = errs := Turn.errors_eq herrs.symm
      rw [hstate, ih, hturns, State.errors_advance, ← herrs, List.flatMap_cons, hturn,
        List.append_assoc]

end Plain

end Grammar

/-! ## Sources -/

/-- The turns in which a source is parsed. -/
def parseTurns (config : Config) (source : Source) : List Turn :=
  Grammar.standard.turns config (Token.Stream.ofSource source).ahead.length
    ((State.start (.ofSource source)).note (.started (Token.Stream.ofSource source).stop.file))

theorem statements_parse_eq (config : Config) (source : Source) :
    (parse config source).1.statements = (parseTurns config source).filterMap Turn.statement :=
  Grammar.statements_fst_eq _ config _ _

theorem errors_parse_eq (config : Config) (source : Source) :
    (parse config source).2.errors.toList = (parseTurns config source).flatMap Turn.errors :=
  Grammar.standard_plain.errors_statements_eq config _ _

end PrattFrontend
