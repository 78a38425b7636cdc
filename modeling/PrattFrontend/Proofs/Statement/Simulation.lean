import PrattFrontend.Proofs.Expression.Precedence
import PrattFrontend.Proofs.Statement.Outcomes
import PrattFrontend.Proofs.Tree.Relocation

/-!
# Two parsers side by side

Two parsers whose tokens differ in their places only do the same, step by step. The states that are
compared may differ in more than that, as long as it makes no difference to what a step looks at.
What that asks of them is said once, and then everything that is parsed from one state is parsed
from the other.

* **`Simulation`**: a relation of states that all steps preserve;
* `Simulation.Calm`: it goes on behind a semicolon as well;
* `Grammar.Grows.simulated`, `Grammar.Values.simulated`, **`Grammar.Performs.simulated`**;
* `Grammar.Plain.statement_eq_of_follows`, `Grammar.Plain.statement_eq_iff`: a statement has one
  outcome, with its grammar and with any that follows it.
-/

namespace PrattFrontend

open Grammar (standard standardPower?)

variable {f : Position → Position} {R : State → State → Prop} {config : Config} {p : Power}
  {s s' t : State} {e : Expr}

/-! ## Relations of states -/

/-- **A simulation** of one parser by another, whose tokens stand at other places. The current
tokens are the same up to their places, and so are the next ones, unless the current one is a
semicolon: behind a semicolon the two may differ. -/
structure Simulation (f : Position → Position) (R : State → State → Prop) : Prop where
  note : ∀ {s s'} (e e' : Event), R s s' → R (s.note e) (s'.note e')
  record : ∀ {s s'} (e : ParseError), R s s' → R (s.record e) (s'.record (e.relocate f))
  skipToSemicolon : ∀ {s s'}, R s s' → R s.skipToSemicolon s'.skipToSemicolon
  current : ∀ {s s'}, R s s' → s'.current = s.current.relocate f
  next : ∀ {s s'}, R s s' → s.current.kind ≠ .semicolon → s'.next = s.next.relocate f
  advance : ∀ {s s'}, R s s' → s.current.kind ≠ .semicolon → R s.advance s'.advance

/-- What the next tokens of two related states are: the same up to their places, or else the first
parser is at the end of its input and for the second nothing follows that could go on with what was
parsed. -/
def Peeks (f : Position → Position) (R : State → State → Prop) (s s' : State) : Prop :=
  (s'.next = s.next.relocate f ∧ R s.advance s'.advance) ∨
    (s.next.kind = .endOfInput ∧ s'.next.kind ≠ .semicolon ∧ standardPower? s'.next.kind = none)

namespace Simulation

/-- A relation is **calm** if behind a semicolon nothing goes on for the second parser that ends for
the first. -/
def Calm (f : Position → Position) (R : State → State → Prop) : Prop :=
  ∀ s s', R s s' → s.current.kind = .semicolon → Peeks f R s s'

theorem peeks (hR : Simulation f R) (hs : R s s')
    (hcalm : Calm f R ∨ s.current.kind ≠ .semicolon) : Peeks f R s s' := by
  by_cases hk : s.current.kind = .semicolon
  · rcases hcalm with hcalm | hne
    · exact hcalm s s' hs hk
    · exact absurd hk hne
  · exact .inl ⟨hR.next hs hk, hR.advance hs hk⟩

theorem recover (hR : Simulation f R) (hs : R s s') :
    R (Grammar.recover config s) (Grammar.recover config s') := by
  unfold Grammar.recover
  split
  · exact hs
  · exact hR.skipToSemicolon hs

end Simulation

theorem Peeks.nextOperator?_eq (h : Peeks f R s s') :
    standard.nextOperator? p s' = standard.nextOperator? p s := by
  rcases h with ⟨hnext, -⟩ | ⟨hend, hsemi, hpower⟩
  · simp only [Grammar.nextOperator?, hnext, Token.kind_relocate]
  · rw [Grammar.nextOperator?_standard_eq_none_iff.mpr (by simp [hpower]),
      Grammar.nextOperator?_standard_eq_none_iff.mpr (by simp [hend, standardPower?])]

theorem Peeks.of_nextOperator? {op : Operator} (h : Peeks f R s s')
    (hop : standard.nextOperator? p s = some op) :
    s'.next = s.next.relocate f ∧ R s.advance s'.advance := by
  rcases h with h | ⟨hend, -, -⟩
  · exact h
  · obtain ⟨q, hq, -⟩ := Grammar.nextOperator?_standard_eq_some_iff.mp hop
    rw [hend] at hq
    cases hq

theorem Simulation.advance_of_nextOperator? (hR : Simulation f R) {op : Operator}
    (hop : standard.nextOperator? p s = some op) (h : R s.advance s'.advance) :
    R s.advance.advance s'.advance.advance := by
  refine hR.advance h ?_
  rw [State.current_advance]
  exact (Grammar.operator?_of_nextOperator? hop).2.2

theorem Peeks.passSemicolon (h : Peeks f R s s') (hs : R s s') :
    R s.passSemicolon s'.passSemicolon := by
  unfold State.passSemicolon
  rcases h with ⟨hnext, hadv⟩ | ⟨hend, hsemi, -⟩
  · rw [hnext, Token.kind_relocate]
    split
    · exact hadv
    · exact hs
  · rwa [if_neg hsemi, if_neg (by simp [hend])]

namespace Grammar

/-! ## Expressions -/

theorem Grows.kind_current_ne (h : standard.Grows p s e t) (he : t.errors = s.errors) :
    t.current.kind ≠ .semicolon := by
  induction h with
  | identifier h => simp [prefixRule?_standard_eq_identifier_iff.mp h]
  | integer h => simp [prefixRule?_standard_eq_integer_iff.mp h]
  | unary _ _ _ ih => exact ih he
  | unaryHole => exact absurd he ((State.Precedes.advance _).errors_ne_of_record (.refl _))
  | @binary p s l t op e u left _ right _ _ ih =>
    have hadv : t.Precedes t.advance.advance := (State.Precedes.advance t).trans (.advance _)
    exact ih (left.precedes.errors_eq_right (hadv.trans right.precedes) he)
  | binaryHole left =>
    have hadv := (left.precedes.trans (.advance _)).trans (.advance _)
    exact absurd he (hadv.errors_ne_of_record (.refl _))

theorem Refuses.relocate {err : ParseError} (h : standard.Refuses s err)
    (hs : s'.current = s.current.relocate f) : standard.Refuses s' (err.relocate f) := by
  cases h with
  | noRule h =>
    have heq : s.refusal.relocate f = s'.refusal := by
      simp [State.refusal, ParseError.relocate, hs]
    rw [heq]
    exact .noRule (by rwa [hs, Token.kind_relocate])
  | outOfRange h hv =>
    have heq : ParseError.relocate f ⟨.integerOutOfRange s.current.literal, s.current.span.start⟩ =
        ⟨.integerOutOfRange s'.current.literal, s'.current.span.start⟩ := by
      simp [ParseError.relocate, hs]
    rw [heq]
    exact .outOfRange (by rwa [hs, Token.kind_relocate]) (by rwa [hs, Token.literal_relocate])

section

variable (hR : Simulation f R)
include hR

/-- **What grows for one parser grows for the other.** -/
theorem Grows.simulated (h : standard.Grows p s e t) (hs : R s s')
    (hcalm : Simulation.Calm f R ∨ t.errors = s.errors) :
    ∃ t', standard.Grows p s' (e.mapTokens (Token.relocate f)) t' ∧ R t t' := by
  induction h generalizing s' with
  | @identifier p s h =>
    refine ⟨s', ?_, hs⟩
    have hg := Grows.identifier (g := standard) (p := p) (s := s')
      (by rwa [hR.current hs, Token.kind_relocate])
    rwa [hR.current hs] at hg
  | @integer p s v h hv =>
    refine ⟨s', ?_, hs⟩
    have hg := Grows.integer (g := standard) (p := p) (s := s')
      (by rwa [hR.current hs, Token.kind_relocate]) (by rwa [hR.current hs, Token.literal_relocate])
    rwa [hR.current hs] at hg
  | @unary p s e t h right stops ih =>
    have hne : s.current.kind ≠ .semicolon := by
      rcases prefixRule?_standard_eq_unary_iff.mp h with hk | hk <;> simp [hk]
    obtain ⟨t', hright, ht⟩ := ih (hR.advance hs hne) hcalm
    refine ⟨t', ?_, ht⟩
    have hg := Grows.unary (p := p) (s := s') (by rwa [hR.current hs, Token.kind_relocate]) hright
      (nextOperator?_unary_standard t')
    rwa [hR.current hs] at hg
  | @unaryHole p s err h hole =>
    have hne : s.current.kind ≠ .semicolon := by
      rcases prefixRule?_standard_eq_unary_iff.mp h with hk | hk <;> simp [hk]
    have hadv := hR.advance hs hne
    refine ⟨_, ?_, hR.record err hadv⟩
    have hg := Grows.unaryHole (p := p) (s := s') (by rwa [hR.current hs, Token.kind_relocate])
      (hole.relocate (hR.current hadv))
    rwa [hR.current hs] at hg
  | @binary p s l t op e u left hop right stops ihl ih =>
    have hprec : t.Precedes u :=
      ((State.Precedes.advance t).trans (.advance _)).trans right.precedes
    have hcalml := hcalm.imp_right fun he => left.precedes.errors_eq_left hprec he
    obtain ⟨t', hleft, ht⟩ := ihl hs hcalml
    have hpeeks := hR.peeks ht (hcalml.imp_right left.kind_current_ne)
    obtain ⟨hnext, hadv⟩ := hpeeks.of_nextOperator? hop
    obtain ⟨u', hright, hu⟩ := ih (hR.advance_of_nextOperator? hop hadv)
      (hcalm.imp_right (left.precedes.errors_eq_right hprec))
    have hstops := hR.peeks hu (hcalm.imp_right fun he =>
      right.kind_current_ne (left.precedes.errors_eq_right hprec he))
    refine ⟨u', ?_, hu⟩
    have hg := Grows.binary hleft (by rwa [hpeeks.nextOperator?_eq]) hright
      (by rwa [hstops.nextOperator?_eq])
    rwa [hnext] at hg
  | @binaryHole p s l t op err left hop hole ihl =>
    have hprec : s.Precedes t.advance.advance :=
      (left.precedes.trans (.advance _)).trans (.advance _)
    replace hcalm := hcalm.resolve_right (hprec.errors_ne_of_record (.refl _))
    obtain ⟨t', hleft, ht⟩ := ihl hs (.inl hcalm)
    have hpeeks := hR.peeks ht (.inl hcalm)
    obtain ⟨hnext, hadv⟩ := hpeeks.of_nextOperator? hop
    have hadv' := hR.advance_of_nextOperator? hop hadv
    refine ⟨_, ?_, hR.record err hadv'⟩
    have hg := Grows.binaryHole hleft (by rwa [hpeeks.nextOperator?_eq])
      (hole.relocate (hR.current hadv'))
    rwa [hnext] at hg

theorem Reads.simulated (h : standard.Reads p s e t) (hs : R s s')
    (hcalm : Simulation.Calm f R ∨ t.errors = s.errors) :
    ∃ t', standard.Reads p s' (e.mapTokens (Token.relocate f)) t' ∧
      R t.passSemicolon t'.passSemicolon := by
  obtain ⟨t', hg, ht⟩ := h.1.simulated hR hs hcalm
  have hpeeks := hR.peeks ht (hcalm.imp_right h.1.kind_current_ne)
  exact ⟨t', ⟨hg, by rw [hpeeks.nextOperator?_eq]; exact h.2⟩, hpeeks.passSemicolon ht⟩

/-! ## Statements -/

theorem Values.simulated {v : Option Expr} (h : standard.Values config s v t) (hs : R s s')
    (hk : s.current.kind ≠ .semicolon) (hcalm : Simulation.Calm f R ∨ t.errors = s.errors) :
    ∃ t', standard.Values config s' (v.map (Expr.mapTokens (Token.relocate f))) t' ∧ R t t' := by
  have hadv := hR.advance hs hk
  cases h with
  | skipped hv => exact ⟨_, .skipped hv, hR.skipToSemicolon hs⟩
  | read hv h =>
    rw [State.errors_passSemicolon] at hcalm
    obtain ⟨t', hread, ht⟩ := h.simulated hR hadv hcalm
    exact ⟨_, .read hv hread, ht⟩
  | refused hv h =>
    exact ⟨_, .refused hv (h.relocate (hR.current hadv)), hR.skipToSemicolon (hR.record _ hadv)⟩

/-- **What a statement comes to for one parser it comes to for the other.** -/
theorem Performs.simulated {st : Option Statement} (h : standard.Performs config s st t)
    (hs : R s s') (hcalm : Simulation.Calm f R ∨ t.errors = s.errors) :
    ∃ t', standard.Performs config s' (st.map (Statement.mapTokens (Token.relocate f))) t' ∧
      R t t' := by
  have hcur := hR.current hs
  cases h with
  | letNoName hr hn =>
    have hk : s.current.kind ≠ .semicolon := by
      simp [ruleForStatement_standard_eq_let_iff.mp hr]
    have hnext := hR.next hs hk
    have hg : standard.Performs config s' none _ :=
      .letNoName (by rwa [hcur, Token.kind_relocate]) (by rwa [hnext, Token.kind_relocate])
    rw [hnext] at hg
    exact ⟨_, hg, hR.recover (hR.record _ hs)⟩
  | letNoSign hr hn ha =>
    have hk : s.current.kind ≠ .semicolon := by
      simp [ruleForStatement_standard_eq_let_iff.mp hr]
    have hnext := hR.next hs hk
    have hadv := hR.advance hs hk
    have hnext' := hR.next hadv (by simp [hn])
    have hg : standard.Performs config s' none _ :=
      .letNoSign (by rwa [hcur, Token.kind_relocate]) (by rwa [hnext, Token.kind_relocate])
        (by rwa [hnext', Token.kind_relocate])
    rw [hnext'] at hg
    exact ⟨_, hg, hR.recover (hR.record _ hadv)⟩
  | letValue hr hn ha h =>
    have hk : s.current.kind ≠ .semicolon := by
      simp [ruleForStatement_standard_eq_let_iff.mp hr]
    have hnext := hR.next hs hk
    have hadv := hR.advance hs hk
    have hnext' := hR.next hadv (by simp [hn])
    have hadv' := hR.advance hadv (by simp [hn])
    obtain ⟨t', hvalue, ht⟩ := h.simulated hR hadv' (by simp [ha]) hcalm
    have hg := Performs.letValue (s := s') (by rwa [hcur, Token.kind_relocate])
      (by rwa [hnext, Token.kind_relocate]) (by rwa [hnext', Token.kind_relocate]) hvalue
    rw [hcur, hnext] at hg
    exact ⟨_, hg, ht⟩
  | returnNothing hr hn =>
    have hk : s.current.kind ≠ .semicolon := by
      simp [ruleForStatement_standard_eq_return_iff.mp hr]
    have hg : standard.Performs config s' _ _ :=
      .returnNothing (by rwa [hcur, Token.kind_relocate])
        (by rwa [hR.next hs hk, Token.kind_relocate])
    rw [hcur] at hg
    exact ⟨_, hg, hR.advance hs hk⟩
  | returnValue hr hn h =>
    have hk : s.current.kind ≠ .semicolon := by
      simp [ruleForStatement_standard_eq_return_iff.mp hr]
    obtain ⟨t', hvalue, ht⟩ := h.simulated hR hs hk hcalm
    have hg := Performs.returnValue (s := s') (by rwa [hcur, Token.kind_relocate])
      (by rwa [hR.next hs hk, Token.kind_relocate]) hvalue
    rw [hcur] at hg
    exact ⟨_, hg, ht⟩
  | expression hr h =>
    rw [State.errors_passSemicolon] at hcalm
    obtain ⟨t', hread, ht⟩ := h.simulated hR hs hcalm
    have hg : standard.Performs config s' _ _ :=
      .expression (by rwa [hcur, Token.kind_relocate]) hread
    rw [hcur] at hg
    exact ⟨_, hg, ht⟩
  | @expressionHole err hr h =>
    have hne := (State.Precedes.refl s).errors_ne_of_record (.passSemicolon (s.record err))
    have hrec := hR.record err hs
    have hpeeks := hR.peeks hrec (.inl (hcalm.resolve_right hne))
    have hg : standard.Performs config s' _ _ :=
      .expressionHole (by rwa [hcur, Token.kind_relocate]) (h.relocate hcur)
    rw [hcur] at hg
    exact ⟨_, hg, hpeeks.passSemicolon hrec⟩

end

/-! ## A statement has one outcome -/

namespace Plain

variable {g g' : Grammar} (hg : g.Plain)
include hg

theorem statementValue_eq_of_values {v : Option Expr} (h : g.Values config s v t)
    (hf : g'.Follows g t.errors.toList) :
    Rule.statementValue config g'.expression s = (v, t) := by
  unfold Rule.statementValue
  cases h with
  | skipped hv => simp only [hv]
  | read hv h =>
    rw [State.errors_passSemicolon] at hf
    simp only [hv, hg.expression_eq_of_reads h hf]
  | refused hv h =>
    simp only [hv, (hf.refuses (by simp) h).expression_eq]

theorem statement_eq_of_follows {st : Option Statement}
    (h : g.Performs config (s.note (.statement s.current.kind)) st t)
    (hf : g'.Follows g t.errors.toList) : g'.statement config s = (st, t) := by
  set s' := s.note (.statement s.current.kind) with hs'
  have hcur : s.current = s'.current := rfl
  rw [statement, ← hs', hcur, hf.ruleForStatement]
  cases h with
  | letNoName hr hn => simp only [hr, Rule.letStatement, State.expectNext, if_neg hn]
  | letNoSign hr hn ha =>
    simp only [hr, Rule.letStatement, State.expectNext, if_pos hn, if_neg ha]
  | letValue hr hn ha h =>
    simp only [hr, Rule.letStatement, State.expectNext, if_pos hn, if_pos ha,
      hg.statementValue_eq_of_values h hf, State.current_advance]
  | returnNothing hr hn => simp only [hr, Rule.returnStatement, if_pos hn]
  | returnValue hr hn h =>
    simp only [hr, Rule.returnStatement, if_neg hn, hg.statementValue_eq_of_values h hf]
  | expression hr h =>
    rw [State.errors_passSemicolon] at hf
    simp only [hr, Rule.expressionStatement, hg.expression_eq_of_reads h hf]
  | expressionHole hr h =>
    rw [State.errors_passSemicolon] at hf
    simp only [hr, Rule.expressionStatement, (hf.refuses (by simp) h).expression_eq]

theorem statement_eq_of_performs {st : Option Statement}
    (h : g.Performs config (s.note (.statement s.current.kind)) st t) :
    g.statement config s = (st, t) :=
  hg.statement_eq_of_follows h (.refl g _)

/-- **What a statement comes to is what parsing it gives.** -/
theorem statement_eq_iff {st : Option Statement} :
    g.statement config s = (st, t) ↔
      g.Performs config (s.note (.statement s.current.kind)) st t := by
  refine ⟨fun h => ?_, hg.statement_eq_of_performs⟩
  have := hg.performs_statement config s
  rwa [h] at this

end Plain

theorem statement_simulated (hR : Simulation f R) {st : Option Statement}
    (h : standard.statement config s = (st, t)) (hs : R s s')
    (hcalm : Simulation.Calm f R ∨ t.errors = s.errors) :
    ∃ t', standard.statement config s' =
      (st.map (Statement.mapTokens (Token.relocate f)), t') ∧ R t t' := by
  have hst := standard_plain.statement_eq_iff.mp h
  obtain ⟨t', hst', ht⟩ := hst.simulated hR (hR.note _ (.statement s'.current.kind) hs) hcalm
  exact ⟨t', standard_plain.statement_eq_of_performs hst', ht⟩

end Grammar

end PrattFrontend
