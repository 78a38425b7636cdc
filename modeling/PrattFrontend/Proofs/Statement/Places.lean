import Mathlib.Data.List.Forall2
import PrattFrontend.Proofs.Expression.Places
import PrattFrontend.Proofs.Statement.Outcomes

/-!
# Where statements stand

A statement stands on the tokens that it was read from, one cell on each, and the statements of a
run stand one behind another.

* `Statement.LiesAt`: a statement holds the tokens of a stream from some place on;
* **`Grammar.Performs.liesAt`**: a statement lies on the tokens from the one where it starts on;
* **`Grammar.Plain.exists_places`**: a law of every statement at its place in the source is a law of
  a whole run, in which the places grow.
-/

namespace PrattFrontend

variable {g : Grammar} {config : Config} {s t : State} {T : Token.Stream} {a : Nat}

/-- A statement **lies** on a stream from a place on: its cells do, and it holds the tokens in them
and no others. -/
structure Statement.LiesAt (T : Token.Stream) (a : Nat) (st : Statement) : Prop where
  carries : T.Carries a st.cells
  mem_cells_iff : ∀ x, some x ∈ st.cells ↔ x = st.token ∨ x ∈ st.tokens

theorem Statement.carries_valueCells {v : Option Expr}
    (hv : ∀ e ∈ v, ∃ s t, s.tokens = T.drop a ∧ g.Reads .lowest s e t) :
    T.Carries a (valueCells v) := by
  cases v with
  | none => exact Token.Stream.carries_nil
  | some e =>
    obtain ⟨s, t, hs, h⟩ := hv e rfl
    exact (h.1.carries hs).1

namespace Grammar

theorem Values.reads {v : Option Expr} (h : g.Values config s v t) (hs : s.tokens = T.drop a) :
    ∀ e ∈ v, ∃ s t, s.tokens = T.drop (a + 1) ∧ g.Reads .lowest s e t := by
  cases h with
  | skipped => rintro _ ⟨⟩
  | read _ h =>
    rintro _ ⟨⟩
    exact ⟨_, _, by rw [State.tokens_advance, hs, Token.Stream.drop_drop], h⟩
  | refused => rintro _ ⟨⟩

/-- **A statement lies on the tokens from the one where it starts on.** -/
theorem Performs.liesAt {st : Statement} (h : g.Performs config s (some st) t)
    (hs : s.tokens = T.drop a) : st.LiesAt T a := by
  have hcur : ∀ x ∈ some s.current, T.get a = x := by
    rintro _ ⟨⟩
    exact (State.current_of_tokens_eq hs).symm
  have hnext : ∀ x ∈ some s.next, T.get (a + 1) = x := by
    rintro _ ⟨⟩
    exact (State.next_of_tokens_eq hs).symm
  cases h with
  | letValue _ _ _ h =>
    have hv := h.reads (T := T) (a := a + 1 + 1) (by simp [hs, Nat.add_assoc])
    have hcar := Statement.carries_valueCells hv
    refine ⟨?_, fun x => ?_⟩
    · exact Token.Stream.carries_cons_iff.mpr ⟨hcur, Token.Stream.carries_cons_iff.mpr
        ⟨hnext, Token.Stream.carries_cons_iff.mpr ⟨by simp, hcar⟩⟩⟩
    · simp [Statement.cells, Statement.tokens, Statement.token, Identifier.ofToken,
        Statement.some_mem_valueCells_iff]
  | returnNothing =>
    refine ⟨Token.Stream.carries_cons_iff.mpr ⟨hcur, Token.Stream.carries_nil⟩, fun x => ?_⟩
    simp [Statement.cells, Statement.valueCells, Statement.tokens, Statement.token]
  | returnValue _ _ h =>
    have hcar := Statement.carries_valueCells (h.reads hs)
    refine ⟨Token.Stream.carries_cons_iff.mpr ⟨hcur, hcar⟩, fun x => ?_⟩
    simp [Statement.cells, Statement.tokens, Statement.token, Statement.some_mem_valueCells_iff]
  | @expression e _ _ h =>
    have hcar := (h.1.carries hs).1
    obtain ⟨y, cs, hy⟩ := e.exists_cells_eq_cons
    have hmem : s.current ∈ e.tokens := by
      have hget := hcar 0 y (by rw [hy, List.getElem?_cons_zero])
      rw [Nat.add_zero, hcur _ rfl] at hget
      rw [hget, ← Expr.some_mem_cells_iff, hy]
      exact List.mem_cons_self
    refine ⟨hcar, fun x => Expr.some_mem_cells_iff.trans ?_⟩
    constructor
    · exact .inr
    · rintro (rfl | hx)
      · exact hmem
      · exact hx
  | expressionHole =>
    refine ⟨Token.Stream.carries_cons_iff.mpr ⟨hcur, Token.Stream.carries_nil⟩, fun x => ?_⟩
    simp [Statement.cells, Statement.tokens, Statement.token]

/-- **A law of every statement at its place is a law of the run.** -/
theorem Plain.exists_places (hg : g.Plain) {P : Nat → Statement → Prop}
    (hP : ∀ {a s st t}, s.tokens = T.drop a → g.Performs config s (some st) t → P a st) (n : Nat)
    (a : Nat) (s : State) (hs : s.tokens = T.drop a) :
    ∃ places : List Nat, List.Forall₂ P places (g.statements config n s).1 ∧
      (∀ b ∈ places, a ≤ b) ∧ places.Pairwise (· < ·) := by
  induction n generalizing a s with
  | zero => exact ⟨[], .nil, by simp, .nil⟩
  | succ n ih =>
    by_cases hk : s.current.kind = .endOfInput
    · rw [statements, if_pos hk]
      exact ⟨[], .nil, by simp, .nil⟩
    · obtain ⟨st, t, hst, heq⟩ := hg.statements_succ config n hk
      obtain ⟨m, hm⟩ := hst.precedes.tokens
      have ht : t.advance.tokens = T.drop (a + m + 1) := by
        rw [State.tokens_advance, hm, State.tokens_note, hs, Token.Stream.drop_drop,
          Token.Stream.drop_drop, Nat.add_assoc]
      obtain ⟨places, hplaces, hle, hlt⟩ := ih _ _ ht
      rw [heq]
      cases st with
      | none => exact ⟨places, hplaces, fun b hb => by have := hle b hb; omega, hlt⟩
      | some st =>
        have hst' := hP (s := s.note (.statement s.current.kind)) hs hst
        refine ⟨a :: places, .cons hst' hplaces, ?_, ?_⟩
        · intro b hb
          rcases List.mem_cons.mp hb with rfl | hb
          · exact Nat.le_refl _
          · have := hle b hb
            omega
        · refine List.pairwise_cons.mpr ⟨fun b hb => ?_, hlt⟩
          have := hle b hb
          omega

end Grammar

end PrattFrontend
