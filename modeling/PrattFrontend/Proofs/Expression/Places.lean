import PrattFrontend.Proofs.Expression.Growth
import PrattFrontend.Proofs.Tree.Cells
import PrattFrontend.Proofs.Tree.Nodes

/-!
# Where an expression stands

* **`Grammar.Grows.carries`**: the cells of an expression lie on the tokens from the one where it
  starts up to the one where the parser stands behind it. So a tree loses and invents no token, and
  each missing operand stands for one token that was refused;
* `Expr.Complete.cells_eq`: without missing operands, the cells are the tokens.
-/

namespace PrattFrontend

theorem Expr.Complete.cells_eq {e : Expr} (h : e.Complete) : e.cells = e.tokens.map some := by
  induction e with
  | identifier i => rfl
  | integer t v => rfl
  | unary t o r ih =>
    obtain ⟨e, rfl, he⟩ := complete_unary_iff.mp h
    simp [cells, tokens, ih e rfl he]
  | binary t d o r ihd ih =>
    obtain ⟨hd, e, rfl, he⟩ := complete_binary_iff.mp h
    simp [cells, tokens, ihd hd, ih e rfl he]

namespace Grammar.Grows

variable {g : Grammar} {p : Power} {s t : State} {e : Expr} {T : Token.Stream} {a : Nat}

/-- **An expression lies on the tokens it was read from**, one cell on each. -/
theorem carries (h : g.Grows p s e t) (hs : s.tokens = T.drop a) :
    T.Carries a e.cells ∧ t.tokens = T.drop (a + (e.cells.length - 1)) := by
  induction h generalizing a with
  | @identifier p s h =>
    refine ⟨Token.Stream.carries_cons_iff.mpr ⟨?_, Token.Stream.carries_nil⟩, hs⟩
    rintro _ ⟨⟩
    exact (State.current_of_tokens_eq hs).symm
  | @integer p s v h hv =>
    refine ⟨Token.Stream.carries_cons_iff.mpr ⟨?_, Token.Stream.carries_nil⟩, hs⟩
    rintro _ ⟨⟩
    exact (State.current_of_tokens_eq hs).symm
  | @unary p s e t h right stops ih =>
    obtain ⟨hc, ht⟩ := ih (a := a + 1) (by rw [State.tokens_advance, hs, Token.Stream.drop_drop])
    have hpos := e.length_cells_pos
    refine ⟨Token.Stream.carries_cons_iff.mpr ⟨?_, hc⟩, ?_⟩
    · rintro _ ⟨⟩
      exact (State.current_of_tokens_eq hs).symm
    · rw [ht, Expr.cells, List.length_cons]
      congr 1
      omega
  | @unaryHole p s err h hole =>
    refine ⟨Token.Stream.carries_cons_iff.mpr ⟨?_, Token.Stream.carries_cons_iff.mpr
      ⟨by simp, Token.Stream.carries_nil⟩⟩, ?_⟩
    · rintro _ ⟨⟩
      exact (State.current_of_tokens_eq hs).symm
    · rw [State.tokens_record, State.tokens_advance, hs, Token.Stream.drop_drop]
      rfl
  | @binary p s l t op e u left hop right stops ihl ih =>
    obtain ⟨hl, ht⟩ := ihl hs
    have hposl := l.length_cells_pos
    have hpos := e.length_cells_pos
    have hnext : t.next = T.get (a + l.cells.length) := by
      rw [State.next_of_tokens_eq ht]
      congr 1
      omega
    obtain ⟨hc, hu⟩ := ih (a := a + l.cells.length + 1) (by
      rw [State.tokens_advance, State.tokens_advance, ht, Token.Stream.drop_drop,
        Token.Stream.drop_drop]
      congr 1
      omega)
    refine ⟨Token.Stream.carries_append_iff.mpr ⟨hl, Token.Stream.carries_cons_iff.mpr ⟨?_, hc⟩⟩, ?_⟩
    · rintro _ ⟨⟩
      exact hnext.symm
    · rw [hu, Expr.cells, List.length_append, List.length_cons]
      congr 1
      omega
  | @binaryHole p s l t op err left hop hole ihl =>
    obtain ⟨hl, ht⟩ := ihl hs
    have hposl := l.length_cells_pos
    have hnext : t.next = T.get (a + l.cells.length) := by
      rw [State.next_of_tokens_eq ht]
      congr 1
      omega
    refine ⟨Token.Stream.carries_append_iff.mpr ⟨hl, Token.Stream.carries_cons_iff.mpr
      ⟨?_, Token.Stream.carries_cons_iff.mpr ⟨by simp, Token.Stream.carries_nil⟩⟩⟩, ?_⟩
    · rintro _ ⟨⟩
      exact hnext.symm
    · rw [State.tokens_record, State.tokens_advance, State.tokens_advance, ht,
        Token.Stream.drop_drop, Token.Stream.drop_drop, Expr.cells, List.length_append]
      congr 1
      simp only [List.length_cons, List.length_nil]
      omega

theorem tokens_eq (h : g.Grows p s e t) (hc : e.Complete) :
    ∃ n, t.tokens = s.tokens.drop n ∧ e.tokens = (List.range (n + 1)).map s.tokens.get := by
  obtain ⟨hcar, ht⟩ := h.carries (T := s.tokens) (a := 0) (Token.Stream.drop_zero _).symm
  have hpos := e.length_cells_pos
  have hlen : e.cells.length = e.tokens.length := by rw [hc.cells_eq, List.length_map]
  rw [hc.cells_eq] at hcar
  refine ⟨e.cells.length - 1, by rw [ht, Nat.zero_add], ?_⟩
  have heq := hcar.eq_map_get
  simp only [Nat.zero_add] at heq
  rw [heq, ← hlen, show e.cells.length - 1 + 1 = e.cells.length by omega]

end Grammar.Grows

end PrattFrontend
