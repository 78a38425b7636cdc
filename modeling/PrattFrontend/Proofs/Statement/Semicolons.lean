import Mathlib.Data.List.Chain
import PrattFrontend.Proofs.Expression.Precedence
import PrattFrontend.Proofs.Statement.Places

/-!
# Statements and semicolons

A statement may go on behind a semicolon, but only in one way: the semicolon was refused as an
operand, and an operator stands right behind it. The loop over operators then takes that operator,
because it looks at the next token and never at the current one.

* `Expr.Spelled.isChain_cells`: in a tree, only an operator comes right behind a missing operand;
* `Token.Stream.Crosses`, `Token.Stream.GoesOn`: a row of cells goes on behind a semicolon, and how;
* `Grammar.Reads.refusedAt`, `Grammar.Performs.crosses_iff_goesOn`: expressions and statements;
* **`exists_places_crosses_iff_goesOn`**: the statements of a source.
-/

namespace PrattFrontend

open Grammar (standard standardPower?)

variable {config : Config} {p : Power} {s t : State} {e : Expr} {T : Token.Stream} {a : Nat}

/-! ## Behind a missing operand -/

theorem Expr.Spelled.isChain_cells (he : e.Spelled) :
    e.cells.IsChain fun c d => c = none → ∃ x, d = some x ∧ (standardPower? x.kind).isSome := by
  induction e with
  | identifier i => exact .singleton _
  | integer t v => exact .singleton _
  | unary t o r ih =>
    obtain ⟨-, her⟩ := forall_mem_nodes_unary.mp he
    cases r with
    | none => exact .cons_cons (by simp) (.singleton _)
    | some e =>
      rw [cells, List.isChain_cons]
      exact ⟨by simp, ih e rfl (her e rfl)⟩
  | binary t d o r ihd ih =>
    obtain ⟨hop, hd, her⟩ := forall_mem_nodes_binary.mp he
    cases r with
    | none =>
      rw [cells, List.isChain_append]
      refine ⟨ihd hd, .cons_cons (by simp) (.singleton _), ?_⟩
      rintro c - _ ⟨⟩ -
      exact ⟨t, rfl, hop.1⟩
    | some e =>
      rw [cells, List.isChain_append, List.isChain_cons]
      refine ⟨ihd hd, ⟨by simp, ih e rfl (her e rfl)⟩, ?_⟩
      rintro c - _ ⟨⟩ -
      exact ⟨t, rfl, hop.1⟩

theorem Expr.Spelled.exists_behind_hole (he : e.Spelled) {i : Nat} (hi : e.cells[i]? = some none)
    (hlt : i + 1 < e.cells.length) :
    ∃ x, e.cells[i + 1]? = some (some x) ∧ (standardPower? x.kind).isSome := by
  obtain ⟨_, hcell⟩ := List.getElem?_eq_some_iff.mp hi
  obtain ⟨x, hx, hop⟩ := List.isChain_iff_getElem.mp he.isChain_cells i hlt hcell
  exact ⟨x, by rw [List.getElem?_eq_getElem hlt, hx], hop⟩

namespace Grammar

theorem Grows.cell_eq_none_of_semicolon (h : standard.Grows p s e t) (hs : s.tokens = T.drop a)
    {i : Nat} (hi : i < e.cells.length) (hk : (T.get (a + i)).kind = .semicolon) :
    e.cells[i]? = some none ∧ 0 < i := by
  have htoken : ∀ x, e.cells[i]? ≠ some (some x) := by
    intro x hx
    have hmem := Expr.some_mem_cells_iff.mp (List.mem_of_getElem? hx)
    have hrule := h.spelled.prefixRule_or_power hmem
    rw [← (h.carries hs).1 i x hx, hk] at hrule
    simp [standard, standardPrefixRule?, standardPower?] at hrule
  have hnone : e.cells[i]? = some none := by
    cases hc : e.cells[i] with
    | none => rw [List.getElem?_eq_getElem hi, hc]
    | some x => exact absurd (by rw [List.getElem?_eq_getElem hi, hc]) (htoken x)
  refine ⟨hnone, Nat.pos_of_ne_zero ?_⟩
  rintro rfl
  obtain ⟨x, cs, hx⟩ := e.exists_cells_eq_cons
  exact htoken x (by rw [hx, List.getElem?_cons_zero])

/-- **Behind a missing operand an expression goes on exactly if an operator is there.** -/
theorem Reads.isSome_power_behind_hole_iff (h : standard.Reads .lowest s e t)
    (hs : s.tokens = T.drop a) {i : Nat} (hi : e.cells[i]? = some none) :
    (standardPower? (T.get (a + i + 1)).kind).isSome ↔ i + 1 < e.cells.length := by
  obtain ⟨hcar, ht⟩ := h.1.carries hs
  constructor
  · intro hpow
    obtain ⟨hlt, -⟩ := List.getElem?_eq_some_iff.mp hi
    by_contra hge
    have hnext : t.next = T.get (a + i + 1) := by
      rw [State.next_of_tokens_eq ht]
      congr 1
      omega
    rw [← hnext, nextOperator?_lowest_standard_eq_none_iff.mp h.2] at hpow
    cases hpow
  · intro hlt
    obtain ⟨x, hx, hop⟩ := h.1.spelled.exists_behind_hole hi hlt
    rwa [Nat.add_assoc, hcar (i + 1) x hx]

end Grammar

/-! ## Rows that cross a semicolon -/

namespace Token.Stream

/-- A row of cells **crosses** a semicolon that stands between two of its tokens. -/
def Crosses (T : Token.Stream) (a : Nat) (cs : List (Option Token)) : Prop :=
  ∃ i j k x y, i < j ∧ j < k ∧ cs[i]? = some (some x) ∧ (T.get (a + j)).kind = .semicolon ∧
    cs[k]? = some (some y)

/-- A row of cells **goes on** behind a semicolon that stands at an empty cell, with an operator
right behind it. -/
def GoesOn (T : Token.Stream) (a : Nat) (cs : List (Option Token)) : Prop :=
  ∃ j, cs[j]? = some none ∧ (T.get (a + j)).kind = .semicolon ∧
    (standardPower? (T.get (a + j + 1)).kind).isSome

/-- What a row of cells looks like around a refused token: its cell is empty, some token stands
before it, and the row goes on, with a token, exactly if an operator stands behind it. -/
structure RefusedAt (T : Token.Stream) (a : Nat) (cs : List (Option Token)) (j : Nat) : Prop where
  cell : cs[j]? = some none
  before : ∃ i < j, ∃ x, cs[i]? = some (some x)
  behind : j + 1 < cs.length → ∃ x, cs[j + 1]? = some (some x)
  power : (standardPower? (T.get (a + j + 1)).kind).isSome ↔ j + 1 < cs.length

theorem crosses_iff_goesOn {cs : List (Option Token)}
    (h : ∀ j < cs.length, (T.get (a + j)).kind = .semicolon → T.RefusedAt a cs j) :
    T.Crosses a cs ↔ T.GoesOn a cs := by
  constructor
  · rintro ⟨i, j, k, x, y, -, hjk, -, hj, hk⟩
    obtain ⟨hlt, -⟩ := List.getElem?_eq_some_iff.mp hk
    have href := h j (by omega) hj
    exact ⟨j, href.cell, hj, href.power.mpr (by omega)⟩
  · rintro ⟨j, hnone, hj, hpow⟩
    obtain ⟨hlt, -⟩ := List.getElem?_eq_some_iff.mp hnone
    have href := h j hlt hj
    obtain ⟨i, hij, x, hx⟩ := href.before
    obtain ⟨y, hy⟩ := href.behind (href.power.mp hpow)
    exact ⟨i, j, j + 1, x, y, hij, Nat.lt_succ_self j, hx, hj, hy⟩

theorem RefusedAt.append {cs ds : List (Option Token)} {j : Nat}
    (h : T.RefusedAt (a + cs.length) ds j) : T.RefusedAt a (cs ++ ds) (cs.length + j) := by
  have hcell : ∀ i, (cs ++ ds)[cs.length + i]? = ds[i]? := fun i => by
    rw [List.getElem?_append_right (Nat.le_add_right _ _), Nat.add_sub_cancel_left]
  obtain ⟨i, hij, x, hx⟩ := h.before
  refine ⟨by rw [hcell, h.cell], ⟨cs.length + i, by omega, x, by rw [hcell, hx]⟩, ?_, ?_⟩
  · intro hlt
    rw [List.length_append] at hlt
    rw [Nat.add_assoc, hcell]
    exact h.behind (by omega)
  · rw [← Nat.add_assoc, h.power, List.length_append]
    omega

end Token.Stream

theorem Grammar.Reads.refusedAt (h : standard.Reads .lowest s e t) (hs : s.tokens = T.drop a)
    {i : Nat} (hi : i < e.cells.length) (hk : (T.get (a + i)).kind = .semicolon) :
    T.RefusedAt a e.cells i := by
  obtain ⟨hcell, hpos⟩ := h.1.cell_eq_none_of_semicolon hs hi hk
  obtain ⟨x, cs, hx⟩ := e.exists_cells_eq_cons
  refine ⟨hcell, ⟨0, hpos, x, by rw [hx, List.getElem?_cons_zero]⟩, fun hlt => ?_,
    h.isSome_power_behind_hole_iff hs hcell⟩
  obtain ⟨y, hy, -⟩ := h.1.spelled.exists_behind_hole hcell hlt
  exact ⟨y, hy⟩

/-- **A row that ends with a value crosses a semicolon exactly if it goes on there.** -/
theorem Statement.crosses_iff_goesOn (cs : List (Option Token)) (v : Option Expr)
    (hcs : ∀ i < cs.length, (T.get (a + i)).kind ≠ .semicolon)
    (hv : ∀ e ∈ v, ∃ s t, s.tokens = T.drop (a + cs.length) ∧ standard.Reads .lowest s e t) :
    T.Crosses a (cs ++ valueCells v) ↔ T.GoesOn a (cs ++ valueCells v) := by
  refine Token.Stream.crosses_iff_goesOn fun j hj hk => ?_
  obtain ⟨i, rfl⟩ : ∃ i, j = cs.length + i := by
    refine ⟨j - cs.length, ?_⟩
    by_contra hne
    exact hcs j (by omega) hk
  rw [List.length_append] at hj
  cases v with
  | none =>
    simp only [valueCells, Option.map_none, Option.getD_none, List.length_nil] at hj
    omega
  | some e =>
    obtain ⟨s, t, hs, h⟩ := hv e rfl
    simp only [valueCells, Option.map_some, Option.getD_some] at hj
    exact (h.refusedAt hs (by omega) (by rwa [Nat.add_assoc])).append

/-! ## Statements -/

namespace Grammar

/-- **A statement crosses a semicolon exactly if it goes on behind one.** -/
theorem Performs.crosses_iff_goesOn {st : Statement}
    (h : standard.Performs config s (some st) t) (hs : s.tokens = T.drop a) :
    T.Crosses a st.cells ↔ T.GoesOn a st.cells := by
  have hcur : s.current = T.get a := State.current_of_tokens_eq hs
  have hnext : s.next = T.get (a + 1) := State.next_of_tokens_eq hs
  cases h with
  | @letValue v t hr hn ha h =>
    have hlet := ruleForStatement_standard_eq_let_iff.mp hr
    have hsign : s.advance.next = T.get (a + 2) :=
      State.next_of_tokens_eq (n := a + 1) (by rw [State.tokens_advance, hs, Token.Stream.drop_drop])
    rw [hcur] at hlet
    rw [hnext] at hn
    rw [hsign] at ha
    refine Statement.crosses_iff_goesOn [some s.current, some s.next, none] v ?_
      (h.reads (by simp [hs, Nat.add_assoc]))
    intro i hi
    match i, hi with
    | 0, _ => simp [hlet]
    | 1, _ => simp [hn]
    | 2, _ => simp [ha]
  | returnNothing hr =>
    have hreturn := ruleForStatement_standard_eq_return_iff.mp hr
    rw [hcur] at hreturn
    exact Statement.crosses_iff_goesOn [some s.current] none (by simp [hreturn]) (by simp)
  | @returnValue v t hr _ h =>
    have hreturn := ruleForStatement_standard_eq_return_iff.mp hr
    rw [hcur] at hreturn
    exact Statement.crosses_iff_goesOn [some s.current] v (by simp [hreturn]) (h.reads hs)
  | @expression e t _ h =>
    refine Statement.crosses_iff_goesOn [] (some e) (by simp) ?_
    rintro _ ⟨⟩
    exact ⟨s, t, hs, h⟩
  | expressionHole =>
    -- one cell alone has nothing on two sides, whatever token it holds
    refine iff_of_false ?_ ?_
    · rintro ⟨i, j, k, x, y, hij, hjk, -, -, hk⟩
      obtain ⟨hlt, -⟩ := List.getElem?_eq_some_iff.mp hk
      simp only [Statement.cells, List.length_singleton] at hlt
      omega
    · rintro ⟨j, hnone, -⟩
      have hmem := List.mem_of_getElem? hnone
      simp [Statement.cells] at hmem

end Grammar

/-- **A statement crosses a semicolon exactly if it goes on behind one.** -/
theorem exists_places_crosses_iff_goesOn (config : Config) (source : Source) :
    ∃ places : List Nat,
      List.Forall₂ (fun a st => st.LiesAt (.ofSource source) a ∧
          ((Token.Stream.ofSource source).Crosses a st.cells ↔
            (Token.Stream.ofSource source).GoesOn a st.cells))
        places (parse config source).1.statements ∧
      places.Pairwise (· < ·) := by
  obtain ⟨places, hplaces, -, hlt⟩ := Grammar.standard_plain.exists_places
    (T := .ofSource source)
    (P := fun a st => st.LiesAt (.ofSource source) a ∧
      ((Token.Stream.ofSource source).Crosses a st.cells ↔
        (Token.Stream.ofSource source).GoesOn a st.cells))
    (fun hs h => ⟨h.liesAt hs, h.crosses_iff_goesOn hs⟩)
    (Token.Stream.ofSource source).ahead.length 0
    ((State.start (.ofSource source)).note (.started (Token.Stream.ofSource source).stop.file)) rfl
  exact ⟨places, hplaces, hlt⟩

/-- A source in which a semicolon is refused as an operand, and an operator stands behind it. -/
def crossingSource : Source :=
  .ofText "1 + ; - 2" none

/-- The minus sign behind the semicolon takes the tree before it. -/
theorem crosses_crossingSource :
    ¬∀ (config : Config) (source : Source), ∀ st ∈ (parse config source).1.statements,
      ∀ (i j k : Nat) (x c y : Token), i < j → j < k → (tokenize source)[i]? = some x →
        (tokenize source)[j]? = some c → (tokenize source)[k]? = some y →
        x = st.token ∨ x ∈ st.tokens → y = st.token ∨ y ∈ st.tokens → c.kind ≠ .semicolon := by
  intro h
  obtain ⟨st, hst, hx, hy⟩ : ∃ st ∈ (parse {} crossingSource).1.statements,
      (Token.Stream.ofSource crossingSource).get 0 ∈ st.tokens ∧
        (Token.Stream.ofSource crossingSource).get 4 ∈ st.tokens := by
    decide +kernel
  have hget : ∀ i < 5, (tokenize crossingSource)[i]? =
      some ((Token.Stream.ofSource crossingSource).get i) := by
    decide +kernel
  exact h {} crossingSource st hst 0 2 4 _ _ _ (by decide) (by decide) (hget 0 (by decide))
    (hget 2 (by decide)) (hget 4 (by decide)) (.inr hx) (.inr hy) (by decide +kernel)

end PrattFrontend
