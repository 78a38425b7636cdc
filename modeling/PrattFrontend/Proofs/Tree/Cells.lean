import Mathlib.Data.List.ReduceOption
import Mathlib.Tactic.Common
import PrattFrontend.Token.Stream
import PrattFrontend.Tree

/-!
# The place of a tree in its source

The tokens that a tree was read from stand in a row, but not all of them are held by it: the tree
keeps nothing of a token that was refused as an operand. A row of **cells** has one cell for each
token, empty if the tree does not hold it.

* **`Expr.cells`**: the cells of an expression, with an empty one for each missing operand;
* `Statement.cells`: the cells of a statement, with an empty one for the sign of a binding;
* `Token.Stream.Carries`: a row of cells lies on a stream of tokens from some place on.
-/

namespace PrattFrontend

namespace Expr

/-- **The cells of an expression**: its tokens in order, and an empty cell for each missing
operand. -/
def cells : Expr → List (Option Token)
  | .identifier i => [some i.token]
  | .integer t _ => [some t]
  | .unary t _ none => [some t, none]
  | .unary t _ (some e) => some t :: e.cells
  | .binary t d _ none => d.cells ++ [some t, none]
  | .binary t d _ (some e) => d.cells ++ some t :: e.cells
termination_by structural e => e

theorem reduceOption_cells (e : Expr) : e.cells.reduceOption = e.tokens := by
  induction e with
  | identifier i => rfl
  | integer t v => rfl
  | unary t o r ih =>
    cases r with
    | none => rfl
    | some e => rw [cells, tokens, List.reduceOption_cons_of_some, ih e rfl]
  | binary t d o r ihd ih =>
    cases r with
    | none =>
      rw [cells, tokens, List.reduceOption_append, ihd]
      rfl
    | some e =>
      rw [cells, tokens, List.reduceOption_append, List.reduceOption_cons_of_some, ihd, ih e rfl]

theorem some_mem_cells_iff {e : Expr} {x : Token} : some x ∈ e.cells ↔ x ∈ e.tokens := by
  rw [← reduceOption_cells, List.reduceOption_mem_iff]

theorem exists_cells_eq_cons (e : Expr) : ∃ t cs, e.cells = some t :: cs := by
  induction e with
  | identifier i => exact ⟨i.token, [], rfl⟩
  | integer t v => exact ⟨t, [], rfl⟩
  | unary t o r => cases r <;> exact ⟨t, _, rfl⟩
  | binary t d o r ihd =>
    obtain ⟨u, cs, hd⟩ := ihd
    cases r with
    | none => exact ⟨u, cs ++ [some t, none], by rw [cells, hd, List.cons_append]⟩
    | some e => exact ⟨u, cs ++ some t :: e.cells, by rw [cells, hd, List.cons_append]⟩

theorem length_cells_pos (e : Expr) : 0 < e.cells.length := by
  obtain ⟨t, cs, he⟩ := e.exists_cells_eq_cons
  rw [he]
  exact Nat.succ_pos _

end Expr

namespace Statement

/-- The cells of a value that may be missing. -/
def valueCells (v : Option Expr) : List (Option Token) :=
  (v.map Expr.cells).getD []

/-- **The cells of a statement.** The sign in a binding is not held, and so has an empty cell. Of a
bare expression that could not be read the first token is held. -/
def cells : Statement → List (Option Token)
  | letValue t name v => some t :: some name.token :: none :: valueCells v
  | returnValue t v => some t :: valueCells v
  | expression _ (some e) => e.cells
  | expression t none => [some t]

theorem some_mem_valueCells_iff {v : Option Expr} {x : Token} :
    some x ∈ valueCells v ↔ x ∈ (v.map Expr.tokens).getD [] := by
  cases v with
  | none => simp [valueCells]
  | some e => exact Expr.some_mem_cells_iff

end Statement

namespace Token.Stream

variable {T : Token.Stream} {a : Nat}

/-- A row of cells lies on a stream from the place `a` on: the tokens in the cells are those of the
stream. -/
def Carries (T : Token.Stream) (a : Nat) (cs : List (Option Token)) : Prop :=
  ∀ i t, cs[i]? = some (some t) → T.get (a + i) = t

theorem carries_nil : T.Carries a [] := by
  intro i t h
  simp at h

theorem carries_cons_iff {c : Option Token} {cs : List (Option Token)} :
    T.Carries a (c :: cs) ↔ (∀ t ∈ c, T.get a = t) ∧ T.Carries (a + 1) cs := by
  constructor
  · intro h
    refine ⟨fun t ht => h 0 t (by rw [List.getElem?_cons_zero, ht]), fun i t hi => ?_⟩
    rw [Nat.add_assoc, Nat.add_comm 1]
    exact h (i + 1) t (by rwa [List.getElem?_cons_succ])
  · rintro ⟨h₀, h⟩ i t hi
    cases i with
    | zero =>
      rw [List.getElem?_cons_zero, Option.some.injEq] at hi
      exact h₀ t hi
    | succ i =>
      rw [List.getElem?_cons_succ] at hi
      rw [← h i t hi, Nat.add_assoc, Nat.add_comm 1]

theorem carries_append_iff {cs ds : List (Option Token)} :
    T.Carries a (cs ++ ds) ↔ T.Carries a cs ∧ T.Carries (a + cs.length) ds := by
  induction cs generalizing a with
  | nil => simp [carries_nil]
  | cons c cs ih =>
    rw [List.cons_append, carries_cons_iff, carries_cons_iff, ih, List.length_cons, and_assoc,
      Nat.add_assoc, Nat.add_comm 1]

theorem Carries.reduceOption_sublist {cs : List (Option Token)} (h : T.Carries a cs)
    (hk : ∀ t, some t ∈ cs → t.kind ≠ .endOfInput) :
    cs.reduceOption.Sublist ((T.ahead.drop a).take cs.length) := by
  induction cs generalizing a with
  | nil => exact .slnil
  | cons c cs ih =>
    obtain ⟨hc, hcs⟩ := carries_cons_iff.mp h
    have hrest := ih hcs fun t ht => hk t (List.mem_cons_of_mem c ht)
    by_cases hlt : a < T.ahead.length
    · rw [List.drop_eq_getElem_cons hlt, List.length_cons, List.take_succ_cons]
      cases c with
      | none =>
        rw [List.reduceOption_cons_of_none]
        exact hrest.cons _
      | some t =>
        rw [List.reduceOption_cons_of_some, ← hc t rfl, get_of_lt hlt]
        exact hrest.cons_cons _
    · cases c with
      | none =>
        rw [List.drop_of_length_le (by omega), List.take_nil] at hrest ⊢
        rwa [List.reduceOption_cons_of_none]
      | some t =>
        refine absurd ?_ (hk t List.mem_cons_self)
        rw [← hc t rfl, get_of_length_le (by omega), kind_endAt]

theorem Carries.eq_map_get {ts : List Token} (h : T.Carries a (ts.map some)) :
    ts = (List.range ts.length).map fun i => T.get (a + i) := by
  refine List.ext_getElem (by simp) fun i hi _ => ?_
  rw [List.getElem_map, List.getElem_range]
  exact (h i ts[i] (by rw [List.getElem?_map, List.getElem?_eq_getElem hi, Option.map_some])).symm

theorem map_get_range {n : Nat} (h : n ≤ T.ahead.length) :
    (List.range n).map T.get = T.ahead.take n := by
  refine List.ext_getElem (by simp [h]) fun i hi _ => ?_
  rw [List.length_map, List.length_range] at hi
  rw [List.getElem_map, List.getElem_range, List.getElem_take, get_of_lt (by omega)]

end Token.Stream

end PrattFrontend
