import Mathlib.Data.List.Forall2
import PrattFrontend.ParseError
import PrattFrontend.Parser.Grammar
import PrattFrontend.Proofs.Tree.Nodes

/-!
# Holes

Where an expression was due and none could be parsed, the tree has a hole, and the token that was
refused there is what an error is about.

* **`Hole`**: the four sorts of holes; `Expr.holes`, `Statement.holes`: those of a tree, in order;
* `Hole.StandsAt`: the place of the source where the missing expression was due;
* `ParseError.Refuses`: the errors about a token with which no expression starts;
* **`Token.Stream.Accounts`**: holes and errors, one for one and in the order of the source.
-/

namespace PrattFrontend

/-- **A hole** in a tree, named for what stands before it: an operator, the start of a binding, or
the start of a return. In place of a bare expression nothing stands before it, and it is named for
the token that was refused. -/
inductive Hole where
  | operand (operator : Token)
  | binding (word : Token) (name : Identifier)
  | returned (word : Token)
  | bare (refused : Token)

/-- The holes of an expression, in the order of the source. -/
def Expr.holes (e : Expr) : List Hole :=
  (e.nodes.filter Expr.lacksOperand).map fun n => .operand n.token

/-- **The holes of a statement**, given the token behind its first. A value that is passed over
leaves none, and neither does a return right before a semicolon, which has no value. -/
def Statement.holes (values : ValueMode) (next : Token) : Statement → List Hole
  | letValue t name none => if values = .parse then [.binding t name] else []
  | returnValue t none => if values = .parse ∧ next.kind ≠ .semicolon then [.returned t] else []
  | expression t none => [.bare t]
  | letValue _ _ (some e) => e.holes
  | returnValue _ (some e) => e.holes
  | expression _ (some e) => e.holes

namespace Expr

@[simp] theorem holes_identifier (i : Identifier) : (identifier i).holes = [] := rfl

@[simp] theorem holes_integer (t : Token) (v : Int) : (integer t v).holes = [] := rfl

@[simp] theorem holes_unary_none (t : Token) (o : String) :
    (unary t o none).holes = [.operand t] := rfl

@[simp] theorem holes_unary_some (t : Token) (o : String) (e : Expr) :
    (unary t o (some e)).holes = e.holes := rfl

@[simp] theorem holes_binary_none (t : Token) (d : Expr) (o : String) :
    (binary t d o none).holes = d.holes ++ [.operand t] := by
  rw [holes, nodes, List.filter_append, List.map_append]
  rfl

@[simp] theorem holes_binary_some (t : Token) (d : Expr) (o : String) (e : Expr) :
    (binary t d o (some e)).holes = d.holes ++ e.holes := by
  rw [holes, nodes, List.filter_append, List.map_append]
  rfl

end Expr

/-! ## The place of a hole -/

/-- A hole **stands at** the place where its expression was due: behind its operator, behind the
sign of its binding, behind the word of its return, or at the start of its statement. -/
inductive Hole.StandsAt (T : Token.Stream) : Hole → Nat → Prop
  | operand {t j} (ht : T.get j = t) : StandsAt T (.operand t) (j + 1)
  | binding {t name j} (ht : T.get j = t) (hn : T.get (j + 1) = name.token)
      (ha : (T.get (j + 2)).kind = .assign) : StandsAt T (.binding t name) (j + 3)
  | returned {t j} (ht : T.get j = t) : StandsAt T (.returned t) (j + 1)
  | bare {t j} (ht : T.get j = t) : StandsAt T (.bare t) j

/-! ## Errors about a token -/

namespace ParseError

/-- An error **refuses** a token: no expression starts with it, or it is a number out of range. -/
inductive Refuses (t : Token) : ParseError → Prop
  | noRule (h : Grammar.standard.prefixRule? t.kind = none) :
      Refuses t ⟨.noPrefixRule t.kind, t.span.start⟩
  | outOfRange (hk : t.kind = .integer) (hv : Text.readInteger? t.literal = none) :
      Refuses t ⟨.integerOutOfRange t.literal, t.span.start⟩

/-- Whether an error is about a token that cannot start an expression. The others are about a token
that should have been of a certain kind. -/
def isRefusal (e : ParseError) : Bool :=
  e.cause matches .noPrefixRule _ | .integerOutOfRange _

theorem Refuses.isRefusal {t : Token} {e : ParseError} (h : Refuses t e) : e.isRefusal = true := by
  cases h <;> rfl

end ParseError

/-! ## Holes and errors side by side -/

namespace Token.Stream

variable {T : Token.Stream} {a b c : Nat} {hs hs' : List Hole} {es es' : List ParseError}

/-- **Holes and errors account for each other** between two places of a stream: they can be counted
off against places that grow, each hole stands at its place, and each error refuses the token
there. -/
def Accounts (T : Token.Stream) (a b : Nat) (hs : List Hole) (es : List ParseError) : Prop :=
  ∃ places : List Nat, places.Pairwise (· < ·) ∧ (∀ i ∈ places, a ≤ i ∧ i < b) ∧
    List.Forall₂ (Hole.StandsAt T) hs places ∧
    List.Forall₂ (fun i e => ParseError.Refuses (T.get i) e) places es

theorem accounts_nil (T : Token.Stream) (a b : Nat) : T.Accounts a b [] [] :=
  ⟨[], .nil, by simp, .nil, .nil⟩

theorem accounts_single {i : Nat} {hole : Hole} {e : ParseError} (hole_at : hole.StandsAt T i)
    (he : ParseError.Refuses (T.get i) e) : T.Accounts i (i + 1) [hole] [e] := by
  refine ⟨[i], List.pairwise_singleton _ _, fun j hj => ?_, .cons hole_at .nil, .cons he .nil⟩
  rw [List.mem_singleton] at hj
  omega

theorem Accounts.mono {a' b' : Nat} (h : T.Accounts a b hs es) (ha : a' ≤ a) (hb : b ≤ b') :
    T.Accounts a' b' hs es := by
  obtain ⟨places, hlt, hin, hholes, herrs⟩ := h
  refine ⟨places, hlt, fun i hi => ?_, hholes, herrs⟩
  have := hin i hi
  omega

theorem Accounts.append (h : T.Accounts a b hs es) (h' : T.Accounts b c hs' es') (hab : a ≤ b)
    (hbc : b ≤ c) : T.Accounts a c (hs ++ hs') (es ++ es') := by
  obtain ⟨ps, hlt, hin, hholes, herrs⟩ := h
  obtain ⟨ps', hlt', hin', hholes', herrs'⟩ := h'
  refine ⟨ps ++ ps', List.pairwise_append.mpr ⟨hlt, hlt', fun i hi j hj => ?_⟩, fun i hi => ?_,
    List.rel_append hholes hholes', List.rel_append herrs herrs'⟩
  · have := hin i hi
    have := hin' j hj
    omega
  · rcases List.mem_append.mp hi with hi | hi
    · have := hin i hi
      omega
    · have := hin' i hi
      omega

theorem Accounts.isRefusal (h : T.Accounts a b hs es) : ∀ e ∈ es, e.isRefusal = true := by
  obtain ⟨places, -, -, -, herrs⟩ := h
  intro e he
  obtain ⟨n, hn, heq⟩ := List.getElem_of_mem he
  have := (List.forall₂_iff_get.mp herrs).2 n (by rw [herrs.length_eq]; exact hn) hn
  rw [List.get_eq_getElem, List.get_eq_getElem, heq] at this
  exact this.isRefusal

end Token.Stream

end PrattFrontend
