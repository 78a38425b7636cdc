import PrattFrontend.Proofs.Statement.Turns
import PrattFrontend.Proofs.Tree.Holes

/-!
# Holes and errors

Every hole in a parsed program comes with one error about the token that was refused there, and
every other error comes with a statement that failed.

* `State.LeavesHoles`: the errors recorded between two states account for some holes;
* `Grammar.Grows.leavesHoles`: the holes of an expression;
* **`Grammar.Performs.leavesHoles`**: those of a statement;
* `Grammar.accounts_turns`: those of a run;
* **`exists_places_holes`**: those of a source.
-/

namespace PrattFrontend

open Grammar (standard)

variable {config : Config} {p : Power} {s t u : State} {e : Expr} {err : ParseError}
  {T : Token.Stream} {a : Nat} {missing : List Hole}

/-! ## Between two states -/

/-- Between two states of a parser, the first of them at a given place of the source, errors are
recorded that **account for** some holes. All of these stand at places up to the one at which the
parser has arrived. -/
def State.LeavesHoles (T : Token.Stream) (a : Nat) (missing : List Hole) (s t : State) : Prop :=
  ∃ b errs, a ≤ b ∧ t.tokens = T.drop b ∧ t.errors.toList = s.errors.toList ++ errs ∧
    T.Accounts a (b + 1) missing errs

namespace State

theorem leavesHoles_refl (hs : s.tokens = T.drop a) : LeavesHoles T a [] s s :=
  ⟨a, [], Nat.le_refl a, hs, (List.append_nil _).symm, Token.Stream.accounts_nil T a _⟩

theorem LeavesHoles.move (h : LeavesHoles T a missing s t) (htu : t.Precedes u)
    (he : u.errors = t.errors) : LeavesHoles T a missing s u := by
  obtain ⟨b, errs, hab, ht, herrs, hacc⟩ := h
  obtain ⟨n, hn⟩ := htu.tokens
  refine ⟨b + n, errs, by omega, by rw [hn, ht, Token.Stream.drop_drop], by rw [he, herrs],
    hacc.mono (Nat.le_refl a) (by omega)⟩

theorem LeavesHoles.back (h : LeavesHoles T (a + 1) missing s.advance t) :
    LeavesHoles T a missing s t := by
  obtain ⟨b, errs, hab, ht, herrs, hacc⟩ := h
  exact ⟨b, errs, by omega, ht, herrs, hacc.mono (by omega) (Nat.le_refl _)⟩

theorem LeavesHoles.append {missing' : List Hole} (h : LeavesHoles T a missing s t)
    (h' : ∀ b, t.tokens = T.drop b → LeavesHoles T (b + 1) missing' t.advance u) :
    LeavesHoles T a (missing ++ missing') s u := by
  obtain ⟨b, errs, hab, ht, herrs, hacc⟩ := h
  obtain ⟨c, errs', hbc, hu, herrs', hacc'⟩ := h' b ht
  rw [errors_advance, herrs, List.append_assoc] at herrs'
  exact ⟨c, errs ++ errs', by omega, hu, herrs', hacc.append hacc' (by omega) (by omega)⟩

end State

namespace Grammar

theorem Refuses.refuses (h : standard.Refuses s err) : ParseError.Refuses s.current err := by
  cases h with
  | noRule h => exact .noRule h
  | outOfRange h hv => exact .outOfRange (prefixRule?_standard_eq_integer_iff.mp h) hv

theorem Refuses.leavesHoles (h : standard.Refuses s err) (hs : s.tokens = T.drop a) {hole : Hole}
    (hole_at : hole.StandsAt T a) : State.LeavesHoles T a [hole] s (s.record err) := by
  refine ⟨a, [err], Nat.le_refl a, hs, Array.toList_push, Token.Stream.accounts_single hole_at ?_⟩
  rw [← State.current_of_tokens_eq hs]
  exact h.refuses

/-! ## Expressions -/

/-- **With every hole of an expression an error is recorded.** -/
theorem Grows.leavesHoles (h : standard.Grows p s e t) (hs : s.tokens = T.drop a) :
    State.LeavesHoles T a e.holes s t := by
  induction h generalizing a with
  | identifier => exact State.leavesHoles_refl hs
  | integer => exact State.leavesHoles_refl hs
  | unary _ _ _ ih => exact (ih (State.tokens_advance_of_tokens_eq hs)).back
  | unaryHole _ hole =>
    have hadv := State.tokens_advance_of_tokens_eq hs
    exact (hole.leavesHoles hadv (.operand (State.current_of_tokens_eq hs).symm)).back
  | binary _ _ _ _ ihl ih =>
    rw [Expr.holes_binary_some]
    refine (ihl hs).append fun b ht => State.LeavesHoles.back ?_
    exact ih (State.tokens_advance_of_tokens_eq (State.tokens_advance_of_tokens_eq ht))
  | binaryHole _ _ hole ihl =>
    rw [Expr.holes_binary_none]
    refine (ihl hs).append fun b ht => State.LeavesHoles.back ?_
    have hadv := State.tokens_advance_of_tokens_eq (State.tokens_advance_of_tokens_eq ht)
    exact hole.leavesHoles hadv (.operand (State.next_of_tokens_eq ht).symm)

/-! ## Statements -/

theorem Values.leavesHoles {v : Option Expr} (h : standard.Values config s v t)
    (hs : s.tokens = T.drop a) {hole : Hole} (hole_at : hole.StandsAt T (a + 1)) :
    State.LeavesHoles T a (v.elim (if config.values = .parse then [hole] else []) Expr.holes)
      s t := by
  have hadv := State.tokens_advance_of_tokens_eq hs
  cases h with
  | skipped hv =>
    rw [Option.elim_none, if_neg (by simp [hv])]
    exact (State.leavesHoles_refl hs).move (.skipToSemicolon s) (State.errors_advanceBy s _)
  | read hv h =>
    exact (h.1.leavesHoles hadv).back.move (.passSemicolon _) (State.errors_passSemicolon _)
  | refused hv h =>
    rw [Option.elim_none, if_pos hv]
    exact (h.leavesHoles hadv hole_at).back.move (.skipToSemicolon _) (State.errors_advanceBy _ _)

/-- **With every hole of a statement an error is recorded.** -/
theorem Performs.leavesHoles {st : Statement} (h : standard.Performs config s (some st) t)
    (hs : s.tokens = T.drop a) :
    State.LeavesHoles T a (st.holes config.values s.next) s t := by
  have hcur : s.current = T.get a := State.current_of_tokens_eq hs
  have hnext : s.next = T.get (a + 1) := State.next_of_tokens_eq hs
  cases h with
  | @letValue v t hr hn ha h =>
    have hadv := State.tokens_advance_of_tokens_eq hs
    have hsign : (T.get (a + 2)).kind = .assign := by
      rw [← State.next_of_tokens_eq hadv, ha]
    have hole : (Hole.binding s.current (.ofToken s.next)).StandsAt T (a + 3) :=
      .binding hcur.symm hnext.symm hsign
    have hval := (h.leavesHoles (State.tokens_advance_of_tokens_eq hadv) hole).back.back
    cases v <;> exact hval
  | returnNothing _ hn =>
    rw [Statement.holes, if_neg (by simp [hn])]
    exact (State.leavesHoles_refl hs).move (.advance s) rfl
  | @returnValue v t _ hn h =>
    have hval := h.leavesHoles hs (.returned hcur.symm)
    cases v with
    | none => simpa [Statement.holes, hn] using hval
    | some e => exact hval
  | expression _ h =>
    exact (h.1.leavesHoles hs).move (.passSemicolon _) (State.errors_passSemicolon _)
  | expressionHole _ h =>
    exact (h.leavesHoles hs (.bare hcur.symm)).move (.passSemicolon _)
      (State.errors_passSemicolon _)

theorem errors_recover (config : Config) (s : State) : (recover config s).errors = s.errors := by
  unfold recover
  split
  · rfl
  · exact State.errors_advanceBy s _

theorem Performs.errors_of_none (h : standard.Performs config s none t) :
    ∃ expected actual position, t.errors.toList =
      s.errors.toList ++ [⟨.unexpectedToken expected actual, position⟩] := by
  cases h with
  | letNoName =>
    exact ⟨_, _, _, by rw [errors_recover, State.errors_record, Array.toList_push]⟩
  | letNoSign =>
    exact ⟨.assign, s.advance.next.kind, s.advance.next.span.start, by
      rw [errors_recover, State.errors_record, Array.toList_push, State.errors_advance]⟩

end Grammar

/-! ## Runs -/

/-- The holes of the statement that a turn gave. -/
def Turn.holes (values : ValueMode) (turn : Turn) : List Hole :=
  turn.statement.elim [] (Statement.holes values turn.start.next)

namespace Grammar

/-- **The holes of a run are accounted for by the refusals among its errors.** -/
theorem accounts_turns (config : Config) (n : Nat) (hs : s.tokens = T.drop a) :
    ∃ b, T.Accounts a b ((standard.turns config n s).flatMap (Turn.holes config.values))
      (((standard.turns config n s).flatMap Turn.errors).filter ParseError.isRefusal) := by
  induction n generalizing a s with
  | zero => exact ⟨a, Token.Stream.accounts_nil T a a⟩
  | succ n ih =>
    by_cases hk : s.current.kind = .endOfInput
    · rw [turns, if_pos hk]
      exact ⟨a, Token.Stream.accounts_nil T a a⟩
    · obtain ⟨st, t, hst, heq, -⟩ := standard_plain.turns_succ config n hk
      rw [heq, List.flatMap_cons, List.flatMap_cons, List.filter_append]
      cases st with
      | none =>
        obtain ⟨m, hm, ht⟩ := hst.precedes.exists_tokens_advance_eq hs
        obtain ⟨expected, actual, position, herr⟩ := hst.errors_of_none
        obtain ⟨b, hacc⟩ := ih ht
        have hturn : Turn.errors ⟨s, none, t⟩ = _ := Turn.errors_eq herr
        rw [hturn]
        exact ⟨b, hacc.mono (by omega) (Nat.le_refl b)⟩
      | some st =>
        obtain ⟨b, errs, hab, ht, herrs, hacc⟩ := hst.leavesHoles (T := T) (a := a) hs
        obtain ⟨c, hacc'⟩ := ih (State.tokens_advance_of_tokens_eq ht)
        have hturn : Turn.errors ⟨s, some st, t⟩ = errs := Turn.errors_eq herrs
        rw [hturn, List.filter_eq_self.mpr hacc.isRefusal]
        refine ⟨max (b + 1) c, hacc.append (hacc'.mono (Nat.le_refl _) ?_) (by omega) ?_⟩
        · exact Nat.le_max_right _ _
        · exact Nat.le_max_left _ _

end Grammar

/-- **Every hole in a program has one error, and every other error a statement that failed.** -/
theorem exists_places_holes (config : Config) (source : Source) :
    ((parse config source).1.statements = (parseTurns config source).filterMap Turn.statement ∧
      (parse config source).2.errors.toList = (parseTurns config source).flatMap Turn.errors ∧
      ∀ turn ∈ parseTurns config source,
        (∃ a, turn.start.tokens = (Token.Stream.ofSource source).drop a) ∧
        ∀ st ∈ turn.statement, st.token = turn.start.current) ∧
    (∃ places : List Nat, places.Pairwise (· < ·) ∧
      List.Forall₂ (Hole.StandsAt (.ofSource source))
        ((parseTurns config source).flatMap (Turn.holes config.values)) places ∧
      List.Forall₂ (fun i e => ParseError.Refuses ((Token.Stream.ofSource source).get i) e) places
        ((parse config source).2.errors.toList.filter ParseError.isRefusal)) ∧
    ∀ turn ∈ parseTurns config source,
      (turn.statement = none → ∃ expected actual position,
        turn.errors = [⟨.unexpectedToken expected actual, position⟩]) ∧
      (turn.statement ≠ none → ∀ e ∈ turn.errors, e.isRefusal = true) := by
  have hstart : (Token.Stream.ofSource source).begin.tokens =
      (Token.Stream.ofSource source).drop 0 := rfl
  refine ⟨⟨statements_parse_eq config source, errors_parse_eq config source, ?_⟩, ?_, ?_⟩
  · refine Grammar.standard_plain.forall_mem_turns config
      (Q := fun s => ∃ a, s.tokens = (Token.Stream.ofSource source).drop a) ?_ _ ⟨0, hstart⟩
    rintro s st t ⟨a, hs⟩ - hst
    obtain ⟨m, -, hm⟩ := hst.precedes.exists_tokens_advance_eq hs
    refine ⟨⟨⟨a, hs⟩, fun st' h => ?_⟩, m, hm⟩
    cases h
    cases hst <;> rfl
  · obtain ⟨b, places, hlt, -, hholes, herrs⟩ :=
      Grammar.accounts_turns config (Token.Stream.ofSource source).ahead.length hstart
    rw [errors_parse_eq]
    exact ⟨places, hlt, hholes, herrs⟩
  · refine Grammar.standard_plain.forall_mem_turns config (Q := fun _ => True) ?_ _ trivial
    rintro s st t - - hst
    refine ⟨⟨?_, ?_⟩, trivial⟩
    · rintro rfl
      obtain ⟨expected, actual, position, herr⟩ := hst.errors_of_none
      exact ⟨expected, actual, position, Turn.errors_eq herr⟩
    · intro hne
      obtain ⟨st, rfl⟩ := Option.ne_none_iff_exists'.mp hne
      obtain ⟨b, errs, -, -, herrs, hacc⟩ := hst.leavesHoles (T := s.tokens) (a := 0) rfl
      have hturn : Turn.errors ⟨s, some st, t⟩ = errs := Turn.errors_eq herrs
      rw [hturn]
      exact hacc.isRefusal

end PrattFrontend
