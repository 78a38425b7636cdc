import PrattFrontend.Proofs.Language.Acceptance
import PrattFrontend.Proofs.Statement.Holes
import PrattFrontend.Proofs.Statement.Places
import PrattFrontend.Proofs.Token.Offsets

/-!
# The tokens of a program

A program holds tokens of its source, in the order of the source and none of them twice, and each
node says what its token says. What a program that was read in full and without an error does not
hold is settled: the sign of each binding and a semicolon behind some statements.

* `Grammar.Performs.tokens_sublist`, `Grammar.tokens_statements_sublist`: a statement and a run;
* `Statement.Spelled`, `Statement.Begins`: what a statement says about its tokens;
* `Statement.Spans`, `Statement.Cover`: statements with the tokens that they do not hold;
* **`tokens_parse_sublist`**: sources.
-/

namespace PrattFrontend

open Grammar (standard)
open PrattFrontend.Language (Closing)

variable {config : Config} {p : Power} {s t : State} {e : Expr} {st : Statement}

/-- The tokens that a program holds, statement by statement. -/
def Program.tokens (p : Program) : List Token :=
  p.statements.flatMap Statement.tokens

/-! ## Tokens in order -/

theorem Statement.tokens_sublist_cells (st : Statement) :
    st.tokens.Sublist st.cells.reduceOption := by
  have hvalue : ∀ v : Option Expr, (valueCells v).reduceOption = (v.map Expr.tokens).getD [] := by
    rintro (_ | e)
    · rfl
    · exact e.reduceOption_cells
  cases st with
  | letValue t name v =>
    simp only [tokens, cells, List.reduceOption_cons_of_some, List.reduceOption_cons_of_none,
      hvalue]
    exact .refl _
  | returnValue t v =>
    simp only [tokens, cells, List.reduceOption_cons_of_some, hvalue]
    exact .refl _
  | expression t v =>
    cases v with
    | none => exact List.nil_sublist _
    | some e =>
      rw [cells, e.reduceOption_cells]
      exact .refl _

namespace Grammar

theorem Values.exists_drop {v : Option Expr} (h : standard.Values config s v t) :
    ∃ m, t.tokens = s.tokens.drop m ∧ (Statement.valueCells v).length ≤ m := by
  cases h with
  | skipped =>
    obtain ⟨m, hm⟩ := (State.Precedes.skipToSemicolon s).tokens
    exact ⟨m, hm, Nat.zero_le m⟩
  | @read e t _ h =>
    obtain ⟨m, hm⟩ := (State.Precedes.passSemicolon t).tokens
    have ht := (h.1.carries (T := s.tokens) (a := 1) rfl).2
    refine ⟨1 + (e.cells.length - 1) + m, by rw [hm, ht, Token.Stream.drop_drop], ?_⟩
    simp only [Statement.valueCells, Option.map_some, Option.getD_some]
    omega
  | @refused err _ _ =>
    obtain ⟨m, hm⟩ := (State.Precedes.skipToSemicolon (s.advance.record err)).tokens
    refine ⟨1 + m, ?_, Nat.zero_le _⟩
    rw [hm, State.tokens_record, State.tokens_advance, Token.Stream.drop_drop]

theorem Performs.exists_drop (h : standard.Performs config s (some st) t) :
    ∃ m, t.tokens = s.tokens.drop m ∧ st.cells.length ≤ m + 1 := by
  cases h with
  | letValue _ _ _ h =>
    obtain ⟨m, hm, hle⟩ := h.exists_drop
    refine ⟨1 + (1 + m), ?_, ?_⟩
    · rw [hm, State.tokens_advance, State.tokens_advance, Token.Stream.drop_drop,
        Token.Stream.drop_drop]
    · simp only [Statement.cells, List.length_cons]
      omega
  | returnNothing => exact ⟨1, rfl, by simp [Statement.cells, Statement.valueCells]⟩
  | returnValue _ _ h =>
    obtain ⟨m, hm, hle⟩ := h.exists_drop
    exact ⟨m, hm, by simpa [Statement.cells] using hle⟩
  | @expression e t _ h =>
    obtain ⟨m, hm⟩ := (State.Precedes.passSemicolon t).tokens
    have ht := (h.1.carries (T := s.tokens) (a := 0) (Token.Stream.drop_zero _).symm).2
    refine ⟨e.cells.length - 1 + m, by rw [hm, ht, Token.Stream.drop_drop, Nat.zero_add], ?_⟩
    rw [Statement.cells]
    omega
  | @expressionHole err _ _ =>
    obtain ⟨m, hm⟩ := (State.Precedes.passSemicolon (s.record err)).tokens
    exact ⟨m, hm, by simp [Statement.cells]⟩

end Grammar

/-! ## What a statement says about its tokens -/

/-- **Every node of a statement says what its token says.** -/
def Statement.Spelled (st : Statement) : Prop :=
  (∀ e ∈ st.value, e.Spelled) ∧
    match st with
    | letValue t name _ =>
      t.kind = .letWord ∧ name.token.kind = .identifier ∧ name.name = name.token.literal
    | returnValue t _ => t.kind = .returnWord
    | expression _ _ => True

/-- A bare expression that is there starts with the token that its statement is named for. -/
def Statement.Begins : Statement → Prop
  | letValue _ _ _ => True
  | returnValue _ _ => True
  | expression t v => ∀ e ∈ v, e.tokens.head? = some t

namespace Grammar

theorem Values.spelled {v : Option Expr} (h : standard.Values config s v t) :
    ∀ e ∈ v, e.Spelled := by
  intro e he
  obtain ⟨s', t', -, hread⟩ := h.reads (T := s.tokens) (a := 0) (Token.Stream.drop_zero _).symm e he
  exact hread.1.spelled

theorem Performs.spelled (h : standard.Performs config s (some st) t) : st.Spelled := by
  cases h with
  | letValue hr hn _ h =>
    exact ⟨h.spelled, ruleForStatement_standard_eq_let_iff.mp hr, hn, rfl⟩
  | returnNothing hr =>
    exact ⟨by simp [Statement.value], ruleForStatement_standard_eq_return_iff.mp hr⟩
  | returnValue hr _ h => exact ⟨h.spelled, ruleForStatement_standard_eq_return_iff.mp hr⟩
  | expression _ h =>
    refine ⟨?_, trivial⟩
    rintro _ ⟨⟩
    exact h.1.spelled
  | expressionHole => exact ⟨by simp [Statement.value], trivial⟩

theorem Grows.head?_tokens (h : standard.Grows p s e t) : e.tokens.head? = some s.current := by
  have hcar := (h.carries (T := s.tokens) (a := 0) (Token.Stream.drop_zero _).symm).1
  obtain ⟨x, cs, hx⟩ := e.exists_cells_eq_cons
  have hget : s.tokens.get 0 = x := hcar 0 x (by rw [hx, List.getElem?_cons_zero])
  rw [← Expr.reduceOption_cells, hx, List.reduceOption_cons_of_some, List.head?_cons, ← hget]
  rfl

theorem Performs.begins (h : standard.Performs config s (some st) t) : st.Begins := by
  cases h with
  | letValue => exact trivial
  | returnNothing => exact trivial
  | returnValue => exact trivial
  | expression _ h =>
    rintro _ ⟨⟩
    exact h.1.head?_tokens
  | expressionHole => simp [Statement.Begins]

theorem Performs.refuses_of_expression_none {x : Token}
    (h : standard.Performs config s (some (.expression x none)) t) :
    x = s.current ∧ ∃ err, t.errors.toList = s.errors.toList ++ [err] ∧
      ParseError.Refuses x err := by
  cases h with
  | expressionHole _ h =>
    refine ⟨rfl, _, ?_, h.refuses⟩
    rw [State.errors_passSemicolon, State.errors_record, Array.toList_push]

theorem Performs.kind_ne_endOfInput (h : standard.Performs config s (some st) t) :
    ∀ x ∈ st.tokens, x.kind ≠ .endOfInput := by
  obtain ⟨hvalue, hst⟩ := h.spelled
  have hv : ∀ x ∈ (st.value.map Expr.tokens).getD [], x.kind ≠ .endOfInput := by
    intro x hx
    cases hval : st.value with
    | none => simp [hval] at hx
    | some e =>
      rw [hval, Option.map_some, Option.getD_some] at hx
      rintro hk
      have hrule := (hvalue e hval).prefixRule_or_power hx
      simp [hk, standard, standardPrefixRule?, standardPower?] at hrule
  intro x hx
  cases st with
  | letValue w name v =>
    rcases List.mem_cons.mp hx with rfl | hx
    · simp [hst.1]
    · rcases List.mem_cons.mp hx with rfl | hx
      · simp [hst.2.1]
      · exact hv x hx
  | returnValue w v =>
    rcases List.mem_cons.mp hx with rfl | hx
    · have hk : x.kind = .returnWord := hst
      simp [hk]
    · exact hv x hx
  | expression w v => exact hv x hx

/-- **The tokens that a statement holds are among those that are passed with it.** -/
theorem Performs.tokens_sublist (h : standard.Performs config s (some st) t)
    (hk : s.current.kind ≠ .endOfInput) :
    ∃ m, t.tokens = s.tokens.drop m ∧ st.tokens.Sublist (s.tokens.ahead.take (m + 1)) := by
  obtain ⟨m, hm, hle⟩ := h.exists_drop
  obtain ⟨hcar, hmem⟩ := h.liesAt (T := s.tokens) (a := 0) (Token.Stream.drop_zero _).symm
  have hsub := hcar.reduceOption_sublist fun x hx => by
    rcases (hmem x).mp hx with rfl | hx
    · rwa [h.token_eq]
    · exact h.kind_ne_endOfInput x hx
  rw [List.drop_zero] at hsub
  exact ⟨m, hm, st.tokens_sublist_cells.trans (hsub.trans (List.take_sublist_take_left hle))⟩

/-- **The tokens of a run over statements are among those of its input.** -/
theorem tokens_statements_sublist (config : Config) (n : Nat) (s : State) :
    ((standard.statements config n s).1.flatMap Statement.tokens).Sublist s.tokens.ahead := by
  induction n generalizing s with
  | zero => exact List.nil_sublist _
  | succ n ih =>
    by_cases hk : s.current.kind = .endOfInput
    · rw [statements, if_pos hk]
      exact List.nil_sublist _
    · obtain ⟨st, t, hst, heq⟩ := standard_plain.statements_succ config n hk
      have hrest := ih t.advance
      rw [heq]
      cases st with
      | none =>
        obtain ⟨m, hm⟩ := hst.precedes.tokens
        rw [State.tokens_advance, hm, State.tokens_note, Token.Stream.drop_drop,
          Token.Stream.ahead_drop] at hrest
        exact hrest.trans (List.drop_sublist _ _)
      | some st =>
        obtain ⟨m, hm, hsub⟩ := hst.tokens_sublist hk
        rw [State.tokens_advance, hm, State.tokens_note, Token.Stream.drop_drop,
          Token.Stream.ahead_drop] at hrest
        rw [Option.toList_some, List.singleton_append, List.flatMap_cons,
          ← List.take_append_drop (m + 1) s.tokens.ahead]
        exact hsub.append hrest

end Grammar

/-! ## The tokens that are left out -/

/-- A statement **spans** its tokens and, if it is a binding, the sign behind the name. -/
inductive Statement.Spans : Statement → List Token → Prop
  | letValue {t name v a} (ha : a.kind = .assign) :
      Spans (.letValue t name v) (t :: name.token :: a :: (v.map Expr.tokens).getD [])
  | returnValue {t v} : Spans (.returnValue t v) (t :: (v.map Expr.tokens).getD [])
  | expression {t v} : Spans (.expression t v) ((v.map Expr.tokens).getD [])

/-- Statements **cover** what they span one behind another, each with a semicolon behind it or
without one. -/
inductive Statement.Cover : List Statement → List Token → Prop
  | nil : Cover [] []
  | cons {st ts cs sts us} (h : st.Spans ts) (hc : Closing cs) (h' : Cover sts us) :
      Cover (st :: sts) (ts ++ cs ++ us)

namespace Grammar

theorem Reads.exists_closing (h : standard.Reads .lowest s e t) (he : t.errors = s.errors) :
    ∃ cs, Closing cs ∧
      s.tokens.ahead = e.tokens ++ (cs ++ t.passSemicolon.advance.tokens.ahead) := by
  rw [h.1.ahead_eq (h.1.canonical he).1]
  unfold State.passSemicolon
  by_cases hk : t.next.kind = .semicolon
  · rw [if_pos hk, State.ahead_advance_eq_cons (by simp [hk])]
    exact ⟨[t.next], .semicolon hk, rfl⟩
  · rw [if_neg hk]
    exact ⟨[], .none, rfl⟩

theorem Values.exists_closing {v : Option Expr} (h : standard.Values config s v t)
    (hv : config.values = .parse) (he : t.errors = s.errors) :
    ∃ cs, Closing cs ∧ s.advance.tokens.ahead =
      (v.map Expr.tokens).getD [] ++ (cs ++ t.advance.tokens.ahead) := by
  cases h with
  | skipped hv' => simp [hv] at hv'
  | read _ h =>
    rw [State.errors_passSemicolon] at he
    exact h.exists_closing he
  | refused =>
    exact absurd he ((State.Precedes.advance s).errors_ne_of_record (.skipToSemicolon _))

/-- **A statement without an error spans all tokens that are passed with it.** -/
theorem Performs.exists_spans (h : standard.Performs config s (some st) t)
    (hv : config.values = .parse) (he : t.errors = s.errors) (hk : s.current.kind ≠ .endOfInput) :
    ∃ ts cs, st.Spans ts ∧ Closing cs ∧ s.tokens.ahead = ts ++ (cs ++ t.advance.tokens.ahead) := by
  cases h with
  | letValue _ hn ha h =>
    obtain ⟨cs, hc, heq⟩ := h.exists_closing hv he
    refine ⟨_, cs, .letValue ha, hc, ?_⟩
    rw [State.ahead_eq_cons hk, State.ahead_advance_eq_cons (by simp [hn]),
      State.ahead_advance_eq_cons (by simp [ha]), heq]
    rfl
  | returnNothing _ hn =>
    refine ⟨_, [s.next], .returnValue, .semicolon hn, ?_⟩
    rw [State.ahead_eq_cons hk, State.ahead_advance_eq_cons (by simp [hn])]
    rfl
  | returnValue _ _ h =>
    obtain ⟨cs, hc, heq⟩ := h.exists_closing hv he
    refine ⟨_, cs, .returnValue, hc, ?_⟩
    rw [State.ahead_eq_cons hk, heq]
    rfl
  | expression _ h =>
    rw [State.errors_passSemicolon] at he
    obtain ⟨cs, hc, heq⟩ := h.exists_closing he
    exact ⟨_, cs, .expression, hc, heq⟩
  | expressionHole =>
    exact absurd he ((State.Precedes.refl s).errors_ne_of_record (.passSemicolon _))

/-- **The statements of a run in full and without an error cover its input.** -/
theorem cover_statements (hv : config.values = .parse) {n : Nat} (hn : s.tokensLeft ≤ n)
    (hs : s.Lexed) (he : (standard.statements config n s).2.errors = s.errors) :
    Statement.Cover (standard.statements config n s).1 s.tokens.ahead := by
  induction n generalizing s with
  | zero =>
    rw [List.eq_nil_of_length_eq_zero (Nat.le_zero.mp hn)]
    exact .nil
  | succ n ih =>
    by_cases hk : s.current.kind = .endOfInput
    · rw [statements, if_pos hk, State.ahead_eq_nil hs hk]
      exact .nil
    · obtain ⟨st, t, hst, heq⟩ := standard_plain.statements_succ config n hk
      have hprec : s.Precedes t := (State.Precedes.note s _).trans hst.precedes
      have hrest : t.Precedes (standard.statements config n t.advance).2 :=
        (State.Precedes.advance t).trans (standard_plain.statements_precedes config n _)
      have hle := hprec.tokensLeft_le
      have hpos := State.tokensLeft_pos hk
      rw [heq] at he ⊢
      have hcover := ih (s := t.advance) (by rw [State.tokensLeft_advance]; omega)
        ((hprec.trans (.advance t)).lexed hs) (hprec.errors_eq_right hrest he)
      cases st with
      | none =>
        obtain ⟨expected, actual, position, herr⟩ := hst.errors_of_none
        have := congrArg Array.toList (hprec.errors_eq_left hrest he)
        rw [herr] at this
        simp at this
      | some st =>
        obtain ⟨ts, cs, hts, hcs, hahead⟩ := hst.exists_spans hv (hprec.errors_eq_left hrest he) hk
        rw [State.tokens_note] at hahead
        rw [hahead, ← List.append_assoc]
        exact .cons hts hcs hcover

end Grammar

/-! ## Sources -/

theorem spelled_of_mem_parseTurns (config : Config) (source : Source) :
    ∀ turn ∈ parseTurns config source, ∀ st ∈ turn.statement, st.Spelled ∧ st.Begins ∧
      ∀ t, st = .expression t none →
        t ∈ tokenize source ∧ ∃ e ∈ turn.errors, ParseError.Refuses t e := by
  set s := (Token.Stream.ofSource source).begin
  refine Grammar.standard_plain.forall_mem_turns config (Q := fun u => s.Precedes u) ?_ _ (.refl s)
  rintro u st t hu hk hst
  refine ⟨?_, ((hu.trans (.note u _)).trans hst.precedes).trans (.advance t)⟩
  rintro st ⟨⟩
  refine ⟨hst.spelled, hst.begins, ?_⟩
  rintro x rfl
  obtain ⟨rfl, err, herr, href⟩ := hst.refuses_of_expression_none
  obtain ⟨n, hn⟩ := hu.tokens
  have hmem : u.current ∈ s.tokens.ahead := by
    refine List.mem_of_mem_drop (i := n) ?_
    rw [← Token.Stream.ahead_drop, ← hn, State.ahead_eq_cons hk]
    exact List.mem_cons_self
  refine ⟨List.mem_append_left _ hmem, err, ?_, href⟩
  have hturn : ∀ st, Turn.errors ⟨u, st, t⟩ = [err] := fun _ => Turn.errors_eq herr
  rw [hturn]
  exact List.mem_singleton.mpr rfl

/-- **The tokens of a program are accounted for.** -/
theorem tokens_parse_sublist (config : Config) (source : Source)
    (h : Text.byteLength source.text.toList ≤ Position.maxOffset) :
    ((parse config source).1.tokens.Sublist (tokenize source) ∧
      (parse config source).1.tokens.Pairwise Token.StartsBefore) ∧
    (∀ st ∈ (parse config source).1.statements, st.Spelled ∧ st.Begins ∧
      ∀ t, st = .expression t none →
        t ∈ tokenize source ∧ ∃ e ∈ (parse config source).2.errors, ParseError.Refuses t e) ∧
    (config.values = .parse → (parse config source).2.errors = #[] →
      ∃ ts stop, Statement.Cover (parse config source).1.statements ts ∧
        tokenize source = ts ++ [Token.endAt stop]) := by
  have hsub : (parse config source).1.tokens.Sublist (Token.Stream.ofSource source).ahead :=
    Grammar.tokens_statements_sublist config _ _
  refine ⟨⟨hsub.trans (List.sublist_append_left _ _),
    (Token.Stream.pairwise_ofSource h).sublist hsub⟩, fun st hst => ?_, fun hv he => ?_⟩
  · rw [statements_parse_eq] at hst
    obtain ⟨turn, hturn, heq⟩ := List.mem_filterMap.mp hst
    obtain ⟨hspelled, hbegins, hhole⟩ := spelled_of_mem_parseTurns config source turn hturn st heq
    refine ⟨hspelled, hbegins, fun t ht => ?_⟩
    obtain ⟨hmem, e, he, href⟩ := hhole t ht
    refine ⟨hmem, e, Array.mem_toList_iff.mp ?_, href⟩
    rw [errors_parse_eq]
    exact List.mem_flatMap.mpr ⟨turn, hturn, he⟩
  · have hlexed : (Token.Stream.ofSource source).begin.Lexed :=
      fun x hx => Token.Stream.lexed_of_mem_ofSource hx
    exact ⟨_, _, Grammar.cover_statements hv (Nat.le_refl _) hlexed he, rfl⟩

/-- A source with statements of all three sorts, one of them without a semicolon behind it. -/
def coveredSource : Source :=
  .ofText "let a = 007;\nreturn -a\n1 + a;" none

theorem cover_coveredSource :
    (Text.byteLength coveredSource.text.toList ≤ Position.maxOffset ∧
      (parse ⟨.parse, .advance⟩ coveredSource).2.errors = #[]) ∧
    (parse ⟨.parse, .advance⟩ coveredSource).1.tokens.Sublist (tokenize coveredSource) ∧
    ∃ ts stop, Statement.Cover (parse ⟨.parse, .advance⟩ coveredSource).1.statements ts ∧
      tokenize coveredSource = ts ++ [Token.endAt stop] := by
  have hlen : Text.byteLength coveredSource.text.toList ≤ Position.maxOffset := by decide +kernel
  have he : (parse ⟨.parse, .advance⟩ coveredSource).2.errors = #[] := by decide +kernel
  obtain ⟨⟨hsub, -⟩, -, hcover⟩ := tokens_parse_sublist ⟨.parse, .advance⟩ coveredSource hlen
  exact ⟨⟨hlen, he⟩, hsub, hcover rfl he⟩

end PrattFrontend
