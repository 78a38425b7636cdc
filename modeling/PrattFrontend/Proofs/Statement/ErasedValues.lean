import PrattFrontend.Proofs.Language.Acceptance
import PrattFrontend.Proofs.Statement.Simulation
import PrattFrontend.Proofs.Statement.Turns

/-!
# Values passed over

To pass over the values of bindings and returns is to read them and to leave them out, as long as
there is nothing wrong with them and a semicolon or the end of the input shows where they end.

* `Statement.withoutValue`, **`Program.withoutValues`**: values of bindings and returns left out;
* `State.Alike`: two parsers with the same tokens before them and the same errors behind them;
* `Grammar.Values.tokens_advance`: a value that is read ends where one that is passed over does;
* `Grammar.Performs.withoutValue`, `Grammar.statements_withoutValue`: statements and runs;
* **`parse_skip_eq_withoutValues`**: sources.
-/

namespace PrattFrontend

open Grammar (standard)

variable {config config' : Config} {s s' t : State} {st : Option Statement}

/-! ## Values left out -/

/-- A statement without the value that it binds or returns. A bare expression stays as it is. -/
def Statement.withoutValue : Statement → Statement
  | letValue t name _ => letValue t name none
  | returnValue t _ => returnValue t none
  | expression t v => expression t v

/-- **A program without the values of its bindings and returns.** -/
def Program.withoutValues (p : Program) : Program :=
  ⟨p.statements.map Statement.withoutValue⟩

/-- Whether a statement is a bare expression. The others are bindings and returns. -/
def Statement.isBare (st : Statement) : Bool :=
  st matches expression _ _

/-- A parser **has ended** a statement if it stands at a semicolon or at the last token of the
input. -/
def State.HasEnded (s : State) : Prop :=
  s.current.kind = .semicolon ∨ s.next.kind = .endOfInput

instance : DecidablePred State.HasEnded := fun s =>
  inferInstanceAs (Decidable (s.current.kind = .semicolon ∨ s.next.kind = .endOfInput))

/-- **A turn closes** what it gave if that is a bare expression, or a binding or a return that ends
with a semicolon or with the input. -/
def Turn.Closes (turn : Turn) : Prop :=
  ∀ st ∈ turn.statement, st.isBare = false → turn.stop.HasEnded

instance : DecidablePred Turn.Closes := fun turn =>
  inferInstanceAs (Decidable (∀ st ∈ turn.statement, st.isBare = false → turn.stop.HasEnded))

/-! ## Two parsers -/

/-- Two parsers are **alike** if the same tokens are ahead of them and they have recorded the same
errors. -/
structure State.Alike (s s' : State) : Prop where
  tokens : s'.tokens = s.tokens
  errors : s'.errors = s.errors

namespace State.Alike

theorem current (h : s.Alike s') : s'.current = s.current := by
  rw [State.current, h.tokens, State.current]

theorem next (h : s.Alike s') : s'.next = s.next := by
  rw [State.next, h.tokens, State.next]

theorem advance (h : s.Alike s') : s.advance.Alike s'.advance :=
  ⟨congrArg (Token.Stream.drop · 1) h.tokens, h.errors⟩

theorem skipToSemicolon (h : s.Alike s') : s.skipToSemicolon.Alike s'.skipToSemicolon := by
  have hdistance : s'.distanceToSemicolon = s.distanceToSemicolon := by
    rw [distanceToSemicolon, h.tokens, distanceToSemicolon]
  constructor
  · rw [State.skipToSemicolon, State.skipToSemicolon, tokens_advanceBy, tokens_advanceBy, h.tokens,
      hdistance]
  · rw [State.skipToSemicolon, State.skipToSemicolon, errors_advanceBy, errors_advanceBy, h.errors]

theorem simulation : Simulation id Alike where
  note _ _ h := ⟨h.tokens, h.errors⟩
  record e h := ⟨h.tokens, congrArg (Array.push · e) h.errors⟩
  skipToSemicolon := skipToSemicolon
  current := current
  next h _ := h.next
  advance h _ := h.advance

end State.Alike

namespace Grammar

/-! ## Values -/

theorem Grows.kind_ne_semicolon {p : Power} {e : Expr} (h : standard.Grows p s e t) :
    ∀ x ∈ e.tokens, x.kind ≠ .semicolon := by
  intro x hx hk
  have hrule := h.spelled.prefixRule_or_power hx
  simp [hk, standard, standardPrefixRule?, standardPower?] at hrule

theorem Reads.ahead_eq_dropWhile {e : Expr} (h : standard.Reads .lowest s e t)
    (he : t.errors = s.errors) (hs : s.Lexed) (hend : t.passSemicolon.HasEnded) :
    t.passSemicolon.advance.tokens.ahead =
      (s.tokens.ahead.dropWhile fun x => x.kind ≠ .semicolon).tail := by
  have hahead := h.1.ahead_eq (h.1.canonical he).1
  rw [hahead, List.dropWhile_append_of_pos fun x hx => by simpa using h.1.kind_ne_semicolon x hx]
  unfold State.passSemicolon at hend ⊢
  by_cases hk : t.next.kind = .semicolon
  · rw [if_pos hk, State.ahead_advance_eq_cons (s := t) (by simp [hk]),
      List.dropWhile_cons_of_neg (by simpa using hk), List.tail_cons]
  · -- without a semicolon behind it, the expression is the last of the input
    rw [if_neg hk] at hend ⊢
    have hnext : t.advance.current.kind = .endOfInput := by
      rw [State.current_advance]
      exact hend.resolve_left (h.1.kind_current_ne he)
    rw [State.ahead_eq_nil ((h.1.precedes.trans (.advance t)).lexed hs) hnext]
    rfl

/-- **A value that is read ends where one that is passed over does.** -/
theorem Values.tokens_advance {v : Option Expr} (h : standard.Values config s v t)
    (hv : config.values = .parse) (he : t.errors = s.errors) (hs : s.Lexed)
    (hk : s.current.kind ≠ .semicolon) (hk' : s.current.kind ≠ .endOfInput) (hend : t.HasEnded) :
    s.skipToSemicolon.advance.tokens = t.advance.tokens := by
  cases h with
  | skipped hv' => simp [hv] at hv'
  | refused =>
    exact absurd he ((State.Precedes.advance s).errors_ne_of_record (.skipToSemicolon _))
  | @read e t _ h =>
    rw [State.errors_passSemicolon] at he
    have hahead := h.ahead_eq_dropWhile he ((State.Precedes.advance s).lexed hs) hend
    rw [← State.ahead_advance_skipToSemicolon hs hk hk'] at hahead
    obtain ⟨m, hm⟩ := ((State.Precedes.skipToSemicolon s).trans (.advance _)).tokens
    obtain ⟨n, hn⟩ := (((State.Precedes.advance s).trans h.1.precedes).trans
      ((State.Precedes.passSemicolon t).trans (.advance _))).tokens
    rw [hm, hn] at hahead ⊢
    exact Token.Stream.drop_eq_drop (congrArg List.length hahead.symm)

/-! ## Statements and runs -/

theorem Values.withoutValue {v : Option Expr} (h : standard.Values config s v t)
    (hv : config.values = .parse) (hv' : config'.values = .skip) (he : t.errors = s.errors)
    (hs : s.Lexed) (hk : s.current.kind ≠ .semicolon) (hk' : s.current.kind ≠ .endOfInput)
    (hend : t.HasEnded) (hss : s.Alike s') :
    ∃ t', standard.Values config' s' none t' ∧ t.advance.Alike t'.advance := by
  have hskip := hss.skipToSemicolon.advance
  refine ⟨_, .skipped hv', ⟨hskip.tokens.trans (h.tokens_advance hv he hs hk hk' hend), ?_⟩⟩
  rw [State.errors_advance, State.errors_advance, he, ← hss.errors]
  exact State.errors_advanceBy s' _

/-- **A statement that is closed** comes to the same without its value. -/
theorem Performs.withoutValue (h : standard.Performs config s st t) (hv : config.values = .parse)
    (hv' : config'.values = .skip) (he : t.errors = s.errors) (hs : s.Lexed)
    (hend : ∀ x ∈ st, x.isBare = false → t.HasEnded) (hss : s.Alike s') :
    ∃ t', standard.Performs config' s' (st.map Statement.withoutValue) t' ∧
      t.advance.Alike t'.advance := by
  have hcur := hss.current
  have hnext := hss.next
  cases h with
  | letNoName =>
    exact absurd he ((State.Precedes.refl s).errors_ne_of_record (recover_precedes _ _))
  | letNoSign =>
    exact absurd he ((State.Precedes.advance s).errors_ne_of_record (recover_precedes _ _))
  | letValue hr hn ha h =>
    obtain ⟨t', hvalue, ht⟩ := h.withoutValue hv hv' he
      ((State.Precedes.advance _).lexed ((State.Precedes.advance s).lexed hs)) (by simp [ha])
      (by simp [ha]) (hend _ rfl rfl) hss.advance.advance
    have hst := Performs.letValue (s := s') (by rwa [hcur]) (by rwa [hnext])
      (by rwa [hss.advance.next]) hvalue
    rw [hcur, hnext] at hst
    exact ⟨t', hst, ht⟩
  | returnNothing hr hn =>
    have hst : standard.Performs config' s' _ _ :=
      .returnNothing (by rwa [hcur]) (by rwa [hnext])
    rw [hcur] at hst
    exact ⟨_, hst, hss.advance.advance⟩
  | returnValue hr hn h =>
    have hkind := ruleForStatement_standard_eq_return_iff.mp hr
    obtain ⟨t', hvalue, ht⟩ := h.withoutValue hv hv' he hs (by simp [hkind]) (by simp [hkind])
      (hend _ rfl rfl) hss
    have hst := Performs.returnValue (s := s') (by rwa [hcur]) (by rwa [hnext]) hvalue
    rw [hcur] at hst
    exact ⟨t', hst, ht⟩
  | @expression e t hr h =>
    rw [State.errors_passSemicolon] at he
    obtain ⟨t', hread, ht⟩ := h.simulated State.Alike.simulation hss (.inr he)
    have hst : standard.Performs config' s' _ _ := .expression (by rwa [hcur]) hread
    rw [hcur, Token.relocate_id, Expr.mapTokens_id] at hst
    exact ⟨_, hst, ht.advance⟩
  | expressionHole =>
    exact absurd he ((State.Precedes.refl s).errors_ne_of_record (.passSemicolon _))

/-- **A run that closes what it gives** comes to the same without values. -/
theorem statements_withoutValue (config config' : Config) (hv : config.values = .parse)
    (hv' : config'.values = .skip) (n : Nat) (hs : s.Lexed)
    (he : (standard.statements config n s).2.errors = s.errors)
    (hend : ∀ turn ∈ standard.turns config n s, turn.Closes) (hss : s.Alike s') :
    (standard.statements config' n s').1 =
        (standard.statements config n s).1.map Statement.withoutValue ∧
      (standard.statements config n s).2.Alike (standard.statements config' n s').2 := by
  induction n generalizing s s' with
  | zero => exact ⟨rfl, hss⟩
  | succ n ih =>
    by_cases hk : s.current.kind = .endOfInput
    · rw [statements_of_endOfInput config hk,
        statements_of_endOfInput config' (by rwa [hss.current])]
      exact ⟨rfl, hss⟩
    · have hk' : s'.current.kind ≠ .endOfInput := by rwa [hss.current]
      obtain ⟨⟨st, t⟩, hst⟩ : ∃ o, standard.statement config s = o := ⟨_, rfl⟩
      simp only [statements, turns, if_neg hk, if_neg hk', hst] at he hend ⊢
      obtain ⟨hcloses, hrest⟩ := List.forall_mem_cons.mp hend
      replace hst := standard_plain.statement_eq_iff.mp hst
      have hprec : s.Precedes t := (State.Precedes.note s _).trans hst.precedes
      have hprec' : t.Precedes (standard.statements config n t.advance).2 :=
        (State.Precedes.advance t).trans (standard_plain.statements_precedes config n _)
      have hnote : (s.note (.statement s.current.kind)).Alike
          (s'.note (.statement s'.current.kind)) := ⟨hss.tokens, hss.errors⟩
      obtain ⟨t', hst', ht⟩ := hst.withoutValue hv hv' (hprec.errors_eq_left hprec' he) hs hcloses
        hnote
      obtain ⟨hprogram, hstate⟩ := ih ((hprec.trans (.advance t)).lexed hs)
        (hprec.errors_eq_right hprec' he) hrest ht
      rw [standard_plain.statement_eq_of_performs hst']
      refine ⟨?_, hstate⟩
      rw [hprogram, List.map_append]
      cases st <;> rfl

end Grammar

/-! ## Sources -/

/-- **To pass values over is to read them and leave them out.** -/
theorem parse_skip_eq_withoutValues (recovery : Recovery) (source : Source)
    (he : (parse ⟨.parse, recovery⟩ source).2.errors = #[])
    (hend : ∀ turn ∈ parseTurns ⟨.parse, recovery⟩ source, turn.Closes) :
    (parse ⟨.skip, recovery⟩ source).2.errors = #[] ∧
      (parse ⟨.skip, recovery⟩ source).1 = (parse ⟨.parse, recovery⟩ source).1.withoutValues := by
  obtain ⟨hprogram, hstate⟩ := Grammar.statements_withoutValue ⟨.parse, recovery⟩
    ⟨.skip, recovery⟩ rfl rfl (Token.Stream.ofSource source).ahead.length
    (s := (Token.Stream.ofSource source).begin)
    (fun x hx => Token.Stream.lexed_of_mem_ofSource hx) he hend ⟨rfl, rfl⟩
  exact ⟨hstate.errors.trans he, congrArg Program.mk hprogram⟩

/-- A source with values before a semicolon and before the end of the input, a return without a
value, and bare expressions in between. -/
def closedSource : Source :=
  .ofText "let a = 1 + b * 2; -a b; return; c == d return !a" none

theorem parse_skip_closedSource :
    ((parse ⟨.parse, .advance⟩ closedSource).2.errors = #[] ∧
        ∀ turn ∈ parseTurns ⟨.parse, .advance⟩ closedSource, turn.Closes) ∧
      (parse ⟨.skip, .advance⟩ closedSource).1.code =
        "let a = ;\n(-a)\nb\nreturn ;\n(c == d)\nreturn ;" ∧
      (parse ⟨.skip, .advance⟩ closedSource).1 =
        (parse ⟨.parse, .advance⟩ closedSource).1.withoutValues := by
  have he : (parse ⟨.parse, .advance⟩ closedSource).2.errors = #[] := by decide +kernel
  have hend : ∀ turn ∈ parseTurns ⟨.parse, .advance⟩ closedSource, turn.Closes := by
    decide +kernel
  exact ⟨⟨he, hend⟩, by decide +kernel,
    (parse_skip_eq_withoutValues .advance closedSource he hend).2⟩

end PrattFrontend
