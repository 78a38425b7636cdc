import PrattFrontend.Proofs.Language.Acceptance
import PrattFrontend.Proofs.Statement.Simulation
import PrattFrontend.Proofs.Token.Offsets

/-!
# Sources one behind the other

A source that ends with a semicolon is parsed as if nothing came behind it, and what comes behind it
is parsed as if it stood alone. Only an operator or a semicolon could change that, where the first
source ends with a statement that is broken.

* `Moved`: the same state, further on in the source;
* `Extended`: the same state, with more tokens behind the last semicolon;
* `Moved.simulation`, `Extended.simulation`: both are simulations;
* `Moved.statements`, `Extended.statements`: whole runs from such states;
* **`parse_append`**: sources.
-/

namespace PrattFrontend

open Grammar (standard standardPower? standard_plain)

variable {config : Config} {f : Position → Position} {s s' : State}

/-! ## The same tokens at other places -/

/-- One state is another **moved** if its tokens are the same at other places, and so are the errors
that both have recorded since there were two given lists of them. -/
structure Moved (f : Position → Position) (before before' : List ParseError) (s s' : State) :
    Prop where
  tokens : s.tokens.Relocated f s'.tokens
  errors : ∃ errs, s.errors.toList = before ++ errs ∧
    s'.errors.toList = before' ++ errs.map (ParseError.relocate f)

namespace Moved

variable {before before' : List ParseError}

theorem advanceBy (h : Moved f before before' s s') (n : Nat) :
    Moved f before before' (s.advanceBy n) (s'.advanceBy n) where
  tokens := by
    rw [State.tokens_advanceBy, State.tokens_advanceBy]
    exact h.tokens.drop n
  errors := by
    rw [State.errors_advanceBy, State.errors_advanceBy]
    exact h.errors

theorem advance (h : Moved f before before' s s') :
    Moved f before before' s.advance s'.advance :=
  h.advanceBy 1

theorem next (h : Moved f before before' s s') : s'.next = s.next.relocate f :=
  h.tokens.get 1

theorem current (h : Moved f before before' s s') : s'.current = s.current.relocate f :=
  h.tokens.get 0

theorem distanceToSemicolon_eq (h : Moved f before before' s s') :
    s'.distanceToSemicolon = s.distanceToSemicolon := by
  unfold State.distanceToSemicolon
  rw [h.tokens.ahead, List.takeWhile_map, List.length_map]
  rfl

theorem record (h : Moved f before before' s s') (e : ParseError) :
    Moved f before before' (s.record e) (s'.record (e.relocate f)) where
  tokens := h.tokens
  errors := by
    obtain ⟨errs, hs, hs'⟩ := h.errors
    exact ⟨errs ++ [e], by simp [hs], by simp [hs']⟩

/-- **To be moved makes no difference to any step.** -/
theorem simulation (f : Position → Position) (before before' : List ParseError) :
    Simulation f (Moved f before before') where
  note _ _ h := ⟨h.tokens, h.errors⟩
  record e h := h.record e
  skipToSemicolon := by
    intro s s' h
    unfold State.skipToSemicolon
    rw [h.distanceToSemicolon_eq]
    exact h.advanceBy _
  current h := h.current
  next h _ := h.next
  advance h _ := h.advance

theorem calm (f : Position → Position) (before before' : List ParseError) :
    Simulation.Calm f (Moved f before before') :=
  fun _ _ h _ => .inl ⟨h.next, h.advance⟩

/-- **A run from a moved state** gives the same statements at other places. -/
theorem statements (config : Config) (h : Moved f before before' s s') (n : Nat) :
    (standard.statements config n s').1 =
        (standard.statements config n s).1.map (Statement.mapTokens (Token.relocate f)) ∧
      Moved f before before' (standard.statements config n s).2
        (standard.statements config n s').2 := by
  induction n generalizing s s' with
  | zero => exact ⟨rfl, h⟩
  | succ n ih =>
    have hkind : s'.current.kind = s.current.kind := by rw [h.current, Token.kind_relocate]
    by_cases hk : s.current.kind = .endOfInput
    · rw [Grammar.statements_of_endOfInput config hk,
        Grammar.statements_of_endOfInput config (hkind.trans hk)]
      exact ⟨rfl, h⟩
    · obtain ⟨st, t, hst⟩ : ∃ st t, standard.statement config s = (st, t) := ⟨_, _, rfl⟩
      obtain ⟨t', heq, ht⟩ := Grammar.statement_simulated (simulation f before before') hst h
        (.inl (calm f before before'))
      obtain ⟨hsts, hstop⟩ := ih ht.advance
      simp only [Grammar.statements, if_neg hk, if_neg (hkind ▸ hk : s'.current.kind ≠ _), hst, heq]
      refine ⟨?_, hstop⟩
      rw [hsts, List.map_append]
      cases st <;> rfl

end Moved

/-! ## More tokens behind the last semicolon -/

/-- One state is another **extended** if it has the same tokens ahead, which end with a semicolon,
and more tokens behind them. -/
structure Extended (more : Token.Stream) (s s' : State) : Prop where
  ahead : s'.tokens.ahead = s.tokens.ahead ++ more.ahead
  stop : s'.tokens.stop = more.stop
  errors : s'.errors = s.errors
  closed : ∃ xs c, s.tokens.ahead = xs ++ [c] ∧ c.kind = .semicolon

namespace Extended

variable {more : Token.Stream}

theorem advanceBy (h : Extended more s s') {n : Nat} (hn : n < s.tokensLeft) :
    Extended more (s.advanceBy n) (s'.advanceBy n) where
  ahead := by
    rw [State.tokens_advanceBy, State.tokens_advanceBy, Token.Stream.ahead_drop,
      Token.Stream.ahead_drop, h.ahead, List.drop_append_of_le_length hn.le]
  stop := by
    rw [State.tokens_advanceBy, Token.Stream.stop_drop, h.stop]
  errors := by rw [State.errors_advanceBy, State.errors_advanceBy, h.errors]
  closed := by
    obtain ⟨xs, c, hxs, hc⟩ := h.closed
    have hlen : s.tokensLeft = xs.length + 1 := by simp [State.tokensLeft, hxs]
    refine ⟨xs.drop n, c, ?_, hc⟩
    rw [State.tokens_advanceBy, Token.Stream.ahead_drop, hxs,
      List.drop_append_of_le_length (by omega)]

theorem get (h : Extended more s s') {i : Nat} (hi : i < s.tokensLeft) :
    s'.tokens.get i = s.tokens.get i := by
  simp only [Token.Stream.get, h.ahead, List.getElem?_append_left hi, List.getElem?_eq_getElem hi,
    Option.getD_some]

theorem tokensLeft_pos (h : Extended more s s') : 0 < s.tokensLeft := by
  obtain ⟨xs, c, hxs, -⟩ := h.closed
  simp [State.tokensLeft, hxs]

theorem exists_of_tokensLeft_le (h : Extended more s s') (hone : s.tokensLeft ≤ 1) :
    ∃ c, s.tokens.ahead = [c] ∧ c.kind = .semicolon := by
  obtain ⟨xs, c, hxs, hc⟩ := h.closed
  obtain rfl : xs = [] := by
    rw [State.tokensLeft, hxs, List.length_append, List.length_singleton] at hone
    exact List.eq_nil_of_length_eq_zero (by omega)
  exact ⟨c, hxs, hc⟩

theorem one_lt_tokensLeft (h : Extended more s s') (hk : s.current.kind ≠ .semicolon) :
    1 < s.tokensLeft := by
  by_contra hone
  obtain ⟨c, hc, hsemi⟩ := h.exists_of_tokensLeft_le (not_lt.mp hone)
  rw [State.current_of_ahead hc] at hk
  exact hk hsemi

theorem distanceToSemicolon_lt (h : Extended more s s') : s.distanceToSemicolon < s.tokensLeft := by
  obtain ⟨xs, c, hxs, hc⟩ := h.closed
  refine lt_of_le_of_ne s.distanceToSemicolon_le fun heq => ?_
  have hself := (List.takeWhile_prefix _).eq_of_length heq
  have hall := List.takeWhile_eq_self_iff.mp hself c (by simp [hxs])
  simp [hc] at hall

theorem distanceToSemicolon_eq (h : Extended more s s') :
    s'.distanceToSemicolon = s.distanceToSemicolon := by
  have hlt := h.distanceToSemicolon_lt
  unfold State.distanceToSemicolon State.tokensLeft at hlt
  unfold State.distanceToSemicolon
  rw [h.ahead, List.takeWhile_append, if_neg hlt.ne]

/-- **More tokens behind make no difference to any step before them.** -/
theorem simulation (more : Token.Stream) : Simulation id (Extended more) where
  note _ _ h := ⟨h.ahead, h.stop, h.errors, h.closed⟩
  record e h := ⟨h.ahead, h.stop, by simp [h.errors], h.closed⟩
  skipToSemicolon := by
    intro s s' h
    unfold State.skipToSemicolon
    rw [h.distanceToSemicolon_eq]
    exact h.advanceBy h.distanceToSemicolon_lt
  current h := h.get h.tokensLeft_pos
  next h hk := h.get (h.one_lt_tokensLeft hk)
  advance h hk := h.advanceBy (h.one_lt_tokensLeft hk)

theorem calm (hsemi : (more.get 0).kind ≠ .semicolon)
    (hpower : standardPower? (more.get 0).kind = none) : Simulation.Calm id (Extended more) := by
  intro s s' h _
  by_cases hone : s.tokensLeft ≤ 1
  · obtain ⟨c, hc, -⟩ := h.exists_of_tokensLeft_le hone
    have hnext : s'.next = more.get 0 := by
      simp [State.next, Token.Stream.get, h.ahead, h.stop, hc]
    refine .inr ⟨State.kind_get_of_length_le (by simp [hc]), ?_⟩
    rw [hnext]
    exact ⟨hsemi, hpower⟩
  · exact .inl ⟨h.get (not_le.mp hone), h.advanceBy (not_le.mp hone)⟩

/-- **A run from an extended state** gives the statements of the other one, and those behind. -/
theorem statements (config : Config) (h : Extended more s s') (hs : s.Lexed) {m n : Nat}
    (hm : s.tokensLeft ≤ m) (hn : s'.tokensLeft ≤ n)
    (hcalm : Simulation.Calm id (Extended more) ∨
      (standard.statements config m s).2.errors = s.errors) :
    ∃ u, u.tokens.ahead = more.ahead ∧ u.tokens.stop = more.stop ∧
      u.errors = (standard.statements config m s).2.errors ∧
      standard.statements config n s' =
        ((standard.statements config m s).1 ++ (standard.statements config more.ahead.length u).1,
          (standard.statements config more.ahead.length u).2) := by
  induction m generalizing s s' n with
  | zero => exact absurd h.tokensLeft_pos (by omega)
  | succ m ih =>
    have hk : s.current.kind ≠ .endOfInput := by
      obtain ⟨x, xs, hxs⟩ := List.exists_cons_of_length_pos h.tokensLeft_pos
      rw [State.current_of_ahead hxs]
      exact (hs x (by simp [hxs])).kind_ne
    have hk' : s'.current.kind ≠ .endOfInput := by rwa [(simulation more).current h]
    have hpos' := State.tokensLeft_pos hk'
    obtain ⟨n, rfl⟩ : ∃ k, n = k + 1 := ⟨n - 1, by omega⟩
    obtain ⟨st, t, hst⟩ : ∃ st t, standard.statement config s = (st, t) := ⟨_, _, rfl⟩
    have hprec : s.Precedes t :=
      (State.Precedes.note s _).trans (standard_plain.statement_eq_iff.mp hst).precedes
    simp only [Grammar.statements, if_neg hk, if_neg hk', hst] at hcalm ⊢
    have hrest : t.Precedes (standard.statements config m t.advance).2 :=
      (State.Precedes.advance t).trans (standard_plain.statements_precedes config m _)
    obtain ⟨t', hst', ht⟩ := Grammar.statement_simulated (simulation more) hst h
      (hcalm.imp_right (hprec.errors_eq_left hrest))
    have hid : st.map (Statement.mapTokens (Token.relocate id)) = st := by
      rw [Token.relocate_id]
      cases st <;> simp
    have hprec' : s'.Precedes t' :=
      (State.Precedes.note s' _).trans (standard_plain.statement_eq_iff.mp hst').precedes
    have hle := hprec.tokensLeft_le
    have hle' := hprec'.tokensLeft_le
    rw [hst', hid]
    by_cases hone : t.tokensLeft ≤ 1
    · -- the statement stops at the last semicolon, and the second run goes on with what is behind
      obtain ⟨c, hc, -⟩ := ht.exists_of_tokensLeft_le hone
      have hend : t.advance.current.kind = .endOfInput :=
        State.kind_get_of_length_le (by simp [hc])
      have hmore : t'.advance.tokens.ahead = more.ahead := by
        simp [ht.ahead, hc]
      have hlen : t'.advance.tokensLeft = more.ahead.length := by rw [State.tokensLeft, hmore]
      have hfuel : standard.statements config n t'.advance =
          standard.statements config more.ahead.length t'.advance :=
        standard_plain.statements_eq_of_le config (by rw [State.tokensLeft_advance]; omega) hlen.le
      rw [Grammar.statements_of_endOfInput config hend]
      exact ⟨t'.advance, hmore, ht.stop, ht.errors, by rw [hfuel, List.append_nil]⟩
    · obtain ⟨u, hu, hstop, herrs, heq⟩ := ih (n := n) (ht.advanceBy (not_le.mp hone))
        ((hprec.trans (.advance t)).lexed hs)
        (by change t.advance.tokensLeft ≤ m; rw [State.tokensLeft_advance]; omega)
        (by change t'.advance.tokensLeft ≤ n; rw [State.tokensLeft_advance]; omega)
        (hcalm.imp_right (hprec.errors_eq_right hrest))
      refine ⟨u, hu, hstop, herrs, ?_⟩
      change standard.statements config n t'.advance = _ at heq
      rw [heq, List.append_assoc]
      rfl

end Extended

/-! ## Sources -/

/-- The run over the statements of a stream. -/
def Token.Stream.run (config : Config) (T : Token.Stream) : List Statement × State :=
  standard.statements config T.ahead.length T.begin

/-- **A run over two streams, one behind the other**, is a run over each. -/
theorem Token.Stream.run_append (config : Config) (f : Position → Position)
    {first second both : Token.Stream}
    (hahead : both.ahead = first.ahead ++ second.ahead.map (Token.relocate f))
    (hstop : both.stop = f second.stop) (hlexed : ∀ t ∈ first.ahead, t.Lexed)
    (hlast : ∃ t ∈ first.ahead.getLast?, t.kind = .semicolon)
    (hcut : (first.run config).2.errors = #[] ∨
      (second.get 0).kind ≠ .semicolon ∧ standardPower? (second.get 0).kind = none) :
    (both.run config).1 = (first.run config).1 ++
        (second.run config).1.map (Statement.mapTokens (Token.relocate f)) ∧
      (both.run config).2.errors.toList = (first.run config).2.errors.toList ++
        (second.run config).2.errors.toList.map (ParseError.relocate f) := by
  set more := both.drop first.ahead.length
  have hmore : second.Relocated f more :=
    ⟨by rw [Token.Stream.ahead_drop, hahead, List.drop_left], hstop⟩
  have hextended : Extended more first.begin both.begin := by
    obtain ⟨c, hc, hsemi⟩ := hlast
    exact ⟨hahead.trans (congrArg _ hmore.ahead.symm), rfl, rfl, _, c,
      (List.dropLast_append_getLast? c hc).symm, hsemi⟩
  have hcalm : Simulation.Calm id (Extended more) ∨ (first.run config).2.errors = #[] := by
    rcases hcut with he | ⟨hsemi, hpower⟩
    · exact .inr he
    · rw [← Token.kind_relocate f, ← hmore.get] at hsemi hpower
      exact .inl (Extended.calm hsemi hpower)
  obtain ⟨u, hu, hustop, herrs, heq⟩ :=
    hextended.statements config hlexed (Nat.le_refl _) (Nat.le_refl _) hcalm
  change Token.Stream.run config both = _ at heq
  change u.errors = (first.run config).2.errors at herrs
  have hmoved : Moved f [] (first.run config).2.errors.toList second.begin u :=
    ⟨⟨hu.trans hmore.ahead, hustop.trans hmore.stop⟩, [], rfl,
      by rw [herrs, List.map_nil, List.append_nil]⟩
  obtain ⟨hsts, -, errs, herrs₁, herrs₂⟩ := hmoved.statements config second.ahead.length
  rw [List.nil_append] at herrs₁
  rw [hmore.length_eq, hsts] at heq
  rw [heq]
  refine ⟨rfl, ?_⟩
  rw [herrs₂, ← herrs₁]
  rfl

/-- **Parsing is compositional at semicolons.** -/
theorem parse_append (config : Config) (file before behind : String)
    (hlen : Text.byteLength (before ++ behind).toList ≤ Position.maxOffset)
    (hlast : ∃ t ∈ (Token.Stream.ofSource ⟨before, file⟩).ahead.getLast?, t.kind = .semicolon)
    (hcut : (parse config ⟨before, file⟩).2.errors = #[] ∨
      ((Token.Stream.ofSource ⟨behind, file⟩).get 0).kind ≠ .semicolon ∧
        standardPower? ((Token.Stream.ofSource ⟨behind, file⟩).get 0).kind = none) :
    let shift := Position.shift (Text.byteLength before.toList)
    (parse config ⟨before ++ behind, file⟩).1.statements =
        (parse config ⟨before, file⟩).1.statements ++
          (parse config ⟨behind, file⟩).1.statements.map
            (Statement.mapTokens (Token.relocate shift)) ∧
      (parse config ⟨before ++ behind, file⟩).2.errors.toList =
        (parse config ⟨before, file⟩).2.errors.toList ++
          (parse config ⟨behind, file⟩).2.errors.toList.map (ParseError.relocate shift) := by
  intro shift
  obtain ⟨hahead, hstop⟩ := Token.Stream.ofSource_append hlen hlast
  exact Token.Stream.run_append config shift hahead hstop
    (fun t ht => Token.Stream.lexed_of_mem_ofSource ht) hlast hcut

/-- A binding without a name moves what is behind it, and no more. -/
theorem parse_append_namelessLet :
    let config : Config := ⟨.parse, .semicolon⟩
    let shift := Position.shift 9
    let whole := parse config ⟨"let = 5; " ++ "return 1; )", "a"⟩
    let behind := parse config ⟨"return 1; )", "a"⟩
    (Text.byteLength ("let = 5; " ++ "return 1; )").toList ≤ Position.maxOffset ∧
      (∃ t ∈ (Token.Stream.ofSource ⟨"let = 5; ", "a"⟩).ahead.getLast?, t.kind = .semicolon) ∧
      ((Token.Stream.ofSource ⟨"return 1; )", "a"⟩).get 0).kind ≠ .semicolon ∧
      standardPower? ((Token.Stream.ofSource ⟨"return 1; )", "a"⟩).get 0).kind = none) ∧
    (parse config ⟨"let = 5; ", "a"⟩).1.statements = [] ∧
    whole.1.statements = behind.1.statements.map (Statement.mapTokens (Token.relocate shift)) ∧
    whole.1.code = "return 1;\n" ∧
    whole.1.statements.map (·.token.span.start) = [⟨9, "a"⟩, ⟨19, "a"⟩] ∧
    whole.2.errors.toList = [⟨.unexpectedToken .identifier .assign, ⟨4, "a"⟩⟩,
      ⟨.noPrefixRule .rightParen, ⟨19, "a"⟩⟩] := by
  intro config shift whole behind
  have hlen : Text.byteLength ("let = 5; " ++ "return 1; )").toList ≤ Position.maxOffset := by
    decide +kernel
  have hlast : ∃ t ∈ (Token.Stream.ofSource ⟨"let = 5; ", "a"⟩).ahead.getLast?,
      t.kind = .semicolon := by
    decide +kernel
  have hcut : ((Token.Stream.ofSource ⟨"return 1; )", "a"⟩).get 0).kind ≠ .semicolon ∧
      standardPower? ((Token.Stream.ofSource ⟨"return 1; )", "a"⟩).get 0).kind = none := by
    decide +kernel
  have hnone : (parse config ⟨"let = 5; ", "a"⟩).1.statements = [] := by decide +kernel
  have happend := (parse_append config "a" "let = 5; " "return 1; )" hlen hlast (.inr hcut)).1
  rw [hnone, List.nil_append] at happend
  exact ⟨⟨hlen, hlast, hcut⟩, hnone, happend, by decide +kernel, by decide +kernel,
    by decide +kernel⟩

end PrattFrontend
