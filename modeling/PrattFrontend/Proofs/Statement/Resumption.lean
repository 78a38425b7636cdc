import PrattFrontend.Proofs.Expression.Unbounded
import PrattFrontend.Proofs.Statement.ErrorPlaces
import PrattFrontend.Proofs.Statement.Recovery

/-!
# Where parsing goes on behind a statement that failed

A parser that recovers at semicolons passes over what is left of a statement that failed. Nothing is
said about the tokens that it passes over, and no statement holds one of them; the next statement
starts right behind the semicolon.

* **`Token.Stream.ClosesAt`**: the first semicolon behind a place, or the end of the input;
* `Grammar.Performs.exists_closesAt`: how far a statement goes that failed;
* `Turn.StaysWithin`: the stretch of the source that a turn is about;
* `Grammar.Plain.turns_eq_append_cons`: a turn with those before and behind it;
* **`Turn.KeepsOut`**: turns that are not about a stretch;
* `exists_closesAt_of_parseTurns`: a turn that fails, and the others;
* **`exists_closesAt_of_errors_parse`**: sources;
* `errors_coincide_farText`: a source whose offsets do not fit.
-/

namespace PrattFrontend

open Grammar (standard standard_plain)

variable {config : Config} {s t : State} {T : Token.Stream} {a b i j k : Nat}

/-! ## Up to the next semicolon -/

/-- **A place closes** what starts at another place of a stream if it is the first one from there on
with a semicolon or the end of the input. -/
structure Token.Stream.ClosesAt (T : Token.Stream) (i j : Nat) : Prop where
  le : i ≤ j
  stop : (T.get j).kind = .semicolon ∨ (T.get j).kind = .endOfInput
  go : ∀ k, i ≤ k → k < j → ¬((T.get k).kind = .semicolon ∨ (T.get k).kind = .endOfInput)

namespace Token.Stream.ClosesAt

theorem back (h : T.ClosesAt (i + 1) j)
    (hi : ¬((T.get i).kind = .semicolon ∨ (T.get i).kind = .endOfInput)) : T.ClosesAt i j where
  le := Nat.le_of_succ_le h.le
  stop := h.stop
  go k hik hkj := by
    rcases hik.eq_or_lt with rfl | hlt
    · exact hi
    · exact h.go k hlt hkj

theorem le_length (h : T.ClosesAt i j) (hi : i ≤ T.ahead.length) : j ≤ T.ahead.length := by
  by_contra hlt
  exact h.go T.ahead.length hi (not_le.mp hlt) (.inr (State.kind_get_of_length_le (Nat.le_refl _)))

end Token.Stream.ClosesAt

theorem State.Skips.exists_closesAt (h : s.Skips t) (hs : s.tokens = T.drop i) :
    ∃ j, T.ClosesAt i j ∧ t.tokens = T.drop j := by
  induction h generalizing i with
  | stop h =>
    rw [State.current_of_tokens_eq hs] at h
    exact ⟨i, ⟨Nat.le_refl i, h, fun k hik hki => absurd hik (not_le.mpr hki)⟩, hs⟩
  | go h _ ih =>
    rw [State.current_of_tokens_eq hs] at h
    obtain ⟨j, hj, ht⟩ := ih (State.tokens_advance_of_tokens_eq hs)
    exact ⟨j, hj.back h, ht⟩

namespace Grammar

theorem exists_closesAt_recover (hr : config.recovery = .semicolon) (hs : s.tokens = T.drop i)
    (hk : ¬(s.current.kind = .semicolon ∨ s.current.kind = .endOfInput)) {expected : Token.Kind}
    (hne : s.next.kind ≠ expected) :
    ∃ j e, T.ClosesAt i j ∧ i < j ∧ e.IsAbout (T.get (i + 1)) ∧
      e = ⟨.unexpectedToken expected s.next.kind, s.next.span.start⟩ ∧
      (recover config (s.record e)).tokens = T.drop j := by
  obtain ⟨j, hj, ht⟩ := (State.skips_iff.mpr rfl).exists_closesAt (s := s.record
    ⟨.unexpectedToken expected s.next.kind, s.next.span.start⟩) hs
  rw [State.current_of_tokens_eq hs] at hk
  refine ⟨j, _, hj, lt_of_le_of_ne hj.le ?_, ?_, rfl, ?_⟩
  · rintro rfl
    exact hk hj.stop
  · rw [← State.next_of_tokens_eq hs]
    exact .unexpected hne.symm
  · simpa only [recover, hr] using ht

/-- **A statement that fails** is a binding, and the parser stops where it closes. -/
theorem Performs.exists_closesAt (h : standard.Performs config s none t)
    (hr : config.recovery = .semicolon) (hs : s.tokens = T.drop i) :
    (T.get i).kind = .letWord ∧ ∃ j k e, T.ClosesAt i j ∧ t.tokens = T.drop j ∧ i < k ∧ k ≤ j ∧
      e.IsAbout (T.get k) ∧ t.errors.toList = s.errors.toList ++ [e] := by
  cases h with
  | letNoName hrule hn =>
    have hk := ruleForStatement_standard_eq_let_iff.mp hrule
    obtain ⟨j, e, hj, hlt, habout, rfl, ht⟩ :=
      exists_closesAt_recover hr hs (by simp [hk]) hn
    refine ⟨State.current_of_tokens_eq hs ▸ hk, j, i + 1, _, hj, ht, Nat.lt_succ_self i, hlt, habout,
      ?_⟩
    rw [errors_recover, State.errors_record, Array.toList_push]
  | letNoSign hrule hn ha =>
    have hk := ruleForStatement_standard_eq_let_iff.mp hrule
    obtain ⟨j, e, hj, hlt, habout, rfl, ht⟩ :=
      exists_closesAt_recover hr (State.tokens_advance_of_tokens_eq hs) (by simp [hn]) ha
    rw [State.current_of_tokens_eq hs] at hk
    refine ⟨hk, j, i + 1 + 1, _, hj.back (by simp [hk]), ht, by omega, hlt, habout, ?_⟩
    rw [errors_recover, State.errors_record, Array.toList_push, State.errors_advance]

end Grammar

/-! ## Turns and their stretches -/

/-- **A turn stays within** a stretch of a stream if it starts at the first place of it and stops at
the last, its errors are about tokens there, and its statement lies there. -/
structure Turn.StaysWithin (T : Token.Stream) (a b : Nat) (turn : Turn) : Prop where
  start : turn.start.tokens = T.drop a
  lt_length : a < T.ahead.length
  stop : turn.stop.tokens = T.drop b
  errors : ∀ e ∈ turn.errors, ∃ k ≤ T.ahead.length, a ≤ k ∧ k ≤ b ∧ e.IsAbout (T.get k)
  statement : ∀ st ∈ turn.statement, st.LiesAt T a ∧ a + st.cells.length ≤ b + 1

namespace Grammar

/-- **Each turn stays within its own stretch.** -/
theorem Performs.exists_staysWithin {st : Option Statement}
    (h : standard.Performs config (s.note (.statement s.current.kind)) st t)
    (hr : config.recovery = .semicolon) (hs : s.tokens = T.drop a) (hT : ∀ x ∈ T.ahead, x.Lexed)
    (hk : s.current.kind ≠ .endOfInput) : ∃ b, a ≤ b ∧ Turn.StaysWithin T a b ⟨s, st, t⟩ := by
  have ha : a < T.ahead.length := by
    rw [State.current_of_tokens_eq hs] at hk
    exact Token.Stream.lt_length_of_kind_get_ne hk
  cases st with
  | none =>
    obtain ⟨-, j, k, e, hj, ht, hik, hkj, habout, herrs⟩ := h.exists_closesAt hr hs
    refine ⟨j, hj.le, hs, ha, ht, ?_, by simp⟩
    rw [Turn.errors_eq herrs]
    exact List.forall_mem_singleton.mpr
      ⟨k, hkj.trans (hj.le_length ha.le), hik.le, hkj, habout⟩
  | some st =>
    obtain ⟨ms, b, hab, ht, herrs, -, hbetween⟩ := h.leavesMarks hs hT hk
    obtain ⟨m, hm, hcells⟩ := h.exists_drop
    rw [State.tokens_note, hs, Token.Stream.drop_drop] at hm
    -- past the end of the input the two places need not agree
    have hmax : t.tokens = T.drop (max b (a + m)) := by
      rcases Nat.le_total b (a + m) with hle | hle
      · rw [Nat.max_eq_right hle, hm]
      · rw [Nat.max_eq_left hle, ht]
    have hle := Nat.le_max_left b (a + m)
    have hle' := Nat.le_max_right b (a + m)
    refine ⟨max b (a + m), hab.trans hle, hs, ha, hmax, fun e he => ?_, ?_⟩
    · cases h.settled with
      | failed hst => cases hst
      | given _ hrefusal =>
        have href := hrefusal e he
        rw [Turn.errors_eq herrs] at he
        obtain ⟨mark, hmark, rfl⟩ := List.mem_map.mp he
        have hplace := (hbetween mark hmark).refusal href
        exact ⟨mark.place, (hbetween mark hmark).le_length, hplace.1, hplace.2.trans hle,
          (hbetween mark hmark).isAbout⟩
    · rintro _ ⟨⟩
      exact ⟨h.liesAt hs, by omega⟩

theorem exists_staysWithin_of_mem_turns (hr : config.recovery = .semicolon) (n : Nat)
    (hs : ∃ b, a ≤ b ∧ s.tokens = T.drop b) (hT : ∀ x ∈ T.ahead, x.Lexed) :
    ∀ turn ∈ standard.turns config n s, ∃ b c, a ≤ b ∧ turn.StaysWithin T b c := by
  refine standard_plain.forall_mem_turns config (Q := fun s => ∃ b, a ≤ b ∧ s.tokens = T.drop b)
    ?_ n hs
  rintro s st t ⟨b, hab, hs⟩ hk hst
  obtain ⟨c, hbc, hwithin⟩ := hst.exists_staysWithin hr hs hT hk
  exact ⟨⟨b, c, hab, hwithin⟩, c + 1, by omega, State.tokens_advance_of_tokens_eq hwithin.stop⟩

/-- **A turn with those before and behind it.** -/
theorem Plain.turns_eq_append_cons {g : Grammar} (hg : g.Plain) (config : Config)
    {before behind : List Turn} {turn : Turn} {n : Nat} (hn : s.tokensLeft ≤ n)
    (h : g.turns config n s = before ++ turn :: behind) :
    (∃ m, turn.stop.advance.tokensLeft ≤ m ∧ behind = g.turns config m turn.stop.advance) ∧
      g.Performs config (turn.start.note (.statement turn.start.current.kind)) turn.statement
        turn.stop ∧
      s.Precedes turn.start ∧ ∀ turn' ∈ before, turn'.stop.advance.Precedes turn.start := by
  induction before generalizing n s with
  | nil =>
    by_cases hk : s.current.kind = .endOfInput
    · cases n <;> simp [turns, hk] at h
    · have hpos := State.tokensLeft_pos hk
      obtain ⟨n, rfl⟩ : ∃ m, n = m + 1 := ⟨n - 1, by omega⟩
      obtain ⟨st, t, hst, hturns, -⟩ := hg.turns_succ config n hk
      rw [hturns] at h
      obtain ⟨rfl, rfl⟩ := List.cons.inj h
      have hleft : t.advance.tokensLeft ≤ n := by
        have hle : t.tokensLeft ≤ s.tokensLeft := hst.precedes.tokensLeft_le
        rw [State.tokensLeft_advance]
        omega
      exact ⟨⟨n, hleft, rfl⟩, hst, .refl s, by simp⟩
  | cons first before ih =>
    by_cases hk : s.current.kind = .endOfInput
    · cases n <;> simp [turns, hk] at h
    · have hpos := State.tokensLeft_pos hk
      obtain ⟨n, rfl⟩ : ∃ m, n = m + 1 := ⟨n - 1, by omega⟩
      obtain ⟨st, t, hst, hturns, -⟩ := hg.turns_succ config n hk
      rw [hturns] at h
      obtain ⟨rfl, hrest⟩ := List.cons.inj h
      have hprec : s.Precedes t := (State.Precedes.note s _).trans hst.precedes
      have hle := hprec.tokensLeft_le
      obtain ⟨hbehind, hperforms, hstart, hbefore⟩ :=
        ih (by rw [State.tokensLeft_advance]; omega) hrest
      exact ⟨hbehind, hperforms, (hprec.trans (.advance t)).trans hstart,
        List.forall_mem_cons.mpr ⟨hstart, hbefore⟩⟩

end Grammar

/-- **A turn keeps out** of a stretch of a stream if its errors are about tokens before it or behind
it, and its statement lies before it or behind it. -/
structure Turn.KeepsOut (T : Token.Stream) (i j : Nat) (turn : Turn) : Prop where
  errors : ∀ e ∈ turn.errors, ∃ k ≤ T.ahead.length, (k < i ∨ j < k) ∧ e.IsAbout (T.get k)
  statement : ∀ st ∈ turn.statement, ∃ a < T.ahead.length, turn.start.tokens = T.drop a ∧
    st.LiesAt T a ∧ (a + st.cells.length ≤ i ∨ j < a)

namespace Turn

variable {turn turn' : Turn}

theorem StaysWithin.keepsOut_before (h : turn.StaysWithin T a b) (hb : b < i) (j : Nat) :
    turn.KeepsOut T i j where
  errors e he := by
    obtain ⟨k, hk, -, hkb, habout⟩ := h.errors e he
    exact ⟨k, hk, .inl (by omega), habout⟩
  statement st hst := by
    obtain ⟨hlies, hcells⟩ := h.statement st hst
    exact ⟨a, h.lt_length, h.start, hlies, .inl (by omega)⟩

theorem StaysWithin.keepsOut_behind (h : turn.StaysWithin T a b) (ha : j < a) (i : Nat) :
    turn.KeepsOut T i j where
  errors e he := by
    obtain ⟨k, hk, hak, -, habout⟩ := h.errors e he
    exact ⟨k, hk, .inr (by omega), habout⟩
  statement st hst := ⟨a, h.lt_length, h.start, (h.statement st hst).1, .inr ha⟩

theorem StaysWithin.stop_lt (h : turn.StaysWithin T a b) {c d : Nat}
    (h' : turn'.StaysWithin T c d) (hprec : turn.stop.advance.Precedes turn'.start) : b < c := by
  obtain ⟨m, hm⟩ := hprec.tokens
  rw [State.tokens_advance_of_tokens_eq h.stop, Token.Stream.drop_drop, h'.start] at hm
  have hlen := congrArg (fun T : Token.Stream => T.ahead.length) hm
  simp only [Token.Stream.ahead_drop, List.length_drop] at hlen
  have hlt := h'.lt_length
  omega

end Turn

/-! ## Sources -/

namespace Turn.KeepsOut

variable {turn : Turn} {source : Source}

theorem position_ne (h : turn.KeepsOut (.ofSource source) i j)
    (hlen : Text.byteLength source.text.toList ≤ Position.maxOffset)
    (hj : j ≤ (Token.Stream.ofSource source).ahead.length) (hik : i ≤ k) (hkj : k ≤ j)
    {e : ParseError} (he : e ∈ turn.errors) :
    e.position ≠ ((Token.Stream.ofSource source).get k).span.start := by
  intro heq
  obtain ⟨m, hm, hout, habout⟩ := h.errors e he
  rw [habout.position_eq] at heq
  have := Token.Stream.eq_of_start_get_eq hlen hm (hkj.trans hj) heq
  omega

theorem some_get_notMem_cells (h : turn.KeepsOut (.ofSource source) i j)
    (hlen : Text.byteLength source.text.toList ≤ Position.maxOffset)
    (hj : j ≤ (Token.Stream.ofSource source).ahead.length) (hik : i ≤ k) (hkj : k ≤ j)
    {st : Statement} (hst : st ∈ turn.statement) :
    some ((Token.Stream.ofSource source).get k) ∉ st.cells := by
  intro hmem
  obtain ⟨a, ha, -, hlies, hout⟩ := h.statement st hst
  obtain ⟨m, hm⟩ := List.mem_iff_getElem?.mp hmem
  have hget := hlies.carries m _ hm
  obtain ⟨hlt, -⟩ := List.getElem?_eq_some_iff.mp hm
  have hle : a + m ≤ (Token.Stream.ofSource source).ahead.length := by
    rcases hout with hbefore | hbehind
    · omega
    · -- a statement behind the stretch holds no end of the input that could stand in the stretch
      have hklt : k < (Token.Stream.ofSource source).ahead.length := by omega
      have hne := (Token.Stream.lexed_of_mem_ofSource (List.getElem_mem hklt)).kind_ne
      rw [← Token.Stream.get_of_lt hklt, ← hget] at hne
      exact (Token.Stream.lt_length_of_kind_get_ne hne).le
  have := Token.Stream.eq_of_start_get_eq hlen hle (hkj.trans hj) (by rw [hget])
  omega

end Turn.KeepsOut

theorem Turn.exists_failed {turns : List Turn} {errs rest : List ParseError} {e : ParseError}
    (hsettled : ∀ turn ∈ turns, turn.Settled) (h : turns.flatMap Turn.errors = errs ++ e :: rest)
    (he : e.isRefusal = false) :
    ∃ before turn behind, turns = before ++ turn :: behind ∧ turn.statement = none ∧
      turn.errors = [e] ∧ before.flatMap Turn.errors = errs ∧
      behind.flatMap Turn.errors = rest := by
  induction turns generalizing errs with
  | nil => simp at h
  | cons first turns ih =>
    obtain ⟨hfirst, hturns⟩ := List.forall_mem_cons.mp hsettled
    have hlater : ∀ errs', turns.flatMap Turn.errors = errs' ++ e :: rest →
        errs = first.errors ++ errs' → ∃ before turn behind,
          first :: turns = before ++ turn :: behind ∧ turn.statement = none ∧ turn.errors = [e] ∧
          before.flatMap Turn.errors = errs ∧ behind.flatMap Turn.errors = rest := by
      intro errs' herrs' herrs
      obtain ⟨before, turn, behind, rfl, hst, hone, rfl, hbehind⟩ := ih hturns herrs'
      exact ⟨first :: before, turn, behind, rfl, hst, hone, by rw [List.flatMap_cons, herrs],
        hbehind⟩
    rw [List.flatMap_cons] at h
    rcases List.append_eq_append_iff.mp h with ⟨errs', herrs, herrs'⟩ | ⟨more, herrs, hmore⟩
    · exact hlater errs' herrs' herrs
    · cases more with
      | nil => exact hlater [] hmore.symm (by rw [herrs, List.append_nil, List.append_nil])
      | cons x more =>
        obtain ⟨rfl, rfl⟩ := List.cons.inj hmore
        cases hfirst with
        | given _ hrefusal =>
          rw [hrefusal e (by simp [herrs])] at he
          cases he
        | failed hst hone _ =>
          rw [hone] at herrs
          obtain ⟨rfl, rfl, rfl⟩ : errs = [] ∧ _ = e ∧ more = [] := by
            cases errs with
            | nil => simpa using herrs
            | cons => simp at herrs
          exact ⟨[], first, turns, rfl, hst, hone, rfl, rfl⟩

/-- **A turn that fails, and the others**, which keep out of its stretch. -/
theorem exists_closesAt_of_parseTurns {values : ValueMode} {source : Source}
    {before behind : List Turn} {turn : Turn}
    (hturns : parseTurns ⟨values, .semicolon⟩ source = before ++ turn :: behind)
    (hst : turn.statement = none) :
    let T := Token.Stream.ofSource source
    ∃ i j, i < T.ahead.length ∧ turn.start.tokens = T.drop i ∧ (T.get i).kind = .letWord ∧
      T.ClosesAt i j ∧ (∃ k e, turn.errors = [e] ∧ i < k ∧ k ≤ j ∧ e.IsAbout (T.get k)) ∧
      (∀ other ∈ before ++ behind, other.KeepsOut T i j) ∧
      ((T.get (j + 1)).kind ≠ .endOfInput →
        ∃ next more, behind = next :: more ∧ next.start.tokens = T.drop (j + 1)) := by
  intro T
  have hT : ∀ x ∈ T.ahead, x.Lexed := fun x hx => Token.Stream.lexed_of_mem_ofSource hx
  have hwithin : ∀ other ∈ parseTurns ⟨values, .semicolon⟩ source,
      ∃ b c, 0 ≤ b ∧ other.StaysWithin T b c :=
    Grammar.exists_staysWithin_of_mem_turns rfl _ ⟨0, Nat.le_refl 0, rfl⟩ hT
  obtain ⟨⟨m, hm, hbehind⟩, hperforms, -, hbefore⟩ :=
    standard_plain.turns_eq_append_cons (s := T.begin) _ (Nat.le_refl _) hturns
  obtain ⟨i, b, -, hturn⟩ := hwithin turn (by simp [hturns])
  rw [hst] at hperforms
  obtain ⟨hword, j, k, e, hj, ht, hik, hkj, habout, herrs⟩ :=
    hperforms.exists_closesAt rfl hturn.start
  have hnext := State.tokens_advance_of_tokens_eq ht
  refine ⟨i, j, hturn.lt_length, hturn.start, hword, hj,
    ⟨k, e, Turn.errors_eq herrs, hik, hkj, habout⟩,
    List.forall_mem_append.mpr ⟨fun other hother => ?_, fun other hother => ?_⟩, fun hgoes => ?_⟩
  · obtain ⟨c, d, -, hcd⟩ := hwithin other (by simp [hturns, hother])
    exact hcd.keepsOut_before (hcd.stop_lt hturn (hbefore other hother)) j
  · rw [hbehind] at hother
    obtain ⟨c, d, hjc, hcd⟩ := Grammar.exists_staysWithin_of_mem_turns rfl m
      ⟨j + 1, Nat.le_refl _, hnext⟩ hT other hother
    exact hcd.keepsOut_behind hjc i
  · have hkind : turn.stop.advance.current.kind ≠ .endOfInput := by
      rwa [State.current_of_tokens_eq hnext]
    obtain ⟨m, rfl⟩ : ∃ n, m = n + 1 := ⟨m - 1, by have := State.tokensLeft_pos hkind; omega⟩
    obtain ⟨st, t, -, hfirst, -⟩ := standard_plain.turns_succ _ m hkind
    exact ⟨_, _, hbehind.trans hfirst, hnext⟩

/-- **Behind a statement that failed, parsing goes on right behind the next semicolon.** -/
theorem exists_closesAt_of_errors_parse (values : ValueMode) (source : Source)
    {errs rest : List ParseError} {e : ParseError}
    (h : (parse ⟨values, .semicolon⟩ source).2.errors.toList = errs ++ e :: rest)
    (he : e.isRefusal = false) :
    let config : Config := ⟨values, .semicolon⟩
    let T := Token.Stream.ofSource source
    ∃ i j before turn behind,
      parseTurns config source = before ++ turn :: behind ∧
      before.flatMap Turn.errors = errs ∧ turn.errors = [e] ∧
      behind.flatMap Turn.errors = rest ∧
      turn.statement = none ∧ turn.start.tokens = T.drop i ∧ (T.get i).kind = .letWord ∧
      T.ClosesAt i j ∧ (∃ k, i < k ∧ k ≤ j ∧ e.IsAbout (T.get k)) ∧
      (∀ other ∈ before ++ behind, other.KeepsOut T i j) ∧
      (Text.byteLength source.text.toList ≤ Position.maxOffset → ∀ k, i ≤ k → k ≤ j →
        (∀ e' ∈ errs ++ rest, e'.position ≠ (T.get k).span.start) ∧
        ∀ st ∈ (parse config source).1.statements, T.get k ≠ st.token ∧ T.get k ∉ st.tokens) ∧
      ((T.get j).kind = .semicolon → (T.get (j + 1)).kind ≠ .endOfInput →
        ∃ next more, behind = next :: more ∧ next.start.tokens = T.drop (j + 1)) := by
  intro config T
  have hsettled : ∀ other ∈ parseTurns config source, other.Settled :=
    Grammar.settled_of_mem_turns config _ _
  rw [errors_parse_eq] at h
  obtain ⟨before, turn, behind, hturns, hst, hone, rfl, rfl⟩ := Turn.exists_failed hsettled h he
  obtain ⟨i, j, hi, hstart, hword, hj, ⟨k, e', he', hik, hkj, habout⟩, hout, hnext⟩ :=
    exists_closesAt_of_parseTurns hturns hst
  obtain rfl : e' = e := List.singleton_inj.mp (he'.symm.trans hone)
  have hjle := hj.le_length hi.le
  refine ⟨i, j, before, turn, behind, hturns, rfl, hone, rfl, hst, hstart, hword, hj,
    ⟨k, hik, hkj, habout⟩, hout, fun hlen k hik hkj => ⟨?_, ?_⟩, fun _ => hnext⟩
  · rw [← List.flatMap_append]
    intro e' he'
    obtain ⟨other, hother, hmem⟩ := List.mem_flatMap.mp he'
    exact (hout other hother).position_ne hlen hjle hik hkj hmem
  · rw [(parse_eq_of_failed hturns hst hone).2, ← List.filterMap_append]
    intro st hmem
    obtain ⟨other, hother, hgiven⟩ := List.mem_filterMap.mp hmem
    have hcells := (hout other hother).some_get_notMem_cells hlen hjle hik hkj hgiven
    obtain ⟨a, -, -, hlies, -⟩ := (hout other hother).statement st hgiven
    exact not_or.mp (mt (hlies.mem_cells_iff _).mpr hcells)

/-- A source with three bindings that fail. In the first the word of a binding comes where a sign
should, the last stands at the end, and before them the word is refused as an operand. -/
def nestedBindings : Source :=
  .ofText "a + let; let b let c = 1; let 2 + d; e let" none

/-- The first binding of the sample that fails has one error. -/
theorem exists_closesAt_nestedBindings :
    let config : Config := ⟨.parse, .semicolon⟩
    let T := Token.Stream.ofSource nestedBindings
    let e : ParseError := ⟨.unexpectedToken .assign .letWord, .atByte 15 "shell"⟩
    (parse config nestedBindings).1.code = "(a + )\ne" ∧
      ∃ errs rest, (parse config nestedBindings).2.errors.toList = errs ++ e :: rest ∧
        (errs ++ rest).map (·.position.offset) = [4, 30, 42] ∧ e.isRefusal = false ∧
        ∃ i j, (T.get i).kind = .letWord ∧ T.ClosesAt i j ∧
          ∀ k, i ≤ k → k ≤ j → ∀ e' ∈ errs ++ rest, e'.position ≠ (T.get k).span.start := by
  intro config T e
  have herrs : (parse config nestedBindings).2.errors.toList =
      [⟨.noPrefixRule .letWord, .atByte 4 "shell"⟩] ++ e ::
        [⟨.unexpectedToken .identifier .integer, .atByte 30 "shell"⟩,
          ⟨.unexpectedToken .identifier .endOfInput, .atByte 42 "shell"⟩] := by
    decide +kernel
  obtain ⟨i, j, -, -, -, -, -, -, -, -, -, hword, hj, -, -, hout, -⟩ :=
    exists_closesAt_of_errors_parse .parse nestedBindings herrs rfl
  exact ⟨by decide +kernel, _, _, herrs, by decide +kernel, rfl, i, j, hword, hj,
    fun k hik hkj => (hout (by decide +kernel) k hik hkj).1⟩

/-- A text with a binding that fails, behind a number of blanks. -/
def farText (n : Nat) : String :=
  String.ofList (List.replicate n ' ' ++ "let = 1; 1 )".toList)

theorem ofSource_farText (n : Nat) :
    Token.Stream.ofSource (.ofText (farText n) none) =
      ⟨Token.placedAt "shell" n (Token.pieces "let = 1; 1 )".toList).1, .atByte (n + 12) "shell",
        n + 12⟩ := by
  have hnone : Token.pieces [] = ([], []) := by decide +kernel
  have hstream := @Token.Stream.ofSource_spaces "shell" [] "let = 1; 1 )".toList n
    (by simp [hnone])
  rw [hnone, Text.byteLength_nil, Nat.zero_add] at hstream
  exact hstream

/-- **Where offsets no longer fit**, errors of two statements stand at one place. -/
theorem errors_coincide_farText :
    let config : Config := ⟨.skip, .semicolon⟩
    let source : Source := .ofText (farText (Nat.pow 2 32)) none
    let T := Token.Stream.ofSource source
    let e : ParseError := ⟨.unexpectedToken .identifier .assign, ⟨Position.maxOffset, "shell"⟩⟩
    let e' : ParseError := ⟨.noPrefixRule .rightParen, ⟨Position.maxOffset, "shell"⟩⟩
    (parse config source).2.errors.toList = [e, e'] ∧ (T.get 0).kind = .letWord ∧
      T.ClosesAt 0 3 ∧ e'.position = (T.get 0).span.start ∧
      ∃ st ∈ (parse config source).1.statements, T.get 2 ∈ st.tokens := by
  intro config source T e e'
  have hstream := ofSource_farText (Nat.pow 2 32)
  have hT : T = _ := hstream
  have hgo : ∀ k < 3, ¬((T.get k).kind = .semicolon ∨ (T.get k).kind = .endOfInput) := by
    rw [hT]
    decide +kernel
  have hcloses : T.ClosesAt 0 3 := ⟨by decide, .inl (by rw [hT]; decide +kernel), fun k _ => hgo k⟩
  -- without the source, what is left is six tokens, all of them at the last position
  rw [parse, hstream]
  refine ⟨by decide +kernel, by rw [hT]; decide +kernel, hcloses, ?_, ?_⟩
  · rw [hT]
    decide +kernel
  · rw [hT]
    decide +kernel

end PrattFrontend
