import PrattFrontend.Proofs.Statement.Tokens

/-!
# Where errors stand

Every error is about one token of the source, and errors come in the order of their tokens. A token
that should have been of another kind may be refused once more, as the start of the next statement;
nothing else is named twice.

* **`ParseError.IsAbout`**: what an error says about its token;
* `Mark`, `Mark.Before`: errors at places of a stream, and their order;
* `Mark.Between`: the marks that a stretch of the input may have;
* `Grammar.Performs.leavesMarks`: the marks of a statement;
* `Grammar.exists_marks_turns`: those of a run;
* **`isAbout_of_mem_errors_parse`**: sources.
-/

namespace PrattFrontend

open Grammar (standard)

variable {config : Config} {s t : State} {T : Token.Stream} {a b : Nat}

/-! ## Errors and their tokens -/

/-- **An error is about a token**: it stands where the token starts and says of the token that it is
not of the kind that was expected, or that no expression starts with its kind, or that it is a
number out of range. -/
inductive ParseError.IsAbout (t : Token) : ParseError → Prop
  | unexpected {expected : Token.Kind} (h : expected ≠ t.kind) :
      IsAbout t ⟨.unexpectedToken expected t.kind, t.span.start⟩
  | noRule (h : standard.prefixRule? t.kind = none) :
      IsAbout t ⟨.noPrefixRule t.kind, t.span.start⟩
  | outOfRange (hk : t.kind = .integer)
      (hv : Text.integerBound ≤ Text.decimalValue t.literal.toList) :
      IsAbout t ⟨.integerOutOfRange t.literal, t.span.start⟩

theorem ParseError.IsAbout.position_eq {t : Token} {e : ParseError} (h : e.IsAbout t) :
    e.position = t.span.start := by
  cases h <;> rfl

theorem ParseError.Refuses.isAbout {t : Token} {e : ParseError} (h : ParseError.Refuses t e)
    (ht : t.kind ≠ .endOfInput → t.Lexed) : e.IsAbout t := by
  cases h with
  | noRule h => exact .noRule h
  | outOfRange hk hv =>
    refine .outOfRange hk (not_lt.mp fun hlt => ?_)
    have hsome := ((ht (by simp [hk])).isSome_readInteger?_iff hk).mpr hlt
    rw [hv] at hsome
    cases hsome

namespace Token.Stream

theorem lt_length_of_kind_get_ne {i : Nat} (h : (T.get i).kind ≠ .endOfInput) :
    i < T.ahead.length := by
  by_contra hle
  exact h (State.kind_get_of_length_le (not_lt.mp hle))

theorem lexed_get (hT : ∀ x ∈ T.ahead, x.Lexed) {i : Nat} (h : (T.get i).kind ≠ .endOfInput) :
    (T.get i).Lexed := by
  have hi := lt_length_of_kind_get_ne h
  rw [get_of_lt hi]
  exact hT _ (List.getElem_mem hi)

theorem getElem?_toList {i : Nat} (h : i ≤ T.ahead.length) : T.toList[i]? = some (T.get i) := by
  rcases h.lt_or_eq with hlt | rfl
  · rw [toList, List.getElem?_append_left hlt, get_of_lt hlt, List.getElem?_eq_getElem hlt]
  · rw [toList, List.getElem?_append_right (Nat.le_refl _), get_of_length_le (Nat.le_refl _)]
    simp

end Token.Stream

/-! ## Marks -/

/-- A **mark**: an error at a place of a stream. -/
structure Mark where
  place : Nat
  error : ParseError

namespace Mark

variable {m : Mark}

/-- The order of marks: one place comes before the other, or else the place is the same and the
token there, not the end of the input, was first of an unexpected kind and then refused. -/
def Before (T : Token.Stream) (m m' : Mark) : Prop :=
  m.place < m'.place ∨ m.place = m'.place ∧ m.error.isRefusal = false ∧
    m'.error.isRefusal = true ∧ (T.get m.place).kind ≠ .endOfInput

/-- A mark stands **between** two places if it is about the token at its place and this comes
neither before the one nor behind the other. The mark of a token of an unexpected kind comes one
place later. -/
structure Between (T : Token.Stream) (a b : Nat) (m : Mark) : Prop where
  isAbout : m.error.IsAbout (T.get m.place)
  le_length : m.place ≤ T.ahead.length
  refusal : m.error.isRefusal = true → a ≤ m.place ∧ m.place ≤ b
  other : m.error.isRefusal = false → a < m.place ∧ m.place ≤ b + 1

theorem Between.le_place (h : m.Between T a b) : a ≤ m.place ∧ m.place ≤ b + 1 := by
  cases hr : m.error.isRefusal with
  | true =>
    have := h.refusal hr
    omega
  | false =>
    have := h.other hr
    omega

theorem Between.mono (h : m.Between T a b) {a' : Nat} (ha : a' ≤ a) : m.Between T a' b :=
  ⟨h.isAbout, h.le_length, fun hr => ⟨ha.trans (h.refusal hr).1, (h.refusal hr).2⟩,
    fun hr => ⟨ha.trans_lt (h.other hr).1, (h.other hr).2⟩⟩

theorem Between.to_end (h : m.Between T a b) {a' : Nat} (ha : a' ≤ a) :
    m.Between T a' T.ahead.length := by
  refine ⟨h.isAbout, h.le_length, fun hr => ?_, fun hr => ?_⟩
  · have := h.refusal hr
    exact ⟨by omega, h.le_length⟩
  · have := h.other hr
    have := h.le_length
    omega

theorem Between.before {m' : Mark} {c : Nat} (h : m.Between T a b) (h' : m'.Between T (b + 1) c)
    (hk : (T.get (b + 1)).kind ≠ .endOfInput) : m.Before T m' := by
  have hle := h.le_place.2
  have hle' := h'.le_place.1
  rcases (hle.trans hle').lt_or_eq with hlt | heq
  · exact .inl hlt
  · -- both at the token behind the stretch, which the first mark says is of an unexpected kind
    refine .inr ⟨heq, ?_, ?_, ?_⟩
    · by_contra hr
      have := (h.refusal (by simpa using hr)).2
      omega
    · by_contra hr
      have := (h'.other (by simpa using hr)).1
      omega
    · rwa [show m.place = b + 1 by omega]

/-- **Marks at one place are two at most**, and one only at the end of the input. -/
theorem length_of_pairwise {ms : List Mark} {i : Nat} (h : ms.Pairwise (Before T))
    (hi : ∀ m ∈ ms, m.place = i) :
    ms.length ≤ 2 ∧ (ms.length = 2 → ms.map (fun m => m.error.isRefusal) = [false, true]) ∧
      ((T.get i).kind = .endOfInput → ms.length ≤ 1) := by
  have hsame : ms.Pairwise fun m m' => m.error.isRefusal = false ∧ m'.error.isRefusal = true ∧
      (T.get i).kind ≠ .endOfInput := by
    refine h.imp_of_mem fun {m m'} hm hm' hbefore => ?_
    rcases hbefore with hlt | ⟨-, hr⟩
    · rw [hi m hm, hi m' hm'] at hlt
      exact absurd hlt (Nat.lt_irrefl i)
    · rwa [hi m hm] at hr
  match ms, hsame with
  | [], _ => simp
  | [_], _ => simp
  | [m, m'], hsame =>
    obtain ⟨hr, hr', hk⟩ := (List.pairwise_cons.mp hsame).1 m' List.mem_cons_self
    simp [hr, hr', hk]
  | m :: m' :: m'' :: _, hsame =>
    obtain ⟨hfirst, hrest⟩ := List.pairwise_cons.mp hsame
    have hr := (hfirst m' List.mem_cons_self).2.1
    have hr' := ((List.pairwise_cons.mp hrest).1 m'' List.mem_cons_self).1
    rw [hr] at hr'
    cases hr'

end Mark

/-! ## Holes -/

/-- The token that a hole is named for. -/
def Hole.token : Hole → Token
  | operand t => t
  | binding t _ => t
  | returned t => t
  | bare t => t

theorem Hole.StandsAt.le_length {hole : Hole} {i : Nat} (h : hole.StandsAt T i)
    (hk : hole.token.kind ≠ .endOfInput) : i ≤ T.ahead.length := by
  cases h with
  | operand ht => exact Token.Stream.lt_length_of_kind_get_ne (ht ▸ hk)
  | binding ht hn ha => exact Token.Stream.lt_length_of_kind_get_ne (by simp [ha])
  | returned ht => exact Token.Stream.lt_length_of_kind_get_ne (ht ▸ hk)
  | bare ht => exact (Token.Stream.lt_length_of_kind_get_ne (ht ▸ hk)).le

theorem Expr.token_mem_of_mem_holes {e : Expr} : ∀ hole ∈ e.holes, hole.token ∈ e.tokens := by
  intro hole hmem
  obtain ⟨n, hn, rfl⟩ := List.mem_map.mp hmem
  rw [← e.map_token_nodes]
  exact List.mem_map_of_mem (List.mem_of_mem_filter hn)

theorem Statement.token_of_mem_holes {values : ValueMode} {next : Token} {st : Statement} :
    ∀ hole ∈ st.holes values next, hole.token = st.token ∨ hole.token ∈ st.tokens := by
  intro hole hmem
  cases st with
  | letValue w name v =>
    cases v with
    | none =>
      rw [holes, List.mem_ite_nil_right, List.mem_singleton] at hmem
      exact .inl (by rw [hmem.2]; rfl)
    | some e =>
      exact .inr (List.mem_cons_of_mem _ (List.mem_cons_of_mem _ (e.token_mem_of_mem_holes _ hmem)))
  | returnValue w v =>
    cases v with
    | none =>
      rw [holes, List.mem_ite_nil_right, List.mem_singleton] at hmem
      exact .inl (by rw [hmem.2]; rfl)
    | some e => exact .inr (List.mem_cons_of_mem _ (e.token_mem_of_mem_holes _ hmem))
  | expression w v =>
    cases v with
    | none => exact .inl (by rw [List.mem_singleton.mp hmem]; rfl)
    | some e => exact .inr (e.token_mem_of_mem_holes _ hmem)

theorem exists_marks_of_forall₂ {missing : List Hole} {places : List Nat} {errs : List ParseError}
    (hholes : List.Forall₂ (Hole.StandsAt T) missing places)
    (herrs : List.Forall₂ (fun i e => ParseError.Refuses (T.get i) e) places errs)
    (hT : ∀ x ∈ T.ahead, x.Lexed) (hk : ∀ hole ∈ missing, hole.token.kind ≠ .endOfInput) :
    ∃ ms : List Mark, ms.map Mark.place = places ∧ ms.map Mark.error = errs ∧
      ∀ m ∈ ms, m.error.IsAbout (T.get m.place) ∧ m.place ≤ T.ahead.length ∧
        m.error.isRefusal = true := by
  induction hholes generalizing errs with
  | nil =>
    cases herrs
    exact ⟨[], rfl, rfl, by simp⟩
  | @cons hole i missing places hole_at _ ih =>
    cases herrs with
    | @cons _ e _ errs he hes =>
      obtain ⟨hhole, hrest⟩ := List.forall_mem_cons.mp hk
      obtain ⟨ms, rfl, rfl, hms⟩ := ih hes hrest
      refine ⟨⟨i, e⟩ :: ms, rfl, rfl, List.forall_mem_cons.mpr ⟨?_, hms⟩⟩
      exact ⟨he.isAbout (Token.Stream.lexed_get hT), hole_at.le_length hhole, he.isRefusal⟩

/-! ## Statements and runs -/

/-- Between two states of a parser, the first of them at a given place of the source, errors are
recorded that stand between that place and the one at which the parser has arrived. -/
def State.LeavesMarks (T : Token.Stream) (a : Nat) (s t : State) : Prop :=
  ∃ (ms : List Mark) (b : Nat), a ≤ b ∧ t.tokens = T.drop b ∧
    t.errors.toList = s.errors.toList ++ ms.map Mark.error ∧
    ms.Pairwise (Mark.Before T) ∧ ∀ m ∈ ms, m.Between T a b

theorem State.LeavesMarks.back (h : LeavesMarks T (a + 1) s.advance t) : LeavesMarks T a s t := by
  obtain ⟨ms, b, hab, hb, herrs, hordered, hbetween⟩ := h
  exact ⟨ms, b, Nat.le_of_succ_le hab, hb, herrs, hordered,
    fun m hm => (hbetween m hm).mono (Nat.le_succ a)⟩

namespace Grammar

theorem leavesMarks_recover (config : Config) (hs : s.tokens = T.drop a)
    (hk : s.current.kind ≠ .endOfInput) {expected : Token.Kind} (hne : s.next.kind ≠ expected) :
    State.LeavesMarks T a s (recover config
      (s.record ⟨.unexpectedToken expected s.next.kind, s.next.span.start⟩)) := by
  set e : ParseError := ⟨.unexpectedToken expected s.next.kind, s.next.span.start⟩ with he
  have ha : a < T.ahead.length := by
    rw [State.current_of_tokens_eq hs] at hk
    exact Token.Stream.lt_length_of_kind_get_ne hk
  have habout : e.IsAbout (T.get (a + 1)) := by
    rw [← State.next_of_tokens_eq hs]
    exact .unexpected hne.symm
  obtain ⟨n, hn⟩ := (recover_precedes config (s.record e)).tokens
  refine ⟨[⟨a + 1, e⟩], a + n, Nat.le_add_right a n, ?_, ?_, List.pairwise_singleton _ _, ?_⟩
  · rw [hn, State.tokens_record, hs, Token.Stream.drop_drop]
  · rw [errors_recover, State.errors_record, Array.toList_push]
    rfl
  · refine List.forall_mem_singleton.mpr ⟨habout, ha, nofun, fun _ => ⟨Nat.lt_succ_self a, ?_⟩⟩
    exact Nat.succ_le_succ (Nat.le_add_right a n)

/-- **The errors of a statement** stand between its start and the next one. -/
theorem Performs.leavesMarks {st : Option Statement} (h : standard.Performs config s st t)
    (hs : s.tokens = T.drop a) (hT : ∀ x ∈ T.ahead, x.Lexed)
    (hk : s.current.kind ≠ .endOfInput) : State.LeavesMarks T a s t := by
  cases st with
  | none =>
    cases h with
    | letNoName _ hn => exact leavesMarks_recover config hs hk hn
    | letNoSign _ hn hsign =>
      refine .back (leavesMarks_recover config (State.tokens_advance_of_tokens_eq hs) ?_ hsign)
      simp [hn]
  | some st =>
    obtain ⟨b, errs, hab, hb, herrs, places, hlt, hin, hholes, href⟩ := h.leavesHoles hs
    have hkinds : ∀ hole ∈ st.holes config.values s.next, hole.token.kind ≠ .endOfInput := by
      intro hole hmem
      rcases Statement.token_of_mem_holes hole hmem with heq | htok
      · rwa [heq, h.token_eq]
      · exact h.kind_ne_endOfInput _ htok
    obtain ⟨ms, rfl, rfl, hms⟩ := exists_marks_of_forall₂ hholes href hT hkinds
    refine ⟨ms, b, hab, hb, herrs, (List.pairwise_map.mp hlt).imp .inl, fun m hm => ?_⟩
    obtain ⟨habout, hle, hr⟩ := hms m hm
    have hplace := hin m.place (List.mem_map_of_mem hm)
    refine ⟨habout, hle, fun _ => ⟨hplace.1, Nat.le_of_lt_succ hplace.2⟩, fun hr' => ?_⟩
    rw [hr] at hr'
    cases hr'

/-- **The errors of a run** are marks in order, from the place where it starts on. -/
theorem exists_marks_turns (config : Config) (n : Nat) (hs : s.tokens = T.drop a)
    (hT : ∀ x ∈ T.ahead, x.Lexed) :
    ∃ ms : List Mark, (standard.turns config n s).flatMap Turn.errors = ms.map Mark.error ∧
      ms.Pairwise (Mark.Before T) ∧ (∀ m ∈ ms, m.Between T a T.ahead.length) ∧
      (ms ≠ [] → (T.get a).kind ≠ .endOfInput) := by
  induction n generalizing a s with
  | zero => exact ⟨[], rfl, .nil, by simp, by simp⟩
  | succ n ih =>
    by_cases hk : s.current.kind = .endOfInput
    · rw [turns, if_pos hk]
      exact ⟨[], rfl, .nil, by simp, by simp⟩
    · obtain ⟨st, t, hst, hturns, -⟩ := standard_plain.turns_succ config n hk
      obtain ⟨ms, b, hab, hb, herrs, hordered, hbetween⟩ := hst.leavesMarks hs hT hk
      obtain ⟨ms', herrs', hordered', hbetween', hend⟩ :=
        ih (State.tokens_advance_of_tokens_eq hb)
      refine ⟨ms ++ ms', ?_, List.pairwise_append.mpr ⟨hordered, hordered', fun m hm m' hm' => ?_⟩,
        List.forall_mem_append.mpr ⟨fun m hm => (hbetween m hm).to_end (Nat.le_refl a),
          fun m hm => (hbetween' m hm).to_end (Nat.le_succ_of_le hab)⟩,
        fun _ => State.current_of_tokens_eq hs ▸ hk⟩
      · rw [hturns, List.flatMap_cons, Turn.errors_eq herrs, herrs', List.map_append]
      · -- a run that records anything does not start at the end of the input
        exact (hbetween m hm).before (hbetween' m' hm') (hend (List.ne_nil_of_mem hm'))

end Grammar

/-! ## Sources -/

namespace Token.Stream

variable {source : Source} {i j : Nat}

theorem startsBefore_get (hlen : Text.byteLength source.text.toList ≤ Position.maxOffset)
    (hij : i < j) (hj : j ≤ (ofSource source).ahead.length) :
    StartsBefore ((ofSource source).get i) ((ofSource source).get j) := by
  obtain ⟨hlti, hi⟩ := List.getElem?_eq_some_iff.mp (getElem?_toList (hij.le.trans hj))
  obtain ⟨hltj, hj⟩ := List.getElem?_eq_some_iff.mp (getElem?_toList hj)
  rw [← hi, ← hj]
  exact List.pairwise_iff_getElem.mp (pairwise_tokenize hlen) i j hlti hltj hij

theorem eq_of_start_get_eq (hlen : Text.byteLength source.text.toList ≤ Position.maxOffset)
    (hi : i ≤ (ofSource source).ahead.length) (hj : j ≤ (ofSource source).ahead.length)
    (h : ((ofSource source).get i).span.start = ((ofSource source).get j).span.start) :
    i = j := by
  rcases Nat.lt_trichotomy i j with hlt | heq | hlt
  · have := startsBefore_get hlen hlt hj
    rw [StartsBefore, h] at this
    exact absurd this (Nat.lt_irrefl _)
  · exact heq
  · have := startsBefore_get hlen hlt hi
    rw [StartsBefore, h] at this
    exact absurd this (Nat.lt_irrefl _)

theorem get_mem_tokenize (hi : i ≤ (ofSource source).ahead.length) :
    (ofSource source).get i ∈ tokenize source :=
  List.mem_of_getElem? (getElem?_toList hi)

theorem exists_get_of_mem_tokenize {t : Token} (ht : t ∈ tokenize source) :
    ∃ i ≤ (ofSource source).ahead.length, (ofSource source).get i = t := by
  obtain ⟨i, hi⟩ := List.mem_iff_getElem?.mp ht
  obtain ⟨hlt, -⟩ := List.getElem?_eq_some_iff.mp hi
  have hle : i ≤ (ofSource source).ahead.length := by
    simpa [tokenize, toList, Nat.lt_succ_iff] using hlt
  exact ⟨i, hle, Option.some.inj ((getElem?_toList hle).symm.trans hi)⟩

end Token.Stream

theorem file_start_of_mem_tokenize {source : Source}
    (hlen : Text.byteLength source.text.toList ≤ Position.maxOffset) {t : Token}
    (ht : t ∈ tokenize source) : t.span.start.file = source.file := by
  rcases List.mem_append.mp ht with ht | ht
  · exact (((Token.Stream.partition_ofSource_iff hlen).mpr rfl).file_eq t ht).1
  · rw [List.mem_singleton.mp ht]
    rfl

theorem exists_isAbout_of_mem_errors_parse {source : Source} {e : ParseError}
    (he : e ∈ (parse config source).2.errors.toList) :
    source.text ≠ "" ∧ ∃ t ∈ tokenize source, e.IsAbout t := by
  obtain ⟨ms, herrs, -, hbetween, hend⟩ :=
    Grammar.exists_marks_turns (T := .ofSource source) (a := 0)
      (s := (Token.Stream.ofSource source).begin) config (Token.Stream.ofSource source).ahead.length
      rfl (fun x hx => Token.Stream.lexed_of_mem_ofSource hx)
  rw [errors_parse_eq] at he
  obtain ⟨m, hm, rfl⟩ := List.mem_map.mp (herrs ▸ he)
  refine ⟨?_, _, Token.Stream.get_mem_tokenize (hbetween m hm).le_length, (hbetween m hm).isAbout⟩
  intro hempty
  have hpos := Token.Stream.lt_length_of_kind_get_ne (hend (List.ne_nil_of_mem hm))
  have hnil : (Token.pieces source.text.toList).1 = [] := by
    rw [hempty, Token.pieces_of_read?_eq_none rfl]
  simp [Token.Stream.ahead_ofSource, hnil] at hpos

/-- The errors that name a token, by where it starts. -/
def ParseError.naming (t : Token) (errs : List ParseError) : List ParseError :=
  errs.filter fun e => e.position = t.span.start

theorem ParseError.naming_map_error {source : Source} {ms : List Mark} {i : Nat}
    (hlen : Text.byteLength source.text.toList ≤ Position.maxOffset)
    (hms : ∀ m ∈ ms, m.Between (.ofSource source) a b)
    (hi : i ≤ (Token.Stream.ofSource source).ahead.length) :
    naming ((Token.Stream.ofSource source).get i) (ms.map Mark.error) =
      (ms.filter fun m => m.place = i).map Mark.error := by
  rw [naming, List.filter_map]
  refine congrArg _ (List.filter_congr fun m hm => decide_eq_decide.mpr ?_)
  rw [(hms m hm).isAbout.position_eq]
  constructor
  · exact Token.Stream.eq_of_start_get_eq hlen (hms m hm).le_length hi
  · rintro rfl
    rfl

/-- **Errors stand at tokens, in the order of the source, and at most twice at one.** -/
theorem isAbout_of_mem_errors_parse (config : Config) (source : Source)
    (hlen : Text.byteLength source.text.toList ≤ Position.maxOffset) :
    (∀ e ∈ (parse config source).2.errors.toList,
      e.position.file = source.file ∧ ∃ t ∈ tokenize source, e.IsAbout t ∧
        ∀ u ∈ tokenize source, e.position = u.span.start → u = t) ∧
    ((parse config source).2.errors.toList.Pairwise fun e f =>
      e.position.offset ≤ f.position.offset) ∧
    ∀ t ∈ tokenize source,
      let named := ParseError.naming t (parse config source).2.errors.toList
      named.length ≤ 2 ∧ (named.length = 2 → named.map ParseError.isRefusal = [false, true]) ∧
        (t.kind = .endOfInput → named.length ≤ 1) := by
  obtain ⟨ms, herrs, hordered, hbetween, -⟩ :=
    Grammar.exists_marks_turns (T := .ofSource source) (a := 0)
      (s := (Token.Stream.ofSource source).begin) config (Token.Stream.ofSource source).ahead.length
      rfl (fun x hx => Token.Stream.lexed_of_mem_ofSource hx)
  have herrors : (parse config source).2.errors.toList = ms.map Mark.error := by
    rw [errors_parse_eq]
    exact herrs
  have hposition : ∀ m ∈ ms,
      m.error.position = ((Token.Stream.ofSource source).get m.place).span.start := fun m hm =>
    (hbetween m hm).isAbout.position_eq
  rw [herrors]
  refine ⟨List.forall_mem_map.mpr fun m hm => ?_, List.pairwise_map.mpr ?_, fun t ht => ?_⟩
  · have hle := (hbetween m hm).le_length
    have hmem := Token.Stream.get_mem_tokenize hle
    refine ⟨?_, _, hmem, (hbetween m hm).isAbout, fun u hu hstart => ?_⟩
    · rw [hposition m hm]
      exact file_start_of_mem_tokenize hlen hmem
    · obtain ⟨i, hi, rfl⟩ := Token.Stream.exists_get_of_mem_tokenize hu
      rw [hposition m hm] at hstart
      rw [Token.Stream.eq_of_start_get_eq hlen hle hi hstart]
  · refine hordered.imp_of_mem fun {m m'} hm hm' hbefore => ?_
    rw [hposition m hm, hposition m' hm']
    rcases hbefore with hlt | ⟨heq, -⟩
    · exact (Token.Stream.startsBefore_get hlen hlt (hbetween m' hm').le_length).le
    · rw [heq]
  · obtain ⟨i, hi, rfl⟩ := Token.Stream.exists_get_of_mem_tokenize ht
    simp only [ParseError.naming_map_error hlen hbetween hi, List.length_map, List.map_map]
    exact Mark.length_of_pairwise (hordered.filter fun m => m.place = i)
      fun m hm => by simpa using (List.mem_filter.mp hm).2

/-- A source in which a token is named twice, as no name and as no start of an expression, and the
end of the input once. -/
def namedTwice : Source :=
  .ofText "let )\nlet x" none

/-- Two errors at the parenthesis, and one at the end. -/
theorem naming_namedTwice :
    Text.byteLength namedTwice.text.toList ≤ Position.maxOffset ∧
      (parse {} namedTwice).2.errors.toList.map (·.position.offset) = [4, 4, 11] ∧
      ∃ t ∈ tokenize namedTwice, t.span = .between 4 5 "shell" ∧
        (ParseError.naming t (parse {} namedTwice).2.errors.toList).map ParseError.isRefusal =
          [false, true] := by
  have hlen : Text.byteLength namedTwice.text.toList ≤ Position.maxOffset := by decide +kernel
  have hmem : (Token.Stream.ofSource namedTwice).get 1 ∈ tokenize namedTwice := by decide +kernel
  refine ⟨hlen, by decide +kernel, _, hmem, by decide +kernel, ?_⟩
  exact ((isAbout_of_mem_errors_parse {} namedTwice hlen).2.2 _ hmem).2.1 (by decide +kernel)

end PrattFrontend
