import PrattFrontend.Proofs.Expression.Unbounded
import PrattFrontend.Proofs.Language.Acceptance
import PrattFrontend.Proofs.Statement.Recovery
import PrattFrontend.Proofs.Token.Offsets

/-!
# What a log tells

The log of a run says which tokens were taken from the source, and which statements were started and
which errors recorded, in the order in which that was done. No token is taken twice, and behind the
last of the source the end of the input is asked for only as often as two tokens in sight need it,
and once more if a statement ends there.

* `Event.only`: the events of one level;
* **`Event.Tells`**: a row of events tells of a number of tokens and of notes;
* **`State.Reaches`**: one state is reached from another, and the log tells how;
* `Grammar.Grows.reaches`, `Grammar.Values.reaches`, `Grammar.Performs.reaches`;
* `Turn.events`, `Grammar.Plain.exists_tells_statements`: turns and whole runs;
* `exists_tells_parse`, **`log_parse`**: sources.
-/

namespace PrattFrontend

open Grammar (standard standard_plain)

variable {config : Config} {s t u : State} {T : Token.Stream} {m n : Nat}
  {evs evs' notes notes' : List Event}

/-! ## Events by their levels -/

namespace Event

/-- The events of one level. -/
def only (level : Level) (evs : List Event) : List Event :=
  evs.filter fun e => e.level = level

@[simp] theorem only_nil (level : Level) : only level [] = [] := rfl

@[simp] theorem only_append (level : Level) (evs evs' : List Event) :
    only level (evs ++ evs') = only level evs ++ only level evs' :=
  List.filter_append evs evs'

@[simp] theorem only_cons (level : Level) (e : Event) (evs : List Event) :
    only level (e :: evs) = if e.level = level then e :: only level evs else only level evs := by
  rw [only, List.filter_cons]
  simp [only]

theorem within_trace (evs : List Event) : within .trace evs = evs := by
  refine List.filter_eq_self.mpr fun e _ => ?_
  cases e <;> rfl

/-- **A row of events tells** of a number of tokens and of notes, if its events are that as many
tokens were taken from a stream, of which two had been taken before, and at the level below the
notes. -/
structure Tells (T : Token.Stream) (n : Nat) (notes evs : List Event) : Prop where
  trace : only .trace evs = (List.range n).map fun i => .taken T (i + 2)
  debug : only .debug evs = notes
  info : only .info evs = []

theorem tells_nil (T : Token.Stream) : Tells T 0 [] [] :=
  ⟨rfl, rfl, rfl⟩

theorem taken_drop (T : Token.Stream) (n i : Nat) : taken (T.drop n) i = taken T (n + i) := by
  rw [taken, taken, Token.Stream.get_drop, Token.Stream.startByte_drop]

theorem tells_taken (T : Token.Stream) : Tells T 1 [] [.taken T 2] :=
  ⟨by simp, by simp, by simp⟩

theorem tells_recorded (T : Token.Stream) (e : ParseError) :
    Tells T 0 [.recorded e] [.recorded e] :=
  ⟨by simp, by simp, by simp⟩

theorem tells_statement (T : Token.Stream) (k : Token.Kind) :
    Tells T 0 [.statement k] [.statement k] :=
  ⟨by simp, by simp, by simp⟩

theorem Tells.append (h : Tells T m notes evs) (h' : Tells (T.drop m) n notes' evs') :
    Tells T (m + n) (notes ++ notes') (evs ++ evs') where
  trace := by
    rw [only_append, h.trace, h'.trace, List.range_add, List.map_append, List.map_map]
    simp only [taken_drop, Function.comp_def, Nat.add_assoc]
  debug := by rw [only_append, h.debug, h'.debug]
  info := by rw [only_append, h.info, h'.info, List.append_nil]

end Event

/-! ## States and their logs -/

/-- **One state is reached from another** by passing tokens, none of them behind the end of the
input, and recording errors, and the log tells of just that. -/
def State.Reaches (s t : State) : Prop :=
  ∃ n errs evs, n ≤ s.tokensLeft ∧ t.tokens = s.tokens.drop n ∧
    t.errors.toList = s.errors.toList ++ errs ∧ t.log.toList = s.log.toList ++ evs ∧
    Event.Tells s.tokens n (errs.map .recorded) evs

namespace State.Reaches

theorem refl (s : State) : s.Reaches s :=
  ⟨0, [], [], Nat.zero_le _, rfl, by simp, by simp, Event.tells_nil _⟩

theorem trans (h : s.Reaches t) (h' : t.Reaches u) : s.Reaches u := by
  obtain ⟨m, errs, evs, hm, ht, herrs, hevs, htells⟩ := h
  obtain ⟨n, errs', evs', hn, hu, herrs', hevs', htells'⟩ := h'
  rw [ht] at htells'
  refine ⟨m + n, errs ++ errs', evs ++ evs', ?_, ?_, ?_, ?_, ?_⟩
  · rw [tokensLeft, ht, Token.Stream.ahead_drop, List.length_drop] at hn
    unfold tokensLeft at hm ⊢
    omega
  · rw [hu, ht, Token.Stream.drop_drop]
  · rw [herrs', herrs, List.append_assoc]
  · rw [hevs', hevs, List.append_assoc]
  · rw [List.map_append]
    exact htells.append htells'

theorem advance (h : 0 < s.tokensLeft) : s.Reaches s.advance :=
  ⟨1, [], _, h, rfl, by simp, by simp, Event.tells_taken _⟩

theorem record (s : State) (e : ParseError) : s.Reaches (s.record e) :=
  ⟨0, [e], _, Nat.zero_le _, rfl, by simp, by simp, Event.tells_recorded _ e⟩

theorem passSemicolon (s : State) : s.Reaches s.passSemicolon := by
  unfold State.passSemicolon
  split
  · next h => exact advance (by have := one_lt_tokensLeft (s := s) (by simp [h]); omega)
  · exact refl s

theorem skipToSemicolon (s : State) : s.Reaches s.skipToSemicolon := by
  have h : s.Skips s.skipToSemicolon := State.skips_iff.mpr rfl
  generalize s.skipToSemicolon = t at h
  induction h with
  | stop => exact refl _
  | go h _ ih => exact (advance (tokensLeft_pos (not_or.mp h).2)).trans ih

theorem recover (config : Config) (s : State) : s.Reaches (Grammar.recover config s) := by
  unfold Grammar.recover
  split
  · exact refl s
  · exact skipToSemicolon s

end State.Reaches

namespace Grammar

variable {g : Grammar} {p : Power} {e : Expr}

section

variable (hg : g.Plain)
include hg

theorem Plain.reaches_advance_advance {op : Operator} (h : g.nextOperator? p s = some op) :
    s.Reaches s.advance.advance := by
  have hlt := hg.one_lt_tokensLeft h
  refine (State.Reaches.advance (by omega)).trans (.advance ?_)
  rw [State.tokensLeft_advance]
  omega

/-- **The log tells how an expression grew.** -/
theorem Grows.reaches (h : g.Grows p s e t) : s.Reaches t := by
  induction h with
  | identifier => exact .refl _
  | integer => exact .refl _
  | unary h _ _ ih => exact (State.Reaches.advance (hg.tokensLeft_pos h)).trans ih
  | unaryHole h => exact (State.Reaches.advance (hg.tokensLeft_pos h)).trans (.record _ _)
  | binary _ hop _ _ ihl ih => exact (ihl.trans (hg.reaches_advance_advance hop)).trans ih
  | binaryHole _ hop _ ihl =>
    exact (ihl.trans (hg.reaches_advance_advance hop)).trans (.record _ _)

theorem Values.reaches {v : Option Expr} (h : g.Values config s v t) (hs : 0 < s.tokensLeft) :
    s.Reaches t := by
  cases h with
  | skipped => exact .skipToSemicolon s
  | read _ h => exact ((State.Reaches.advance hs).trans (h.1.reaches hg)).trans (.passSemicolon _)
  | refused => exact ((State.Reaches.advance hs).trans (.record _ _)).trans (.skipToSemicolon _)

/-- **The log tells how a statement was parsed.** -/
theorem Performs.reaches {st : Option Statement} (h : g.Performs config s st t)
    (hs : 0 < s.tokensLeft) : s.Reaches t := by
  have hadv := State.Reaches.advance hs
  cases h with
  | letNoName => exact (State.Reaches.record s _).trans (.recover config _)
  | letNoSign => exact (hadv.trans (.record _ _)).trans (.recover config _)
  | letValue _ hn ha h =>
    have hname := State.one_lt_tokensLeft (s := s) (by simp [hn])
    have hsign := State.one_lt_tokensLeft (s := s.advance) (by simp [ha])
    refine (hadv.trans (.advance (by omega))).trans (h.reaches hg ?_)
    rw [State.tokensLeft_advance]
    omega
  | returnNothing => exact hadv
  | returnValue _ _ h => exact h.reaches hg hs
  | expression _ h => exact (h.1.reaches hg).trans (.passSemicolon _)
  | expressionHole => exact (State.Reaches.record s _).trans (.passSemicolon _)

end

end Grammar

/-! ## Whole runs -/

/-- What is noted in a turn: that a statement is started, and the errors. -/
def Turn.events (turn : Turn) : List Event :=
  .statement turn.start.current.kind :: turn.errors.map .recorded

namespace Grammar

variable {g : Grammar}

/-- **The log of a turn**, up to the token where the next one starts. -/
theorem Performs.exists_tells {st : Option Statement} (hg : g.Plain)
    (h : g.Performs config (s.note (.statement s.current.kind)) st t) (hs : 0 < s.tokensLeft) :
    ∃ m evs, m ≤ s.tokensLeft ∧ t.advance.tokens = s.tokens.drop (m + 1) ∧
      t.advance.log.toList = s.log.toList ++ evs ∧
      Event.Tells s.tokens (m + 1) (Turn.events ⟨s, st, t⟩) evs := by
  obtain ⟨m, errs, evs, hm, ht, herrs, hevs, htells⟩ := h.reaches hg hs
  rw [State.tokens_note] at ht htells
  have hlast := Event.tells_taken t.tokens
  rw [ht] at hlast
  have hturn : Turn.errors ⟨s, st, t⟩ = errs := Turn.errors_eq herrs
  have hall := (Event.tells_statement s.tokens s.current.kind).append (htells.append hlast)
  rw [Nat.zero_add, List.append_nil] at hall
  have hlog : t.advance.log.toList = s.log.toList ++
      ([.statement s.current.kind] ++ (evs ++ [.taken (s.tokens.drop m) 2])) := by
    rw [State.log_advance, Array.toList_push, hevs, State.log_note, Array.toList_push, ht,
      List.append_assoc, List.append_assoc]
  rw [Turn.events, hturn]
  exact ⟨m, _, hm, State.tokens_advance_of_tokens_eq ht, hlog, hall⟩

/-- **The log of a run**, turn by turn, up to the end of the input. -/
theorem Plain.exists_tells_statements (hg : g.Plain) (config : Config) (n : Nat)
    (hn : s.tokensLeft ≤ n) (hs : s.Lexed) :
    ∃ k evs, (k = s.tokensLeft ∨ 0 < s.tokensLeft ∧ k = s.tokensLeft + 1) ∧
      (g.statements config n s).2.log.toList = s.log.toList ++ evs ∧
      Event.Tells s.tokens k ((g.turns config n s).flatMap Turn.events) evs := by
  induction n generalizing s with
  | zero => exact ⟨0, [], .inl (by omega), by simp [statements], Event.tells_nil _⟩
  | succ n ih =>
    by_cases hk : s.current.kind = .endOfInput
    · have hleft : s.tokensLeft = 0 := by
        rw [State.tokensLeft, State.ahead_eq_nil hs hk, List.length_nil]
      refine ⟨0, [], .inl hleft.symm, by simp [statements, hk], ?_⟩
      rw [turns, if_pos hk]
      exact Event.tells_nil _
    · obtain ⟨st, t, hst, hturns, hstate⟩ := hg.turns_succ config n hk
      have hpos := State.tokensLeft_pos hk
      obtain ⟨m, evs, hm, ht, hevs, htells⟩ := hst.exists_tells hg hpos
      have hleft : t.advance.tokensLeft = s.tokensLeft - (m + 1) := by
        rw [State.tokensLeft, ht, Token.Stream.ahead_drop, List.length_drop]
        rfl
      have hprec : s.Precedes t.advance :=
        ((State.Precedes.note s _).trans hst.precedes).trans (.advance t)
      -- a statement that has passed all tokens leaves none, so only the last turn goes past the end
      obtain ⟨k, evs', hcount, hevs', htells'⟩ := ih (by omega) (hprec.lexed hs)
      rw [ht] at htells'
      refine ⟨m + 1 + k, evs ++ evs', by omega, ?_, ?_⟩
      · rw [hstate, hevs', hevs, List.append_assoc]
      · rw [hturns, List.flatMap_cons]
        exact htells.append htells'

end Grammar

/-! ## Sources -/

theorem Turn.length_eq_of_settled {turns : List Turn} (hsettled : ∀ turn ∈ turns, turn.Settled) :
    turns.length = (turns.filterMap Turn.statement).length +
      (turns.flatMap Turn.errors).countP (fun e => !e.isRefusal) := by
  induction turns with
  | nil => rfl
  | cons turn turns ih =>
    obtain ⟨hturn, hturns⟩ := List.forall_mem_cons.mp hsettled
    rw [List.length_cons, List.flatMap_cons, List.countP_append, ih hturns]
    cases hturn with
    | given hst herrs =>
      obtain ⟨st, hst⟩ := Option.ne_none_iff_exists'.mp hst
      have hzero : turn.errors.countP (fun e => !e.isRefusal) = 0 :=
        List.countP_eq_zero.mpr fun e he => by simp [herrs e he]
      rw [List.filterMap_cons_some hst, List.length_cons, hzero]
      omega
    | failed hst herrs he =>
      rw [List.filterMap_cons_none hst, herrs, List.countP_singleton, he]
      simp only [Bool.not_false, if_true]
      omega

/-- Whether an event is that an error is recorded. -/
def Event.isRecorded : Event → Bool
  | recorded _ => true
  | _ => false

/-- Whether an event is that a statement is started. -/
def Event.isStatement : Event → Bool
  | statement _ => true
  | _ => false

theorem Turn.filter_isRecorded_events (turns : List Turn) :
    (turns.flatMap Turn.events).filter Event.isRecorded =
      (turns.flatMap Turn.errors).map .recorded := by
  induction turns with
  | nil => rfl
  | cons turn turns ih =>
    have hturn : turn.events.filter Event.isRecorded = turn.errors.map .recorded := by
      rw [Turn.events, List.filter_cons_of_neg (by simp [Event.isRecorded])]
      exact List.filter_eq_self.mpr (List.forall_mem_map.mpr fun _ _ => rfl)
    rw [List.flatMap_cons, List.filter_append, ih, hturn, List.flatMap_cons, List.map_append]

theorem Turn.countP_isStatement_events (turns : List Turn) :
    (turns.flatMap Turn.events).countP Event.isStatement = turns.length := by
  induction turns with
  | nil => rfl
  | cons turn turns ih =>
    have hturn : turn.events.countP Event.isStatement = 1 := by
      rw [Turn.events, List.countP_cons_of_pos rfl, List.countP_map]
      exact congrArg (· + 1) (List.countP_eq_zero.mpr fun _ _ => nofun)
    rw [List.flatMap_cons, List.countP_append, ih, hturn, List.length_cons, Nat.add_comm]

theorem Token.Stream.map_taken_range (T : Token.Stream) (n : Nat) :
    (List.range (T.ahead.length + 1 + n)).map (fun i => (T.get i, T.startByte i)) =
      T.rows ++ List.replicate n (endAt T.stop, T.stopByte) := by
  have hlen : T.ahead.length = T.entries.length := List.length_map _
  have hrows : T.rows ++ List.replicate n (endAt T.stop, T.stopByte) =
      T.entries ++ List.replicate (n + 1) (endAt T.stop, T.stopByte) := by
    rw [rows, List.append_assoc]
    rfl
  rw [hrows]
  refine List.ext_getElem (by simp [hlen, Nat.add_comm, Nat.add_left_comm]) fun i hi hi' => ?_
  rw [List.getElem_map, List.getElem_range]
  rcases Nat.lt_or_ge i T.entries.length with hlt | hge
  · rw [List.getElem_append_left hlt, get_of_lt (hlen ▸ hlt), startByte,
      List.getElem?_eq_getElem hlt]
    simp [ahead]
  · rw [List.getElem_append_right hge, List.getElem_replicate, get_of_length_le (hlen ▸ hge),
      startByte, List.getElem?_eq_none hge]
    rfl

/-- **The log of a source**, with a record before its turns and one behind them. -/
theorem exists_tells_parse (config : Config) (source : Source) :
    let T := Token.Stream.ofSource source
    ∃ k evs, (k = T.ahead.length ∨ 0 < T.ahead.length ∧ k = T.ahead.length + 1) ∧
      (parse config source).2.log.toList =
        [.taken T 0, .taken T 1, .started source.file] ++ evs ++
          [.finished (parse config source).1.statements.length
            (parse config source).2.errors.toList.length] ∧
      Event.Tells T k ((parseTurns config source).flatMap Turn.events) evs := by
  intro T
  have hT : T.begin.Lexed := fun x hx => Token.Stream.lexed_of_mem_ofSource hx
  obtain ⟨k, evs, hk, hevs, htells⟩ :=
    standard_plain.exists_tells_statements config T.ahead.length (Nat.le_refl _) hT
  have hfinished : (parse config source).2.log.toList =
      (standard.statements config T.ahead.length T.begin).2.log.toList ++
        [.finished (parse config source).1.statements.length
          (parse config source).2.errors.size] :=
    Array.toList_push
  rw [← Array.length_toList, hevs] at hfinished
  exact ⟨k, evs, hk, hfinished, htells⟩

theorem Turn.map_message_events (turns : List Turn) :
    (turns.flatMap Turn.events).map (fun e => (e.level.name, e.message)) =
      turns.flatMap fun turn =>
        ("DEBUG", "parsing statement starting with " ++ turn.start.current.kind.name) ::
          turn.errors.map fun e => ("DEBUG", "recorded parse error: " ++ e.message) := by
  rw [List.map_flatMap]
  refine congrArg (turns.flatMap ·) (funext fun turn => ?_)
  rw [Turn.events, List.map_cons, List.map_map]
  rfl

/-- **The log replays the parse**, record by record. -/
theorem log_parse (config : Config) (source : Source) :
    let T := Token.Stream.ofSource source
    let log := Event.within .trace (parse config source).2.log.toList
    let records (level : Event.Level) :=
      (Event.only level log).map fun e => (e.level.name, e.message)
    let statements := (parse config source).1.statements
    let errors := (parse config source).2.errors.toList
    -- where the tokens start
    (T.rows.map Prod.fst = tokenize source ∧ (∀ r ∈ T.rows, r.1.StartsAt source r.2) ∧
      T.rows.Pairwise fun r r' => r.2 < r'.2) ∧
    -- the tokens
    (∃ n, (n = 1 ∨ n = 2) ∧ records .trace =
      (T.rows ++ List.replicate n (Token.endAt T.stop, Text.byteLength source.text.toList)).map
        fun r => ("TRACE", "lexed " ++ r.1.kind.name ++ " " ++ Text.quoted r.1.literal ++ " at " ++
          toString r.2)) ∧
    -- the statements that are started and the errors that are recorded, turn by turn
    (records .debug = (parseTurns config source).flatMap fun turn =>
      ("DEBUG", "parsing statement starting with " ++ turn.start.current.kind.name) ::
        turn.errors.map fun e => ("DEBUG", "recorded parse error: " ++ e.message)) ∧
    ((Event.only .debug log).filter Event.isRecorded).map Event.message =
      errors.map (fun e => "recorded parse error: " ++ e.message) ∧
    (Event.only .debug log).countP Event.isStatement =
      statements.length + errors.countP (fun e => !e.isRefusal) ∧
    -- the start and the end of the run
    records .info =
      [("INFO", "parsing " ++ source.file),
        ("INFO", "parsed " ++ toString statements.length ++ " statements with " ++
          toString errors.length ++ " errors")] := by
  intro T log records statements errors
  obtain ⟨k, evs, (hk : k = T.ahead.length ∨ 0 < T.ahead.length ∧ k = T.ahead.length + 1), hlog,
    htells⟩ := exists_tells_parse config source
  replace hlog : log = _ := (Event.within_trace _).trans hlog
  have htrace : Event.only .trace log = (List.range (2 + k)).map (Event.taken T) := by
    rw [List.range_add, hlog]
    simp [htells.trace, List.range_succ, Nat.add_comm, T]
  have hdebug : Event.only .debug log = (parseTurns config source).flatMap Turn.events := by
    simp [hlog, htells.debug]
  have hinfo : Event.only .info log =
      [.started source.file, .finished statements.length errors.length] := by
    simp [hlog, htells.info, statements, errors]
  have hsettled : ∀ turn ∈ parseTurns config source, turn.Settled :=
    Grammar.settled_of_mem_turns config _ _
  have hstatements : statements = (parseTurns config source).filterMap Turn.statement :=
    statements_parse_eq config source
  have herrors : errors = (parseTurns config source).flatMap Turn.errors :=
    errors_parse_eq config source
  obtain ⟨n, hn⟩ : ∃ n, 2 + k = T.ahead.length + 1 + n := ⟨k + 1 - T.ahead.length, by omega⟩
  refine ⟨⟨T.map_fst_rows, fun r hr => Token.Stream.startsAt_of_mem_rows hr,
    Token.Stream.pairwise_rows source⟩, ⟨n, by omega, ?_⟩, ?_, ?_, ?_, ?_⟩
  · have hrows := T.map_taken_range n
    rw [← hn] at hrows
    change _ = (T.rows ++ List.replicate n (Token.endAt T.stop, T.stopByte)).map _
    rw [← hrows, List.map_map]
    simp only [records, htrace, List.map_map]
    rfl
  · simp only [records, hdebug, Turn.map_message_events]
  · rw [hdebug, Turn.filter_isRecorded_events, List.map_map, ← herrors]
    rfl
  · rw [hdebug, Turn.countP_isStatement_events, hstatements, herrors,
      Turn.length_eq_of_settled hsettled]
  · simp only [records, hinfo]
    rfl

/-- The end of the input is taken twice or three times in all. -/
example : ["a", "let a ="].map (fun text =>
    (Event.only .trace (parse {} (.ofText text none)).2.log.toList).length) = [1 + 2, 3 + 3] := by
  decide +kernel

end PrattFrontend
