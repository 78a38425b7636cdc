import PrattFrontend.Parser.Session
import PrattFrontend.Proofs.Parser.Orderly
import PrattFrontend.Proofs.Parser.StandardRules
import PrattFrontend.Proofs.Statement.Outcomes
import PrattFrontend.Proofs.Token.Lexing

/-!
# What holds at any time in a session

A parser may be asked for anything, in any order, and wherever it stands. As long as it has no rules
but the standard ones, it never goes back, forgets no error, and records no error that it hands
back.

* `Grammar.Plain.withPrefix` and its like: tables with the standard rules only;
* `Operation.Own`: operations that use no rules but the standard ones;
* `Session.Valid`: what such operations keep of the tables; `Session.after_standardOperations`: how
  the tables are filled;
* **`Operation.orderly_run`**: one operation; `Session.Valid.precedes_after`: a row of them;
* **`Session.exists_places_after`**: sessions with a source.
-/

namespace PrattFrontend

variable {α : Type} {σ : Session}

/-! ## Tables -/

namespace Grammar

variable {g : Grammar}

theorem Plain.orderly_expression (hg : g.Plain) (p : Power) (s : State) :
    s.Orderly (g.expression p s) := by
  have h := hg.answers_expression p s
  generalize g.expression p s = o at h
  cases h with
  | read h => exact State.orderly_ok h.1.precedes
  | refused => exact State.orderly_error s _

theorem Plain.program_precedes (hg : g.Plain) (config : Config) (s : State) :
    s.Precedes (g.program config s).2 :=
  ((State.Precedes.note s _).trans (hg.statements_precedes config _ _)).trans (.note _ _)

theorem Plain.withPrefix (hg : g.Plain) {kind : Token.Kind} {rule : PrefixRule}
    (hrule : rule = Rule.identifier ∨ rule = Rule.integer ∨ rule = Rule.unary)
    (hend : kind = .endOfInput → rule ≠ Rule.unary) : (g.withPrefix kind rule).Plain where
  prefixRule {k r} h := by
    rw [prefixRule?_withPrefix] at h
    split at h
    · exact Option.some.inj h ▸ hrule
    · exact hg.prefixRule h
  operator := hg.operator
  statementRule := hg.statementRule
  unary_endOfInput h := by
    rw [prefixRule?_withPrefix] at h
    split at h
    · next hk => exact hend hk.symm (Option.some.inj h)
    · exact hg.unary_endOfInput h
  operator_endOfInput := hg.operator_endOfInput

theorem Plain.withOperator (hg : g.Plain) {kind : Token.Kind} (hend : kind ≠ .endOfInput)
    (power : Power) : (g.withOperator kind power Rule.binary).Plain where
  prefixRule := hg.prefixRule
  operator {k op} h := by
    rw [operator?_withOperator] at h
    split at h
    · exact Option.some.inj h ▸ rfl
    · exact hg.operator h
  statementRule := hg.statementRule
  unary_endOfInput := hg.unary_endOfInput
  operator_endOfInput := by
    rw [operator?_withOperator, if_neg hend.symm, hg.operator_endOfInput]

theorem Plain.withStatement (hg : g.Plain) (kind : Token.Kind) {rule : StatementRule}
    (hrule : rule = Rule.letStatement ∨ rule = Rule.returnStatement ∨
      rule = Rule.expressionStatement) : (g.withStatement kind rule).Plain where
  prefixRule := hg.prefixRule
  operator := hg.operator
  statementRule {k r} h := by
    rw [statementRule?_withStatement] at h
    split at h
    · exact Option.some.inj h ▸ hrule
    · exact hg.statementRule h
  unary_endOfInput := hg.unary_endOfInput
  operator_endOfInput := hg.operator_endOfInput

end Grammar

/-! ## Operations -/

/-- **Operations of its own** are those that put no rules into the tables of a parser but the
standard ones, and none of them that asks for an operand at the end of the input. -/
def Operation.Own : Operation → Prop
  | withPrefix kind rule =>
    (rule = Rule.identifier ∨ rule = Rule.integer ∨ rule = Rule.unary) ∧
      (kind = .endOfInput → rule ≠ Rule.unary)
  | withOperator kind _ rule => rule = Rule.binary ∧ kind ≠ .endOfInput
  | withStatement _ rule =>
    rule = Rule.letStatement ∨ rule = Rule.returnStatement ∨ rule = Rule.expressionStatement
  | _ => True

/-- A session is **valid** if its grammar has the standard rules only, with a power for each
operator that has a rule. -/
structure Session.Valid (σ : Session) : Prop where
  plain : σ.grammar.Plain
  paired : σ.grammar.Paired

theorem Session.valid_start (config : Config) (tokens : Token.Stream) :
    (start config tokens).Valid :=
  ⟨Grammar.standard_plain, Grammar.paired_standard⟩

/-- The operations that put the standard rules into tables. -/
def standardOperations : List Operation :=
  [.withOperator .equal .equality Rule.binary, .withOperator .notEqual .equality Rule.binary,
    .withOperator .lessThan .comparison Rule.binary,
    .withOperator .greaterThan .comparison Rule.binary, .withOperator .plus .sum Rule.binary,
    .withOperator .minus .sum Rule.binary, .withOperator .asterisk .product Rule.binary,
    .withOperator .slash .product Rule.binary, .withPrefix .identifier Rule.identifier,
    .withPrefix .integer Rule.integer, .withPrefix .bang Rule.unary, .withPrefix .minus Rule.unary,
    .withStatement .letWord Rule.letStatement, .withStatement .returnWord Rule.returnStatement]

/-- **A parser starts with the tables that these operations make of empty ones.** -/
theorem Session.after_standardOperations (config : Config) (tokens : Token.Stream) :
    Session.after ⟨{}, config, .start tokens⟩ standardOperations = start config tokens := by
  have hgrammar : (Session.after ⟨{}, config, .start tokens⟩ standardOperations).grammar =
      Grammar.standard := by
    change Grammar.mk _ _ _ _ = Grammar.mk _ _ _ _
    rw [Grammar.mk.injEq]
    refine ⟨funext fun k => ?_, funext fun k => ?_, funext fun k => ?_, funext fun k => ?_⟩
    all_goals cases k <;> rfl
  exact congrArg (Session.mk · config (.start tokens)) hgrammar

namespace Operation

theorem orderly_reach {answer : α → Answer} {o : Outcome α} (h : σ.state.Orderly o) :
    σ.state.Orderly ((reach σ answer o).1, (reach σ answer o).2.state) := by
  obtain ⟨r, t⟩ := o
  cases r with
  | ok a => exact State.orderly_ok h.precedes
  | error e => exact ⟨h.precedes, fun _ _ => h.errors_eq e rfl⟩

theorem run_expectNext_of_eq {kind : Token.Kind} (h : σ.state.next.kind = kind) :
    (expectNext kind).run σ = (.ok .done, { σ with state := σ.state.advance }) := by
  simp only [run, State.expectNext, if_pos h]

theorem run_expectNext_of_ne {kind : Token.Kind} (h : σ.state.next.kind ≠ kind) :
    (expectNext kind).run σ =
      (.error ⟨.unexpectedToken kind σ.state.next.kind, σ.state.next.span.start⟩, σ) := by
  simp only [run, State.expectNext, if_neg h]

theorem valid_run (hσ : σ.Valid) {op : Operation} (hop : op.Own) : (op.run σ).2.Valid := by
  cases op with
  | withPrefix kind rule => exact ⟨hσ.plain.withPrefix hop.1 hop.2, hσ.paired⟩
  | withOperator kind power rule =>
    obtain ⟨rfl, hend⟩ := hop
    exact ⟨hσ.plain.withOperator hend power, hσ.paired.withOperator kind power _⟩
  | withStatement kind rule => exact ⟨hσ.plain.withStatement kind hop, hσ.paired⟩
  | expectNext kind =>
    by_cases h : σ.state.next.kind = kind
    · rw [run_expectNext_of_eq h]
      exact ⟨hσ.plain, hσ.paired⟩
    · rw [run_expectNext_of_ne h]
      exact hσ
  | _ => exact ⟨hσ.plain, hσ.paired⟩

/-- **What a parser does when it is asked for something is orderly.** -/
theorem orderly_run (hσ : σ.Valid) (op : Operation) :
    σ.state.Orderly ((op.run σ).1, (op.run σ).2.state) := by
  have hexpr : ∀ (p : Power) (s : State), s.Precedes (σ.grammar.expression p s).2 :=
    fun p s => (hσ.plain.orderly_expression p s).precedes
  cases op with
  | advance => exact State.orderly_ok (.advance _)
  | expectNext kind =>
    by_cases h : σ.state.next.kind = kind
    · rw [run_expectNext_of_eq h]
      exact State.orderly_ok (.advance _)
    · rw [run_expectNext_of_ne h]
      exact State.orderly_error _ _
  | skipToSemicolon => exact State.orderly_ok (.skipToSemicolon _)
  | record e => exact State.orderly_ok (.record _ e)
  | expression power => exact orderly_reach (hσ.plain.orderly_expression power _)
  | identifier => exact orderly_reach (Rule.orderly_identifier _ _)
  | integer => exact orderly_reach (Rule.orderly_integer _ _)
  | unary => exact orderly_reach (Rule.orderly_unary hexpr _)
  | binary left power => exact orderly_reach (Rule.orderly_binary hexpr left power _)
  | statement => exact State.orderly_ok (hσ.plain.statement_precedes _ _)
  | letStatement => exact orderly_reach (Rule.orderly_letStatement hexpr _ _)
  | returnStatement => exact orderly_reach (Rule.orderly_returnStatement hexpr _ _)
  | expressionStatement => exact orderly_reach (Rule.orderly_expressionStatement hexpr _ _)
  | program => exact State.orderly_ok (hσ.plain.program_precedes _ _)
  | withPrefix => exact State.orderly_ok (.refl _)
  | withOperator => exact State.orderly_ok (.refl _)
  | withStatement => exact State.orderly_ok (.refl _)

end Operation

/-! ## Sessions -/

namespace Session

variable {ops : List Operation}

theorem after_append (σ : Session) (ops ops' : List Operation) :
    σ.after (ops ++ ops') = (σ.after ops).after ops' :=
  List.foldl_append

theorem Valid.after (hσ : σ.Valid) (hops : ∀ op ∈ ops, op.Own) : (σ.after ops).Valid := by
  induction ops generalizing σ with
  | nil => exact hσ
  | cons op ops ih =>
    obtain ⟨hop, hrest⟩ := List.forall_mem_cons.mp hops
    exact ih (Operation.valid_run hσ hop) hrest

/-- **A parser does not go back**, whatever it is asked for. -/
theorem Valid.precedes_after (hσ : σ.Valid) (hops : ∀ op ∈ ops, op.Own) :
    σ.state.Precedes (σ.after ops).state := by
  induction ops generalizing σ with
  | nil => exact .refl _
  | cons op ops ih =>
    obtain ⟨hop, hrest⟩ := List.forall_mem_cons.mp hops
    exact (Operation.orderly_run hσ op).precedes.trans (ih (Operation.valid_run hσ hop) hrest)

theorem Valid.precedes_of_le (hσ : σ.Valid) (hops : ∀ op ∈ ops, op.Own) {m n : Nat} (hmn : m ≤ n) :
    (σ.after (ops.take m)).state.Precedes (σ.after (ops.take n)).state := by
  obtain ⟨rest, hrest⟩ := List.take_prefix_take_left hmn (l := ops)
  have hown : ∀ op ∈ ops.take m ++ rest, op.Own := fun op hop =>
    hops op (List.mem_of_mem_take (hrest ▸ hop))
  obtain ⟨hfirst, hlater⟩ := List.forall_mem_append.mp hown
  rw [← hrest, after_append]
  exact (hσ.after hfirst).precedes_after hlater

/-- The place of a stream at which a parser stands, by the tokens that it has left. -/
def place (T : Token.Stream) (σ : Session) : Nat :=
  T.ahead.length - σ.state.tokensLeft

theorem tokens_eq_drop_place {T : Token.Stream} {n : Nat} (h : σ.state.tokens = T.drop n) :
    σ.state.tokens = T.drop (place T σ) := by
  have hplace : place T σ = T.ahead.length - (T.ahead.length - n) := by
    rw [place, State.tokensLeft, h, Token.Stream.ahead_drop, List.length_drop]
  rcases Nat.le_total n T.ahead.length with hle | hle
  · rw [hplace, Nat.sub_sub_self hle, h]
  · -- all places behind the last token are alike
    rw [hplace, Nat.sub_eq_zero_of_le hle, Nat.sub_zero, h]
    refine Token.Stream.drop_eq_drop ?_
    rw [Token.Stream.ahead_drop, Token.Stream.ahead_drop, List.drop_eq_nil_of_le hle,
      List.drop_length]

end Session

/-- **At any time in a session** a parser stands at a place of its source. -/
theorem Session.exists_places_after (config : Config) (source : Source) (taken : Nat)
    (ops : List Operation) (hops : ∀ op ∈ ops, op.Own) :
    let T := (Token.Stream.ofSource source).drop taken
    let σ := fun n => (start config T).after (ops.take n)
    (∃ l, (Lexer.mk source 0).take? taken = some ((List.range taken).map
        (Token.Stream.ofSource source).get, l) ∧
      ∀ n, (l.take? n).map Prod.fst = some ((List.range n).map T.get)) ∧
    (∃ place : Nat → Nat, place 0 = 0 ∧ (∀ m n, m ≤ n → place m ≤ place n) ∧
      ∀ n, (σ n).state.current = T.get (place n) ∧ (σ n).state.next = T.get (place n + 1)) ∧
    (∀ m n, m ≤ n → (σ m).state.errors.toList <+: (σ n).state.errors.toList) ∧
    ∀ n,
      (∀ op : Operation, ∀ e, (op.run (σ n)).1 = .error e →
        (op.run (σ n)).2.state.errors = (σ n).state.errors) ∧
      (∀ kind, (σ n).state.next.kind ≠ kind → (Operation.expectNext kind).run (σ n) =
        (.error ⟨.unexpectedToken kind (σ n).state.next.kind, (σ n).state.next.span.start⟩,
          σ n)) ∧
      (∀ kind, ((σ n).grammar.infixRule? kind).isSome = ((σ n).grammar.power? kind).isSome) ∧
      ∀ power s, (σ n).grammar.nextOperator? power s = none ↔
        s.next.kind = .semicolon ∨ (σ n).grammar.powerOf s.next.kind ≤ power := by
  intro T σ
  have hstart := valid_start config T
  have hvalid : ∀ n, (σ n).Valid := fun n =>
    hstart.after fun op hop => hops op (List.mem_of_mem_take hop)
  have hprec : ∀ m n, m ≤ n → (σ m).state.Precedes (σ n).state := fun m n hmn =>
    hstart.precedes_of_le hops hmn
  refine ⟨?_, ⟨fun n => place T (σ n), Nat.sub_self _, fun m n hmn => ?_, fun n => ?_⟩,
    fun m n hmn => (hprec m n hmn).errors, fun n => ⟨fun op e he => ?_, fun kind hne => ?_,
      (hvalid n).paired, fun power s => (hvalid n).paired.nextOperator?_eq_none_iff⟩⟩
  · obtain ⟨l, htake, hl⟩ := (Lexer.standsAt_ofSource source).take? taken
    refine ⟨l, htake, fun n => ?_⟩
    obtain ⟨l', htake', -⟩ := hl.take? n
    rw [htake', Option.map_some]
  · exact Nat.sub_le_sub_left (hprec m n hmn).tokensLeft_le _
  · obtain ⟨k, hk⟩ := (hprec 0 n (Nat.zero_le n)).tokens
    have hplace := tokens_eq_drop_place hk
    exact ⟨State.current_of_tokens_eq hplace, State.next_of_tokens_eq hplace⟩
  · exact (Operation.orderly_run (hvalid n) op).errors_eq e he
  · exact Operation.run_expectNext_of_ne hne

namespace Session

/-- A source in which an operator of the standard grammar stands where a name is expected. -/
def straySource : Source :=
  .ofText "let + ! 1; 2" none

/-- Operations that make the exclamation mark an operator between two operands, look for a binding
and for an expression, and pass the end of the input. -/
def strayOperations : List Operation :=
  [.withOperator .bang .sum Rule.binary, .withPrefix .plus Rule.identifier, .letStatement, .advance,
    .expression .lowest, .integer, .skipToSemicolon, .program, .advance]

/-- The parser of the sample stands at five places, in the order of the source. -/
theorem exists_places_after_strayOperations :
    (∀ op ∈ strayOperations, op.Own) ∧
      (List.range 10).map (fun n => ((start {} (.ofSource straySource)).after
          (strayOperations.take n)).state.current.kind) =
        [.letWord, .letWord, .letWord, .letWord, .plus, .integer, .integer, .semicolon, .endOfInput,
          .endOfInput] ∧
      ∃ place : Nat → Nat, place 0 = 0 ∧ (∀ m n, m ≤ n → place m ≤ place n) ∧
        ∀ n, ((start {} ((Token.Stream.ofSource straySource).drop 0)).after
            (strayOperations.take n)).state.current =
          ((Token.Stream.ofSource straySource).drop 0).get (place n) := by
  have hops : ∀ op ∈ strayOperations, op.Own := by
    simp [strayOperations, Operation.Own]
  obtain ⟨-, ⟨place, hzero, hle, hplace⟩, -⟩ :=
    exists_places_after {} straySource 0 strayOperations hops
  exact ⟨hops, by decide +kernel, place, hzero, hle, fun n => (hplace n).1⟩

end Session

end PrattFrontend
