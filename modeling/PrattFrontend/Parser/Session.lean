import PrattFrontend.Parser.Program

/-!
# Sessions

A parser may be used one step at a time: to look for single expressions and statements, in any order
and wherever it stands, and with other rules than the standard ones.

* **`Session`**: a parser with its grammar and its configuration; `Session.start`;
* **`Operation`**: what a parser can be asked for; `Operation.Answer`: what it gives back;
* **`Operation.run`**: one operation; `Session.after`: a row of them.
-/

namespace PrattFrontend

/-- **A parser in use.** -/
structure Session where
  grammar : Grammar
  config : Config
  state : State

/-- A parser before it is used for anything, with the standard grammar. -/
def Session.start (config : Config) (tokens : Token.Stream) : Session :=
  ⟨.standard, config, .start tokens⟩

/-- **What a parser can be asked for.** -/
inductive Operation where
  /-- To move on by a token. -/
  | advance
  /-- To move on to the next token if it is of a certain kind. -/
  | expectNext (kind : Token.Kind)
  /-- To move on to the next semicolon. -/
  | skipToSemicolon
  /-- To record an error. -/
  | record (error : ParseError)
  /-- To parse an expression. -/
  | expression (power : Power)
  /-- To parse a name. -/
  | identifier
  /-- To parse a number. -/
  | integer
  /-- To parse an operator before its operand. -/
  | unary
  /-- To parse an operator between two operands, and the right one. -/
  | binary (left : Expr) (power : Power)
  /-- To parse a statement of any sort. -/
  | statement
  /-- To parse a binding. -/
  | letStatement
  /-- To parse a return. -/
  | returnStatement
  /-- To parse a bare expression. -/
  | expressionStatement
  /-- To parse statements up to the end of the input. -/
  | program
  /-- To use a rule for expressions that start with a kind of token. -/
  | withPrefix (kind : Token.Kind) (rule : PrefixRule)
  /-- To use a kind of token as an operator. -/
  | withOperator (kind : Token.Kind) (power : Power) (rule : InfixRule)
  /-- To use a rule for statements that start with a kind of token. -/
  | withStatement (kind : Token.Kind) (rule : StatementRule)

namespace Operation

/-- What an operation gives back if it does not fail. -/
inductive Answer where
  | done
  | expression (e : Expr)
  /-- There is no statement if parsing had to give it up. -/
  | statement (st : Option Statement)
  | program (p : Program)
deriving DecidableEq, Repr

/-- The session behind an outcome of parsing, and what is given back. -/
def reach {α : Type} (σ : Session) (answer : α → Answer) (o : Outcome α) :
    Except ParseError Answer × Session :=
  (o.1.map answer, { σ with state := o.2 })

/-- **Runs an operation.** It gives back an answer or an error. -/
def run (σ : Session) : Operation → Except ParseError Answer × Session
  | advance => (.ok .done, { σ with state := σ.state.advance })
  | expectNext kind =>
    match σ.state.expectNext kind with
    | .ok s => (.ok .done, { σ with state := s })
    | .error e => (.error e, σ)
  | skipToSemicolon => (.ok .done, { σ with state := σ.state.skipToSemicolon })
  | record e => (.ok .done, { σ with state := σ.state.record e })
  | expression power => reach σ .expression (σ.grammar.expression power σ.state)
  | identifier => reach σ .expression (Rule.identifier σ.grammar.expression σ.state)
  | integer => reach σ .expression (Rule.integer σ.grammar.expression σ.state)
  | unary => reach σ .expression (Rule.unary σ.grammar.expression σ.state)
  | binary left power =>
    reach σ .expression (Rule.binary σ.grammar.expression left power σ.state)
  | statement =>
    let parsed := σ.grammar.statement σ.config σ.state
    (.ok (.statement parsed.1), { σ with state := parsed.2 })
  | letStatement =>
    reach σ (.statement <| some ·) (Rule.letStatement σ.config σ.grammar.expression σ.state)
  | returnStatement =>
    reach σ (.statement <| some ·) (Rule.returnStatement σ.config σ.grammar.expression σ.state)
  | expressionStatement =>
    reach σ (.statement <| some ·) (Rule.expressionStatement σ.config σ.grammar.expression σ.state)
  | program =>
    let parsed := σ.grammar.program σ.config σ.state
    (.ok (.program parsed.1), { σ with state := parsed.2 })
  | withPrefix kind rule => (.ok .done, { σ with grammar := σ.grammar.withPrefix kind rule })
  | withOperator kind power rule =>
    (.ok .done, { σ with grammar := σ.grammar.withOperator kind power rule })
  | withStatement kind rule => (.ok .done, { σ with grammar := σ.grammar.withStatement kind rule })

end Operation

/-- **The session behind a row of operations**, whatever they gave back. -/
def Session.after (σ : Session) (ops : List Operation) : Session :=
  ops.foldl (fun σ op => (op.run σ).2) σ

end PrattFrontend
