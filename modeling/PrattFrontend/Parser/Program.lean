import PrattFrontend.Parser.Expression

/-!
# Parsing statements and programs

* `Rule.statementValue`: the value of a binding or a return;
* `Rule.letStatement`, `Rule.returnStatement`, **`Rule.expressionStatement`**;
* **`Grammar.statement`**: a statement of any sort, with recovery from one that fails;
* **`Grammar.standard`**, `Grammar.standardPower?`: names and numbers, two operators before an
  operand, eight between two, and two sorts of statements other than the bare expression;
* `Grammar.statements`: statements up to the end of the input. Behind each of them one token is
  passed, which is the last of the statement or the semicolon behind it;
* **`Grammar.program`**: a whole program;
* **`parse`**: a source, by the standard grammar.
-/

namespace PrattFrontend

/-! ## Statements -/

namespace Rule

/-- Parses or passes over the value behind the current token, and the semicolon behind the value. A
value that cannot be parsed is recorded as an error and is missing; parsing then goes on at the next
semicolon. -/
def statementValue (config : Config) (expr : ExprParser) (s : State) : Option Expr × State :=
  match config.values with
  | .skip => (none, s.skipToSemicolon)
  | .parse =>
    match expr .lowest s.advance with
    | (.ok e, s) => (some e, s.passSemicolon)
    | (.error e, s) => (none, (s.record e).skipToSemicolon)

/-- A binding: a word for it, a name, an equals sign and a value. Without the name or the sign the
statement fails. -/
def letStatement : StatementRule := fun config expr s =>
  match s.expectNext .identifier with
  | .error e => (.error e, s)
  | .ok named =>
    match named.expectNext .assign with
    | .error e => (.error e, named)
    | .ok assigned =>
      let value := statementValue config expr assigned
      (.ok (.letValue s.current (.ofToken named.current) value.1), value.2)

/-- A return: a word for it and a value. Right before a semicolon there is no value. -/
def returnStatement : StatementRule := fun config expr s =>
  if s.next.kind = .semicolon then (.ok (.returnValue s.current none), s.advance)
  else
    let value := statementValue config expr s
    (.ok (.returnValue s.current value.1), value.2)

/-- **A bare expression**, with or without a semicolon behind it. It never fails as a whole: an
expression that cannot be parsed is recorded as an error and is missing. -/
def expressionStatement : StatementRule := fun _ expr s =>
  match expr .lowest s with
  | (.ok e, t) => (.ok (.expression s.current (some e)), t.passSemicolon)
  | (.error e, t) => (.ok (.expression s.current none), (t.record e).passSemicolon)

end Rule

namespace Grammar

/-- The rule for statements that start with a token of some kind. -/
def ruleForStatement (g : Grammar) (kind : Token.Kind) : StatementRule :=
  (g.statementRule? kind).getD Rule.expressionStatement

/-- Where parsing goes on behind a statement that failed. -/
def recover (config : Config) (s : State) : State :=
  match config.recovery with
  | .advance => s
  | .semicolon => s.skipToSemicolon

/-- **Parses a statement** from the current token on. There is none if it fails; the error is
recorded. -/
def statement (g : Grammar) (config : Config) (s : State) : Option Statement × State :=
  let kind := s.current.kind
  match g.ruleForStatement kind config g.expression (s.note (.statement kind)) with
  | (.ok st, s) => (some st, s)
  | (.error e, s) => (none, recover config (s.record e))

/-! ## The standard grammar -/

/-- The powers of the binary operators. -/
def standardPower? : Token.Kind → Option Power
  | .equal | .notEqual => some .equality
  | .lessThan | .greaterThan => some .comparison
  | .plus | .minus => some .sum
  | .asterisk | .slash => some .product
  | _ => none

/-- The rules for what starts an expression. -/
def standardPrefixRule? : Token.Kind → Option PrefixRule
  | .identifier => some Rule.identifier
  | .integer => some Rule.integer
  | .bang | .minus => some Rule.unary
  | _ => none

/-- The rules for what starts a statement. -/
def standardStatementRule? : Token.Kind → Option StatementRule
  | .letWord => some Rule.letStatement
  | .returnWord => some Rule.returnStatement
  | _ => none

/-- **The standard grammar.** -/
def standard : Grammar where
  prefixRule? := standardPrefixRule?
  infixRule? kind := (standardPower? kind).map fun _ => Rule.binary
  power? := standardPower?
  statementRule? := standardStatementRule?

@[simp] theorem powerOf_standard (kind : Token.Kind) :
    standard.powerOf kind = (standardPower? kind).getD .lowest := rfl

theorem operator?_standard (kind : Token.Kind) :
    standard.operator? kind = (standardPower? kind).map fun power => ⟨power, Rule.binary⟩ := by
  rw [operator?, powerOf_standard]
  change ((standardPower? kind).map fun _ => Rule.binary).map _ = _
  cases standardPower? kind <;> rfl

theorem paired_standard : standard.Paired :=
  fun _ => Option.isSome_map

/-! ## Programs -/

/-- Parses statements until the current token is the end of the input, at most a given number of
times. -/
def statements (g : Grammar) (config : Config) : Nat → State → List Statement × State
  | 0, s => ([], s)
  | n + 1, s =>
    if s.current.kind = .endOfInput then ([], s)
    else
      let first := g.statement config s
      let rest := statements g config n first.2.advance
      (first.1.toList ++ rest.1, rest.2)

/-- **Parses a program** from the current token on. No statement is without a token, so there are at
most as many as there are tokens. -/
def program (g : Grammar) (config : Config) (s : State) : Program × State :=
  let parsed := g.statements config s.tokens.ahead.length (s.note (.started s.tokens.stop.file))
  (⟨parsed.1⟩, parsed.2.note (.finished parsed.1.length parsed.2.errors.size))

end Grammar

/-- **Parses a source** by the standard grammar, into a program and the state at the end, with the
errors that were found. -/
def parse (config : Config) (source : Source) : Program × State :=
  Grammar.standard.program config (.start (.ofSource source))

end PrattFrontend
