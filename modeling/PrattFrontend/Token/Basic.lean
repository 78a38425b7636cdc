import PrattFrontend.Source

/-!
# Tokens

* **`Token.Kind`**: the 27 kinds, with their names;
* `Token.reservedWords`, `Token.Kind.ofWord`: the words with a kind of their own;
* `Token.Kind.ofSymbol`, `Token.Kind.ofSymbols?`: the operators and the punctuation;
* **`Token`**: a kind, the text it was read from, and the place of that text;
* `Token.unplaced`: a token that stands in no source;
* `Token.display`: a token as a line of a token listing.
-/

namespace PrattFrontend

namespace Token

/-- **The kind of a token.** -/
inductive Kind where
  /-- A character that starts no token of the language. -/
  | illegal
  | endOfInput
  | identifier
  | integer
  | assign
  | plus
  | minus
  | asterisk
  | slash
  | comma
  | semicolon
  | leftParen
  | rightParen
  | leftBrace
  | rightBrace
  | equal
  | notEqual
  | greaterThan
  | lessThan
  | bang
  | functionWord
  | letWord
  | trueWord
  | falseWord
  | ifWord
  | elseWord
  | returnWord
deriving DecidableEq, Repr, Inhabited

/-- The words that are no identifiers, in alphabetical order, and their kinds. -/
def reservedWords : List (String × Kind) :=
  [("else", .elseWord), ("false", .falseWord), ("fn", .functionWord), ("if", .ifWord),
    ("let", .letWord), ("return", .returnWord), ("true", .trueWord)]

namespace Kind

/-- The name of a kind, as messages show it. -/
def name : Kind → String
  | illegal => "Illegal"
  | endOfInput => "EndOfInput"
  | identifier => "Identifier"
  | integer => "Integer"
  | assign => "Assign"
  | plus => "Plus"
  | minus => "Minus"
  | asterisk => "Asterisk"
  | slash => "Slash"
  | comma => "Comma"
  | semicolon => "Semicolon"
  | leftParen => "LParen"
  | rightParen => "RParen"
  | leftBrace => "LBrace"
  | rightBrace => "RBrace"
  | equal => "Equal"
  | notEqual => "NotEqual"
  | greaterThan => "GreaterThan"
  | lessThan => "LessThan"
  | bang => "Bang"
  | functionWord => "Function"
  | letWord => "Let"
  | trueWord => "True"
  | falseWord => "False"
  | ifWord => "If"
  | elseWord => "Else"
  | returnWord => "Return"

/-- The kind of a word: that of a reserved word, or an identifier. -/
def ofWord (word : String) : Kind :=
  (reservedWords.lookup word).getD .identifier

/-- The kind of a character that starts neither a word nor a number. -/
def ofSymbol : Char → Kind
  | '=' => assign
  | '!' => bang
  | '+' => plus
  | '-' => minus
  | '*' => asterisk
  | '/' => slash
  | '<' => lessThan
  | '>' => greaterThan
  | '(' => leftParen
  | ')' => rightParen
  | '\x7b' => leftBrace
  | '\x7d' => rightBrace
  | ',' => comma
  | ';' => semicolon
  | _ => illegal

/-- The kind of the operator that two characters spell together. -/
def ofSymbols? : Char → Char → Option Kind
  | '=', '=' => some equal
  | '!', '=' => some notEqual
  | _, _ => none

end Kind

end Token

/-- **A token**: its kind, its text, and where the text stands. -/
structure Token where
  kind : Token.Kind
  literal : String
  span : Span
deriving DecidableEq, Repr

namespace Token

/-- A token that stands in no source. -/
def unplaced (kind : Kind) (literal : String) : Token :=
  ⟨kind, literal, .null⟩

/-- Whether a token's text says more than its kind. -/
def Kind.textVaries (k : Kind) : Bool :=
  k matches .identifier | .integer | .illegal

/-- A token as text: its kind, and in parentheses its literal where the kind does not settle it. -/
def display (t : Token) : String :=
  t.kind.name ++ " (" ++ (if t.kind.textVaries then t.literal else "") ++ ")"

example : (unplaced .integer "42").display = "Integer (42)" := by decide

example : (unplaced .plus "+").display = "Plus ()" := by decide

end Token

end PrattFrontend
