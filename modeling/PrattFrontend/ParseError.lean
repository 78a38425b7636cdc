import PrattFrontend.Text.Characters
import PrattFrontend.Token.Basic

/-!
# Parse errors

* **`ParseError`**, `ParseError.Cause`: what went wrong, and where;
* `ParseError.name`, `ParseError.message`, `ParseError.tip?`: how it is reported.
-/

namespace PrattFrontend

/-- The causes of parse errors. -/
inductive ParseError.Cause where
  /-- One kind of token had to follow, and another did. -/
  | unexpectedToken (expected actual : Token.Kind)
  /-- No expression starts with a token of this kind. -/
  | noPrefixRule (kind : Token.Kind)
  /-- The literal stands for no 64-bit integer. -/
  | integerOutOfRange (literal : String)
deriving DecidableEq, Repr

/-- **A parse error**: its cause, and the position of the token that it is about. -/
structure ParseError where
  cause : ParseError.Cause
  position : Position
deriving DecidableEq, Repr

namespace ParseError

/-- The heading under which errors of a cause are reported. -/
def Cause.name : Cause → String
  | unexpectedToken _ _ => "UnexpectedToken"
  | noPrefixRule _ => "NoPrefixParseFunction"
  | integerOutOfRange _ => "IntegerParseError"

/-- What went wrong, in words. -/
def Cause.message : Cause → String
  | unexpectedToken expected actual =>
    "expected next token to be " ++ expected.name ++ ", got " ++ actual.name ++ " instead"
  | noPrefixRule kind => "no prefix parse function for " ++ kind.name ++ " found"
  | integerOutOfRange literal => "could not parse " ++ Text.quoted literal ++ " as integer"

/-- A hint at what to do, where there is one to give. -/
def Cause.tip? : Cause → Option String
  | unexpectedToken expected _ => some ("Insert a `" ++ expected.name ++ "` token here")
  | noPrefixRule .illegal => some "This character is not part of the language"
  | noPrefixRule _ => none
  | integerOutOfRange literal =>
    some ("Invalid integer: `" ++ literal ++ "`, is it above the 64-bit integer limit?")

/-- The heading under which an error is reported. -/
def name (e : ParseError) : String :=
  e.cause.name

/-- What went wrong, in words. -/
def message (e : ParseError) : String :=
  e.cause.message

/-- A hint at what to do, where there is one to give. -/
def tip? (e : ParseError) : Option String :=
  e.cause.tip?

end ParseError

end PrattFrontend
