import PrattFrontend.ParseError
import PrattFrontend.Token.Stream

/-!
# Parser states

A parser looks at two tokens, the current one and the next. It records errors and goes on, and what
it does is recorded in a log, event by event.

* **`Event`**, with `Event.level` and `Event.message`; `Event.within`: the events up to a level;
* **`State`**: the tokens from the current one on, the errors recorded so far, and the log;
* `State.start`, `State.current`, `State.next`;
* `State.advance`, `State.expectNext`, `State.passSemicolon`, **`State.skipToSemicolon`**;
* `State.record`, `State.refusal`: errors.
-/

namespace PrattFrontend

/-! ## Events -/

/-- How much detail a log has to show for an event to appear in it. -/
inductive Event.Level where
  | info
  | debug
  | trace
deriving DecidableEq, Repr

/-- **An event** in the life of a parser. -/
inductive Event where
  /-- A program of the named file is about to be parsed. -/
  | started (file : String)
  /-- A program was parsed, with this many statements and this many errors. -/
  | finished (statements errors : Nat)
  /-- A statement that starts with a token of this kind is about to be parsed. -/
  | statement (kind : Token.Kind)
  /-- An error was recorded. -/
  | recorded (error : ParseError)
  /-- A token was taken from the source, in which its text starts at this byte. -/
  | lexed (token : Token) (start : Nat)
deriving DecidableEq, Repr

namespace Event

/-- The number of levels that show no more than this one. -/
def Level.rank : Level → Nat
  | info => 1
  | debug => 2
  | trace => 3

/-- The name of a level in a log. -/
def Level.name : Level → String
  | info => "INFO"
  | debug => "DEBUG"
  | trace => "TRACE"

/-- The level from which on an event is shown. -/
def level : Event → Level
  | started _ => .info
  | finished _ _ => .info
  | statement _ => .debug
  | recorded _ => .debug
  | lexed _ _ => .trace

/-- An event, in words. -/
def message : Event → String
  | started file => "parsing " ++ file
  | finished statements errors =>
    "parsed " ++ toString statements ++ " statements with " ++ toString errors ++ " errors"
  | statement kind => "parsing statement starting with " ++ kind.name
  | recorded error => "recorded parse error: " ++ error.message
  | lexed token start =>
    "lexed " ++ token.kind.name ++ " " ++ Text.quoted token.literal ++ " at " ++ toString start

/-- The event that one of the tokens of a stream is taken from it. -/
def taken (tokens : Token.Stream) (i : Nat) : Event :=
  lexed (tokens.get i) (tokens.startByte i)

@[simp] theorem level_started (file : String) : (started file).level = .info := rfl

@[simp] theorem level_finished (statements errors : Nat) :
    (finished statements errors).level = .info := rfl

@[simp] theorem level_statement (kind : Token.Kind) : (statement kind).level = .debug := rfl

@[simp] theorem level_recorded (error : ParseError) : (recorded error).level = .debug := rfl

@[simp] theorem level_taken (tokens : Token.Stream) (i : Nat) :
    (taken tokens i).level = .trace := rfl

/-- The events that a log with the given level shows. -/
def within (level : Level) (events : List Event) : List Event :=
  events.filter fun e => e.level.rank ≤ level.rank

end Event

/-! ## States -/

/-- **The state of a parser.** -/
structure State where
  /-- The tokens from the current one on. -/
  tokens : Token.Stream
  /-- The errors recorded so far, in the order in which they were found. -/
  errors : Array ParseError := #[]
  /-- What happened so far. -/
  log : Array Event := #[]
deriving DecidableEq, Repr

namespace State

/-- The state before anything is parsed. Two tokens are taken from the source at once. -/
def start (tokens : Token.Stream) : State where
  tokens := tokens
  log := #[.taken tokens 0, .taken tokens 1]

/-- The token being parsed. -/
def current (s : State) : Token :=
  s.tokens.get 0

/-- The token behind the current one. -/
def next (s : State) : Token :=
  s.tokens.get 1

/-- The state with one more event in its log. -/
def note (s : State) (e : Event) : State :=
  { s with log := s.log.push e }

/-- The state with one more error. -/
def record (s : State) (e : ParseError) : State :=
  { s.note (.recorded e) with errors := s.errors.push e }

/-! ## Moving on -/

/-- The state with the next token as the current one; the token behind it is taken from the
source. -/
def advance (s : State) : State :=
  { s.note (.taken s.tokens 2) with tokens := s.tokens.drop 1 }

/-- The state `n` tokens further on. -/
def advanceBy : Nat → State → State
  | 0, s => s
  | n + 1, s => advanceBy n s.advance

/-- The number of tokens before the first semicolon, from the current token on. -/
def distanceToSemicolon (s : State) : Nat :=
  (s.tokens.ahead.takeWhile fun t => t.kind ≠ .semicolon && t.kind ≠ .endOfInput).length

/-- The state moved on to the first semicolon, from the current token on, or to the end of the
input. -/
def skipToSemicolon (s : State) : State :=
  s.advanceBy s.distanceToSemicolon

/-- The state moved on to the next token if that is a semicolon. -/
def passSemicolon (s : State) : State :=
  if s.next.kind = .semicolon then s.advance else s

/-- The state moved on to the next token, which has to be of a certain kind. -/
def expectNext (s : State) (kind : Token.Kind) : Except ParseError State :=
  if s.next.kind = kind then .ok s.advance
  else .error ⟨.unexpectedToken kind s.next.kind, s.next.span.start⟩

/-- The error that no expression starts with the current token. -/
def refusal (s : State) : ParseError :=
  ⟨.noPrefixRule s.current.kind, s.current.span.start⟩

/-! ## What each step does to the parts of a state -/

@[simp] theorem tokens_start (tokens : Token.Stream) : (start tokens).tokens = tokens := rfl

@[simp] theorem errors_start (tokens : Token.Stream) : (start tokens).errors = #[] := rfl

@[simp] theorem tokens_note (s : State) (e : Event) : (s.note e).tokens = s.tokens := rfl

@[simp] theorem errors_note (s : State) (e : Event) : (s.note e).errors = s.errors := rfl

@[simp] theorem log_note (s : State) (e : Event) : (s.note e).log = s.log.push e := rfl

@[simp] theorem tokens_record (s : State) (e : ParseError) : (s.record e).tokens = s.tokens := rfl

@[simp] theorem errors_record (s : State) (e : ParseError) :
    (s.record e).errors = s.errors.push e := rfl

@[simp] theorem log_record (s : State) (e : ParseError) :
    (s.record e).log = s.log.push (.recorded e) := rfl

@[simp] theorem tokens_advance (s : State) : s.advance.tokens = s.tokens.drop 1 := rfl

@[simp] theorem errors_advance (s : State) : s.advance.errors = s.errors := rfl

@[simp] theorem log_advance (s : State) :
    s.advance.log = s.log.push (.taken s.tokens 2) := rfl

@[simp] theorem current_advance (s : State) : s.advance.current = s.next := by
  simp [current, next]

@[simp] theorem advanceBy_zero (s : State) : s.advanceBy 0 = s := rfl

@[simp] theorem tokens_advanceBy (s : State) (n : Nat) :
    (s.advanceBy n).tokens = s.tokens.drop n := by
  induction n generalizing s with
  | zero => rfl
  | succ n ih => rw [advanceBy, ih, tokens_advance, Token.Stream.drop_drop, Nat.add_comm]

@[simp] theorem errors_advanceBy (s : State) (n : Nat) : (s.advanceBy n).errors = s.errors := by
  induction n generalizing s with
  | zero => rfl
  | succ n ih => rw [advanceBy, ih, errors_advance]

theorem distanceToSemicolon_le (s : State) : s.distanceToSemicolon ≤ s.tokens.ahead.length :=
  (List.takeWhile_prefix _).length_le

end State

end PrattFrontend
