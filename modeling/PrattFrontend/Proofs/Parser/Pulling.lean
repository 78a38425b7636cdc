import PrattFrontend.Proofs.Parser.Sessions

/-!
# Parsers that pull their tokens

A parser need not have its tokens from the start. It may own a lexer and two tokens, and pull one
more token each time it moves on. What it has in hand is at any time what the state of a parser
shows.

* **`Puller`**, `Puller.start?`, `Puller.advance?`: a lexer and two tokens, and moving on;
* **`Puller.Shows`**: a puller has in hand what a state shows;
* `Puller.exists_shows_start`, **`Puller.Shows.advance`**: the start and one step, with the log;
* `Puller.Shows.advanceBy`, `Puller.Shows.precedes`: a row of steps;
* **`Puller.exists_shows_after`**: sessions.
-/

namespace PrattFrontend

open Text (byteLength)

/-- **A parser that pulls its tokens** from a lexer. -/
structure Puller where
  lexer : Lexer
  current : Token
  next : Token

namespace Puller

variable {p : Puller} {l : Lexer} {T : Token.Stream} {s t : State}

/-- The first two tokens are pulled at once. -/
def start? (l : Lexer) : Option Puller :=
  l.next?.bind fun first => first.2.next?.map fun second => ⟨second.2, first.1, second.1⟩

/-- The next token takes the place of the current one, and another is pulled. -/
def advance? (p : Puller) : Option Puller :=
  p.lexer.next?.map fun pulled => ⟨pulled.2, p.next, pulled.1⟩

/-- A number of such steps. -/
def advanceBy? : Nat → Puller → Option Puller
  | 0, p => some p
  | n + 1, p => p.advance?.bind (advanceBy? n)

/-- A puller **shows** a state if it has the two tokens of the state in hand, and its lexer is yet
to give those behind them. -/
structure Shows (p : Puller) (s : State) : Prop where
  current : p.current = s.current
  next : p.next = s.next
  lexer : p.lexer.StandsAt (s.tokens.drop 2)

/-- A token is **logged** by an event that names it and the byte at which it starts, and its lexer
stands behind its text then. -/
def Logged (t : Token) (l : Lexer) (e : Event) : Prop :=
  ∃ start, e = .lexed t start ∧ l.offset = start + byteLength t.literal.toList

/-- **A puller starts with what the first state shows.** -/
theorem exists_shows_start (h : l.StandsAt T) : ∃ p, start? l = some p ∧ p.Shows (.start T) := by
  obtain ⟨l₁, hfirst, h₁, -⟩ := h.next?
  obtain ⟨l₂, hsecond, h₂, -⟩ := h₁.next?
  rw [Token.Stream.get_drop] at hsecond
  rw [Token.Stream.drop_drop] at h₂
  refine ⟨⟨l₂, T.get 0, T.get 1⟩, ?_, ⟨rfl, rfl, h₂⟩⟩
  rw [start?, hfirst, Option.bind_some, hsecond, Option.map_some]

/-- **A puller moves on as a state does**, and the token that it pulls is logged. -/
theorem Shows.advance (h : p.Shows s) : ∃ p', p.advance? = some p' ∧ p'.Shows s.advance ∧
    ∃ e, s.advance.log = s.log.push e ∧ Logged p'.next p'.lexer e := by
  obtain ⟨l, hnext, hl, hoffset⟩ := h.lexer.next?
  simp only [Token.Stream.get_drop, Token.Stream.startByte_drop, Token.Stream.drop_drop]
    at hnext hl hoffset
  refine ⟨⟨l, p.next, s.tokens.get 2⟩, by rw [advance?, hnext, Option.map_some], ⟨?_, ?_, ?_⟩,
    .taken s.tokens 2, rfl, s.tokens.startByte 2, rfl, hoffset⟩
  · rw [State.current_advance]
    exact h.next
  · rw [State.next, State.tokens_advance, Token.Stream.get_drop]
  · rwa [State.tokens_advance, Token.Stream.drop_drop]

theorem Shows.of_tokens_eq (h : p.Shows s) (hs : t.tokens = s.tokens) : p.Shows t where
  current := by rw [h.current, State.current, State.current, hs]
  next := by rw [h.next, State.next, State.next, hs]
  lexer := by
    rw [hs]
    exact h.lexer

theorem Shows.advanceBy (h : p.Shows s) (n : Nat) :
    ∃ p', advanceBy? n p = some p' ∧ p'.Shows (s.advanceBy n) := by
  induction n generalizing p s with
  | zero => exact ⟨p, rfl, h⟩
  | succ n ih =>
    obtain ⟨p₁, hstep, h₁, -⟩ := h.advance
    obtain ⟨p₂, hsteps, h₂⟩ := ih h₁
    exact ⟨p₂, by rw [advanceBy?, hstep, Option.bind_some, hsteps], h₂⟩

theorem Shows.precedes (h : p.Shows s) (hst : s.Precedes t) :
    ∃ n p', advanceBy? n p = some p' ∧ p'.Shows t := by
  obtain ⟨n, hn⟩ := hst.tokens
  obtain ⟨p', hsteps, h'⟩ := h.advanceBy n
  exact ⟨n, p', hsteps, h'.of_tokens_eq (by rw [hn, State.tokens_advanceBy])⟩

/-- **At any time in a session, a puller shows where the parser stands.** -/
theorem exists_shows_after (config : Config) (h : l.StandsAt T) {ops : List Operation}
    (hops : ∀ op ∈ ops, op.Own) :
    ∃ p n p', start? l = some p ∧ advanceBy? n p = some p' ∧
      p'.Shows ((Session.start config T).after ops).state := by
  obtain ⟨p, hstart, hp⟩ := exists_shows_start h
  obtain ⟨n, p', hsteps, hp'⟩ := hp.precedes ((Session.valid_start config T).precedes_after hops)
  exact ⟨p, n, p', hstart, hsteps, hp'⟩

end Puller

end PrattFrontend
