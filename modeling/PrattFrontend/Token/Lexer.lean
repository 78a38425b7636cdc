import PrattFrontend.Token.Stream

/-!
# Lexers

A lexer gives the tokens of a source one at a time. It stands at a byte offset, which its user may
move at will; only from an offset at which a character starts, or the text ends, can it read on.

* **`Lexer`**, `Lexer.rest?`: the place of a lexer and the text from there on;
* `Lexer.char?`, `Lexer.atEnd`, `Lexer.advance?`;
* **`Lexer.next?`**: the next token and the lexer behind it;
* **`Lexer.Session`**, `Lexer.Session.start`: a lexer with the copies that were kept of it;
* `Lexer.Operation`, `Lexer.Answer`: what a lexer can be asked for, and what it gives back;
* **`Lexer.Operation.run`**, `Lexer.Session.after`: one operation, and a row of them.
-/

namespace PrattFrontend

open Text (byteLength dropBytes?)

/-- **A lexer**: a source and a byte offset into it. -/
structure Lexer where
  source : Source
  offset : Nat := 0
deriving DecidableEq, Repr

namespace Lexer

/-- What is left of the text, if the lexer does not stand inside a character or past the end. -/
def rest? (l : Lexer) : Option (List Char) :=
  dropBytes? l.offset l.source.text.toList

/-- The `i`-th of the characters that are left, `none` inside if there are not as many. -/
def char? (l : Lexer) (i : Nat) : Option (Option Char) :=
  l.rest?.map (·[i]?)

/-- Whether the lexer stands at the end of the text or past it. -/
def atEnd (l : Lexer) : Bool :=
  byteLength l.source.text.toList ≤ l.offset

/-- The lexer moved on by `n` bytes. -/
def advance (l : Lexer) (n : Nat) : Lexer :=
  { l with offset := l.offset + n }

/-- The least offset that a lexer cannot hold. -/
def offsetBound : Nat := Nat.pow 2 64

/-- The lexer moved on by `n` bytes, wherever that is, as long as it can hold the offset. -/
def advance? (l : Lexer) (n : Nat) : Option Lexer :=
  if l.offset + n < offsetBound then some (l.advance n) else none

/-- **The next token**, and the lexer behind it. Where only blanks are left it is the end of the
input, at the end of the text. -/
def next? (l : Lexer) : Option (Token × Lexer) :=
  l.rest?.map fun cs =>
    match Token.Piece.read? cs with
    | none =>
      let stop := l.offset + byteLength cs
      (.endAt (.atByte stop l.source.file), { l with offset := stop })
    | some (p, _) =>
      (p.lexeme.token (l.offset + byteLength p.gap) l.source.file, l.advance (byteLength p.text))

@[simp] theorem source_advance (l : Lexer) (n : Nat) : (l.advance n).source = l.source := rfl

@[simp] theorem offset_advance (l : Lexer) (n : Nat) : (l.advance n).offset = l.offset + n := rfl

theorem isSome_next? (l : Lexer) : l.next?.isSome = l.rest?.isSome := by
  simp [next?]

/-! ## Lexers in use -/

/-- **A lexer in use.** -/
structure Session where
  lexer : Lexer
  /-- The copies that were kept, in the order in which they were made. -/
  copies : List Lexer := []
deriving DecidableEq, Repr

/-- A lexer before it is used for anything. -/
def Session.start (source : Source) : Session :=
  ⟨⟨source, 0⟩, []⟩

/-- **What a lexer can be asked for.** -/
inductive Operation where
  /-- The next token. -/
  | next
  /-- The character that it stands at. -/
  | current
  /-- The character behind that. -/
  | peek
  /-- The rest of the text. -/
  | rest
  /-- Whether it is at the end. -/
  | atEnd
  /-- To move on by a number of bytes. -/
  | advance (n : Nat)
  /-- To keep a copy. -/
  | copy
  /-- To go back to one of the copies. -/
  | restore (i : Nat)
deriving DecidableEq, Repr

/-- What an operation gives back. -/
inductive Answer where
  | done
  | token (t : Token)
  | char (c : Option Char)
  | text (cs : List Char)
  | flag (b : Bool)
deriving DecidableEq, Repr

/-- **Runs an operation.** There is no answer where the lexer cannot read on, or not move. -/
def Operation.run (σ : Session) : Operation → Option (Answer × Session)
  | next => σ.lexer.next?.map fun r => (.token r.1, { σ with lexer := r.2 })
  | current => (σ.lexer.char? 0).map fun c => (.char c, σ)
  | peek => (σ.lexer.char? 1).map fun c => (.char c, σ)
  | rest => σ.lexer.rest?.map fun cs => (.text cs, σ)
  | atEnd => some (.flag σ.lexer.atEnd, σ)
  | advance n => (σ.lexer.advance? n).map fun l => (.done, { σ with lexer := l })
  | copy => some (.done, { σ with copies := σ.copies ++ [σ.lexer] })
  | restore i =>
    match σ.copies[i]? with
    | none => some (.flag false, σ)
    | some l => some (.flag true, { σ with lexer := l })

/-- The session behind an operation. One that has no answer leaves it as it is. -/
def Session.step (σ : Session) (op : Operation) : Session :=
  (op.run σ).elim σ Prod.snd

/-- **The session behind a row of operations.** -/
def Session.after (σ : Session) (ops : List Operation) : Session :=
  ops.foldl step σ

/-! ## Operations that only look -/

section

variable (σ : Session)

theorem Session.elim_map_answer {α : Type} (answer : α → Answer) (seen : Option α) :
    (seen.map fun a => (answer a, σ)).elim σ Prod.snd = σ := by
  cases seen <;> rfl

@[simp] theorem Session.step_current : σ.step .current = σ := elim_map_answer σ _ _

@[simp] theorem Session.step_peek : σ.step .peek = σ := elim_map_answer σ _ _

@[simp] theorem Session.step_rest : σ.step .rest = σ := elim_map_answer σ _ _

@[simp] theorem Session.step_atEnd : σ.step .atEnd = σ := rfl

end

/-! ## Moving on -/

theorem Session.step_advance {σ : Session} {n : Nat} (h : σ.lexer.offset + n < offsetBound) :
    σ.step (.advance n) = { σ with lexer := σ.lexer.advance n } := by
  rw [step, Operation.run, advance?, if_pos h]
  rfl

end Lexer

end PrattFrontend
