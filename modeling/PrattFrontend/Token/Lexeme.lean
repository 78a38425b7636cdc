import PrattFrontend.Token.Basic
import PrattFrontend.Text.Basic

/-!
# Lexemes

A source is read as a row of lexemes with blanks between them. A lexeme is a word, a run of digits,
an operator of one or two characters, a punctuation mark, or a character that belongs to none of
these; each takes as much of the text as it can.

* `isBlank`, `isWordStart`, `isWordPart`: the classes of characters, all of them ASCII;
* `Lexeme`, `Lexeme.read?`: one lexeme, read from the start of a text;
* `Piece`, `Piece.read?`: a lexeme with the blanks before it;
* **`pieces`**: the whole text, in pieces. Nothing of it is lost (`spelling_pieces`).
-/

namespace PrattFrontend.Token

/-! ## Classes of characters -/

/-- A blank separates tokens: a space, a tab, a newline or a carriage return. -/
def isBlank (c : Char) : Bool :=
  c.isWhitespace

/-- A letter or an underscore starts a word. -/
def isWordStart (c : Char) : Bool :=
  c.isAlpha || c = '_'

/-- A letter, a digit or an underscore continues a word. -/
def isWordPart (c : Char) : Bool :=
  c.isAlphanum || c = '_'

/-! ## One lexeme -/

/-- A piece of source text that makes a token, with its kind. -/
structure Lexeme where
  kind : Kind
  text : List Char
deriving DecidableEq, Repr

namespace Lexeme

/-- Reads the word that a letter or an underscore starts. -/
def word (c : Char) (cs : List Char) : Lexeme × List Char :=
  let text := c :: cs.takeWhile isWordPart
  (⟨.ofWord (String.ofList text), text⟩, cs.dropWhile isWordPart)

/-- Reads the number that a digit starts. -/
def number (c : Char) (cs : List Char) : Lexeme × List Char :=
  (⟨.integer, c :: cs.takeWhile Char.isDigit⟩, cs.dropWhile Char.isDigit)

/-- Reads the operator or the mark that any other character starts: two characters if they spell an
operator together, and one otherwise. -/
def symbol (c : Char) : List Char → Lexeme × List Char
  | [] => (⟨.ofSymbol c, [c]⟩, [])
  | d :: cs =>
    match Kind.ofSymbols? c d with
    | some kind => (⟨kind, [c, d]⟩, cs)
    | none => (⟨.ofSymbol c, [c]⟩, d :: cs)

/-- Reads the lexeme that starts with the character `c`, and gives the text behind it. -/
def readFrom (c : Char) (cs : List Char) : Lexeme × List Char :=
  if isWordStart c then word c cs
  else if c.isDigit then number c cs
  else symbol c cs

/-- Reads a lexeme at the start of a text. -/
def read? : List Char → Option (Lexeme × List Char)
  | [] => none
  | c :: cs => some (readFrom c cs)

theorem text_readFrom_append (c : Char) (cs : List Char) :
    (readFrom c cs).1.text ++ (readFrom c cs).2 = c :: cs := by
  simp only [readFrom]
  split
  · simp [word]
  · split
    · simp [number]
    · cases cs with
      | nil => rfl
      | cons d cs => simp only [symbol]; split <;> rfl

theorem text_readFrom_ne_nil (c : Char) (cs : List Char) : (readFrom c cs).1.text ≠ [] := by
  simp only [readFrom]
  split
  · simp [word]
  · split
    · simp [number]
    · cases cs with
      | nil => simp [symbol]
      | cons d cs => simp only [symbol]; split <;> simp

theorem read?_eq_none_iff {cs : List Char} : read? cs = none ↔ cs = [] := by
  cases cs <;> simp [read?]

theorem text_append_of_read? {cs rest : List Char} {l : Lexeme} (h : read? cs = some (l, rest)) :
    l.text ++ rest = cs := by
  cases cs with
  | nil => simp [read?] at h
  | cons c cs =>
    have := text_readFrom_append c cs
    simp only [read?, Option.some.injEq] at h
    rwa [h] at this

theorem text_ne_nil_of_read? {cs rest : List Char} {l : Lexeme} (h : read? cs = some (l, rest)) :
    l.text ≠ [] := by
  cases cs with
  | nil => simp [read?] at h
  | cons c cs =>
    have := text_readFrom_ne_nil c cs
    simp only [read?, Option.some.injEq] at h
    rwa [h] at this

end Lexeme

/-! ## A whole text -/

/-- A lexeme and the blanks before it. -/
structure Piece where
  gap : List Char
  lexeme : Lexeme
deriving DecidableEq, Repr

namespace Piece

/-- Reads a piece at the start of a text, if anything but blanks is left of it. -/
def read? (cs : List Char) : Option (Piece × List Char) :=
  (Lexeme.read? (cs.dropWhile isBlank)).map fun r => (⟨cs.takeWhile isBlank, r.1⟩, r.2)

/-- The source text of a piece. -/
def text (p : Piece) : List Char :=
  p.gap ++ p.lexeme.text

theorem text_append_of_read? {cs rest : List Char} {p : Piece} (h : read? cs = some (p, rest)) :
    p.text ++ rest = cs := by
  obtain ⟨⟨l, r⟩, hl, he⟩ := Option.map_eq_some_iff.1 h
  cases he
  rw [text, List.append_assoc, Lexeme.text_append_of_read? hl, List.takeWhile_append_dropWhile]

theorem length_lt_of_read? {cs rest : List Char} {p : Piece} (h : read? cs = some (p, rest)) :
    rest.length < cs.length := by
  have hc := text_append_of_read? h
  obtain ⟨⟨l, r⟩, hl, he⟩ := Option.map_eq_some_iff.1 h
  cases he
  have := List.length_pos_iff.2 (Lexeme.text_ne_nil_of_read? hl)
  rw [← hc]
  simp only [text, List.length_append]
  omega

end Piece

/-- **The pieces of a text**, and the blanks behind the last of them. -/
def pieces (cs : List Char) : List Piece × List Char :=
  match _h : Piece.read? cs with
  | none => ([], cs)
  | some (p, rest) => let more := pieces rest; (p :: more.1, more.2)
termination_by cs.length
decreasing_by exact Piece.length_lt_of_read? (by assumption)

theorem pieces_of_read?_eq_none {cs : List Char} (h : Piece.read? cs = none) :
    pieces cs = ([], cs) := by
  rw [pieces]
  split
  · rfl
  · next h' => simp [h] at h'

theorem pieces_of_read? {cs rest : List Char} {p : Piece} (h : Piece.read? cs = some (p, rest)) :
    pieces cs = (p :: (pieces rest).1, (pieces rest).2) := by
  rw [pieces]
  split
  · next h' => simp [h] at h'
  · next h' => rw [h] at h'; cases h'; rfl

/-- Put together again, the pieces are the text. -/
theorem spelling_pieces (cs : List Char) :
    (pieces cs).1.flatMap Piece.text ++ (pieces cs).2 = cs := by
  fun_induction pieces cs with
  | case1 cs h => simp
  | case2 cs p rest h more ih =>
    simp only [List.flatMap_cons, List.append_assoc, more] at ih ⊢
    rw [ih, Piece.text_append_of_read? h]

end PrattFrontend.Token
