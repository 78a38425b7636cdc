import PrattFrontend.Source
import PrattFrontend.Token.Basic
import PrattFrontend.Token.Lexeme

/-!
# Token streams

The tokens of a source come in a row and are followed by tokens for the end of the input, as many as
are asked for.

* `Lexeme.token`, `placedAt`, `placed`: lexemes become tokens once it is known where they stand;
* **`Token.Stream`**, `Token.Stream.get`: the row of tokens and what follows it;
* `Token.Stream.startByte`: where the text of a token starts, however far into the source;
* `Token.Stream.ofSource`: the stream of a source;
* **`tokenize`**: the tokens of a source, with one for the end of the input.
-/

namespace PrattFrontend

namespace Token

open Text (byteLength)

/-- The token for a lexeme that starts at a byte offset of a file. -/
def Lexeme.token (l : Lexeme) (start : Nat) (file : String) : Token :=
  ⟨l.kind, String.ofList l.text, .between start (start + byteLength l.text) file⟩

/-- The tokens for a row of pieces, the first of which starts at a byte offset of a file, each with
the byte at which its text starts. -/
def placedAt (file : String) (offset : Nat) : List Piece → List (Token × Nat)
  | [] => []
  | p :: ps =>
    let start := offset + byteLength p.gap
    (p.lexeme.token start file, start) :: placedAt file (offset + byteLength p.text) ps

/-- The tokens alone. -/
def placed (file : String) (offset : Nat) (ps : List Piece) : List Token :=
  (placedAt file offset ps).map Prod.fst

@[simp] theorem placed_nil (file : String) (offset : Nat) : placed file offset [] = [] := rfl

@[simp] theorem placed_cons (file : String) (offset : Nat) (p : Piece) (ps : List Piece) :
    placed file offset (p :: ps) =
      p.lexeme.token (offset + byteLength p.gap) file ::
        placed file (offset + byteLength p.text) ps := rfl

@[simp] theorem length_placed (file : String) (offset : Nat) (ps : List Piece) :
    (placed file offset ps).length = ps.length := by
  induction ps generalizing offset with
  | nil => rfl
  | cons p ps ih => simp [ih]

/-- The token for the end of the input. -/
def endAt (stop : Position) : Token :=
  ⟨.endOfInput, "", ⟨stop, stop⟩⟩

@[simp] theorem kind_endAt (stop : Position) : (endAt stop).kind = .endOfInput := rfl

/-- **A token stream**: the tokens that are still to come before the input ends, each with the byte
at which its text starts, and where the input ends. A byte offset may be more than positions hold. -/
structure Stream where
  entries : List (Token × Nat)
  stop : Position
  stopByte : Nat
deriving DecidableEq, Repr

namespace Stream

/-- The tokens that are still to come. -/
def ahead (s : Stream) : List Token :=
  s.entries.map Prod.fst

/-- The token that comes after `i` others; behind the last it is the end of the input for ever. -/
def get (s : Stream) (i : Nat) : Token :=
  s.ahead[i]?.getD (endAt s.stop)

/-- The byte at which the text of that token starts. -/
def startByte (s : Stream) (i : Nat) : Nat :=
  (s.entries[i]?.map Prod.snd).getD s.stopByte

/-- The stream without its first `n` tokens. -/
def drop (s : Stream) (n : Nat) : Stream :=
  { s with entries := s.entries.drop n }

/-- All tokens of a stream, with one for the end of the input. -/
def toList (s : Stream) : List Token :=
  s.ahead ++ [endAt s.stop]

/-- The same tokens, each with the byte at which its text starts. -/
def rows (s : Stream) : List (Token × Nat) :=
  s.entries ++ [(endAt s.stop, s.stopByte)]

theorem map_fst_rows (s : Stream) : s.rows.map Prod.fst = s.toList :=
  List.map_append

@[simp] theorem ahead_drop (s : Stream) (n : Nat) : (s.drop n).ahead = s.ahead.drop n :=
  List.map_drop

@[simp] theorem stop_drop (s : Stream) (n : Nat) : (s.drop n).stop = s.stop := rfl

@[simp] theorem drop_zero (s : Stream) : s.drop 0 = s := rfl

@[simp] theorem drop_drop (s : Stream) (m n : Nat) : (s.drop m).drop n = s.drop (m + n) := by
  simp [drop]

@[simp] theorem get_drop (s : Stream) (n i : Nat) : (s.drop n).get i = s.get (n + i) := by
  simp [get]

@[simp] theorem startByte_drop (s : Stream) (n i : Nat) :
    (s.drop n).startByte i = s.startByte (n + i) := by
  simp [startByte, drop]

theorem get_of_length_le {s : Stream} {i : Nat} (h : s.ahead.length ≤ i) :
    s.get i = endAt s.stop := by
  simp [get, List.getElem?_eq_none h]

theorem get_of_lt {s : Stream} {i : Nat} (h : i < s.ahead.length) : s.get i = s.ahead[i] := by
  simp [get, h]

theorem drop_eq_drop {s : Stream} {m n : Nat}
    (h : (s.drop m).ahead.length = (s.drop n).ahead.length) : s.drop m = s.drop n := by
  simp only [ahead, drop, List.length_map, List.length_drop] at h
  have hentries : s.entries.drop m = s.entries.drop n := by
    rcases Nat.lt_or_ge m s.entries.length with hlt | hge
    · rw [show m = n by omega]
    · rw [List.drop_eq_nil_of_le hge, List.drop_eq_nil_of_le (by omega)]
  rw [drop, drop, hentries]

/-- The tokens of a source. -/
def ofSource (source : Source) : Stream where
  entries := placedAt source.file 0 (pieces source.text.toList).1
  stop := .atByte (byteLength source.text.toList) source.file
  stopByte := byteLength source.text.toList

theorem ahead_ofSource (source : Source) :
    (ofSource source).ahead = placed source.file 0 (pieces source.text.toList).1 := rfl

end Stream

end Token

/-- **The tokens of a source**, the last of them for the end of the input. -/
def tokenize (source : Source) : List Token :=
  (Token.Stream.ofSource source).toList

end PrattFrontend
