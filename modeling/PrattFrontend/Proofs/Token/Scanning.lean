import PrattFrontend.Token.Lexer
import PrattFrontend.Proofs.Token.Munch

/-!
# How a token is scanned

The next token of a lexer, step by step: past the blanks, then a word, then a number, and at last an
operator, a mark or an illegal character. Each step looks at the rest of the text anew, from the
offset that the one before left, and may fail to. An operator is as wide as its one or two
characters, which are of one byte each, and an illegal character as wide as it is in UTF-8.

* `Lexer.skipBlanks?`, `Lexer.stretch?`, `Lexer.first?`: the looks at the rest of the text;
* `Lexer.symbolAt`: the kind and the width of what is neither a word nor a number;
* **`Lexer.scan?`**: the steps in their order. The last of them has a character to fall back on
  where the text has none;
* **`Lexer.scan?_eq_next?`**: they give the next token, whatever that character is.
-/

namespace PrattFrontend.Lexer

open Text (byteLength dropBytes? byteLength_append byteLength_eq_zero_iff)
open Token (Kind Lexeme Piece isBlank isWordStart isWordPart)

/-! ## The steps -/

/-- The lexer behind the blanks that it stands at. -/
def skipBlanks? (l : Lexer) : Option Lexer :=
  l.rest?.map fun cs => l.advance (byteLength (cs.takeWhile isBlank))

/-- The stretch of characters at the lexer of which the first is in one class and the others are in
another. It is empty if the first is not. -/
def stretch? (l : Lexer) (first others : Char → Bool) : Option (List Char) :=
  l.rest?.map fun
    | [] => []
    | c :: cs => if first c then c :: cs.takeWhile others else []

/-- What is left of the text up to `n` bytes on, if a character ends there. -/
def first? (l : Lexer) (n : Nat) : Option (List Char) :=
  l.rest?.bind fun cs => (dropBytes? n cs).map fun ds => cs.take (cs.length - ds.length)

/-- The kind and the width in bytes of the operator, the mark or the illegal character that starts
with `c`, if `d` stands behind it. -/
def symbolAt (c : Char) (d : Option Char) : Kind × Nat :=
  match d.bind (Kind.ofSymbols? c) with
  | some kind => (kind, 2)
  | none => (.ofSymbol c, if Kind.ofSymbol c = .illegal then c.utf8Size else 1)

/-- The token of some kind that is `width` bytes wide, and the lexer behind it. -/
def takeWide (l : Lexer) (kind : Kind) (text : List Char) (width : Nat) : Token × Lexer :=
  (⟨kind, String.ofList text, .between l.offset (l.offset + width) l.source.file⟩, l.advance width)

/-- The token at which the lexer stands, where no blanks are before it. -/
def scanHere? (l : Lexer) (fallback : Char) : Option (Token × Lexer) := do
  let word ← l.stretch? isWordStart isWordPart
  if word ≠ [] then
    return l.takeWide (.ofWord (String.ofList word)) word (byteLength word)
  else
    let digits ← l.stretch? Char.isDigit Char.isDigit
    if digits ≠ [] then
      return l.takeWide .integer digits (byteLength digits)
    else
      let current ← l.char? 0
      let symbol := symbolAt (current.getD fallback) (← l.char? 1)
      let text ← l.first? symbol.2
      return l.takeWide symbol.1 text symbol.2

/-- **The next token, step by step.** -/
def scan? (l : Lexer) (fallback : Char) : Option (Token × Lexer) := do
  let here ← l.skipBlanks?
  if here.atEnd then
    return (.endAt (.atByte here.offset here.source.file), here)
  else
    here.scanHere? fallback

/-! ## What the steps see -/

variable {l : Lexer} {c : Char} {as cs ds : List Char} {n : Nat}

theorem exists_of_rest?_eq_some (h : l.rest? = some cs) :
    ∃ before, l.source.text.toList = before ++ cs ∧ byteLength before = l.offset :=
  Text.dropBytes?_eq_some_iff.mp h

theorem rest?_advance (h : l.rest? = some (as ++ cs)) :
    (l.advance (byteLength as)).rest? = some cs := by
  obtain ⟨before, htext, hlen⟩ := exists_of_rest?_eq_some h
  refine Text.dropBytes?_eq_some_iff.mpr ⟨before ++ as, ?_, ?_⟩
  · rw [source_advance, htext, List.append_assoc]
  · rw [byteLength_append, hlen, offset_advance]

theorem atEnd_iff (h : l.rest? = some cs) : l.atEnd ↔ cs = [] := by
  obtain ⟨before, htext, hlen⟩ := exists_of_rest?_eq_some h
  rw [atEnd, decide_eq_true_iff, htext, byteLength_append, hlen, ← byteLength_eq_zero_iff]
  omega

theorem char?_eq (h : l.rest? = some cs) (i : Nat) : l.char? i = some cs[i]? := by
  rw [char?, h, Option.map_some]

theorem first?_eq (h : l.rest? = some (cs ++ ds)) : l.first? (byteLength cs) = some cs := by
  rw [first?, h, Option.bind_some, Text.dropBytes?_append, Option.map_some, List.length_append,
    Nat.add_sub_cancel, List.take_left]

theorem utf8Size_of_ofSymbol_ne (h : Kind.ofSymbol c ≠ .illegal) : c.utf8Size = 1 := by
  unfold Kind.ofSymbol at h
  split at h
  all_goals first | rfl | exact absurd rfl h

/-- **What is neither a word nor a number is as wide as what is read of it.** -/
theorem symbolAt_eq (c : Char) (cs : List Char) :
    symbolAt c cs[0]? =
      ((Lexeme.symbol c cs).1.kind, byteLength (Lexeme.symbol c cs).1.text) := by
  have hone : (if Kind.ofSymbol c = .illegal then c.utf8Size else 1) = byteLength [c] := by
    by_cases hk : Kind.ofSymbol c = .illegal
    · simp [hk]
    · simp [hk, utf8Size_of_ofSymbol_ne hk]
  cases cs with
  | nil => exact congrArg _ hone
  | cons d cs =>
    simp only [symbolAt, List.getElem?_cons_zero, Option.bind_some, Lexeme.symbol]
    cases h : Kind.ofSymbols? c d with
    | none => exact congrArg _ hone
    | some kind =>
      obtain ⟨rfl, ⟨rfl, -⟩ | ⟨rfl, -⟩⟩ := Kind.ofSymbols?_eq_some_iff.mp h
      · rfl
      · rfl

/-! ## What the steps give -/

/-- **Where no blank stands, the lexeme is scanned that starts there.** -/
theorem scanHere?_eq (h : l.rest? = some (c :: cs)) (fallback : Char) :
    l.scanHere? fallback =
      some ((Lexeme.readFrom c cs).1.token l.offset l.source.file,
        l.advance (byteLength (Lexeme.readFrom c cs).1.text)) := by
  have hstretch (first others : Char → Bool) :
      l.stretch? first others = some (if first c then c :: cs.takeWhile others else []) := by
    rw [stretch?, h, Option.map_some]
  unfold scanHere? Lexeme.readFrom
  by_cases hw : isWordStart c
  · simp [hstretch, hw, Lexeme.word, takeWide, Lexeme.token]
  by_cases hd : c.isDigit
  · simp [hstretch, hw, hd, Lexeme.number, takeWide, Lexeme.token]
  -- neither a word nor a number: the kind is told by the character and the one behind it
  have htext := Lexeme.text_readFrom_append c cs
  simp only [Lexeme.readFrom, hw, hd, if_false, Bool.false_eq_true] at htext
  rw [← htext] at h
  simp [hstretch, hw, hd, char?_eq h, htext, symbolAt_eq, first?_eq h, takeWide, Lexeme.token]

/-- **Step by step, a lexer comes to its next token.** -/
theorem scan?_eq_next? (l : Lexer) (fallback : Char) : l.scan? fallback = l.next? := by
  cases hrest : l.rest? with
  | none => simp [scan?, skipBlanks?, next?, hrest]
  | some cs =>
    set gap := cs.takeWhile isBlank with hgap
    have hsplit : cs = gap ++ cs.dropWhile isBlank := List.takeWhile_append_dropWhile.symm
    have hskip : l.skipBlanks? = some (l.advance (byteLength gap)) := by
      rw [skipBlanks?, hrest, Option.map_some]
    have hhere : (l.advance (byteLength gap)).rest? = some (cs.dropWhile isBlank) :=
      rest?_advance (hsplit ▸ hrest)
    have hend := atEnd_iff hhere
    rw [next?, hrest, Option.map_some, Piece.read?, ← hgap]
    cases hc : cs.dropWhile isBlank with
    | nil =>
      rw [hc, List.append_nil] at hsplit
      rw [hc, eq_self, iff_true] at hend
      simp only [scan?, hskip, Option.bind_eq_bind, Option.bind_some, hend, if_true, hsplit]
      rfl
    | cons c ds =>
      rw [hc] at hhere hend
      have hnot : ¬(l.advance (byteLength gap)).atEnd := by simp [hend]
      simp only [scan?, hskip, Option.bind_eq_bind, Option.bind_some, hnot,
        scanHere?_eq hhere, Lexeme.read?, Option.map_some, Piece.text, byteLength_append]
      simp [advance, Nat.add_assoc]

end PrattFrontend.Lexer
