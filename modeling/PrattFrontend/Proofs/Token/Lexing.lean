import PrattFrontend.Token.Lexer

/-!
# Tokens one at a time

A lexer that is asked for token after token gives those of its source in their order, and from then
on the end of the input as often as it is asked.

* `Lexer.take?`: a number of tokens, and the lexer behind them;
* `Lexer.StandsAt`: the tokens that a lexer is yet to give;
* `Lexer.StandsAt.next?`, `Lexer.StandsAt.take?`: one token and a number of them;
* **`Lexer.standsAt_ofSource`**: sources.
-/

namespace PrattFrontend.Lexer

open Text (byteLength)
open Token (Piece pieces placedAt Stream)

variable {l : Lexer} {T : Stream}

/-- Takes a number of tokens from a lexer. -/
def take? : Nat → Lexer → Option (List Token × Lexer)
  | 0, l => some ([], l)
  | n + 1, l =>
    l.next?.bind fun first => (take? n first.2).map fun others => (first.1 :: others.1, others.2)

/-- A lexer **stands at** a stream if the tokens of the stream are those of the text from its offset
on. -/
def StandsAt (l : Lexer) (T : Stream) : Prop :=
  ∃ before rest, l.source.text.toList = before ++ rest ∧ l.offset = byteLength before ∧
    T = ⟨placedAt l.source.file l.offset (pieces rest).1,
      .atByte (byteLength l.source.text.toList) l.source.file, byteLength l.source.text.toList⟩

/-- **A lexer gives the next token of its stream**, and stands behind its text then. -/
theorem StandsAt.next? (h : l.StandsAt T) :
    ∃ l', l.next? = some (T.get 0, l') ∧ l'.StandsAt (T.drop 1) ∧
      l'.offset = T.startByte 0 + byteLength (T.get 0).literal.toList := by
  obtain ⟨before, rest, htext, hoffset, rfl⟩ := h
  have hrest : l.rest? = some rest := by
    rw [rest?, htext, hoffset, Text.dropBytes?_append]
  rw [Lexer.next?, hrest, Option.map_some]
  cases hread : Piece.read? rest with
  | none =>
    have hlen : l.offset + byteLength rest = byteLength l.source.text.toList := by
      rw [htext, hoffset, Text.byteLength_append]
    rw [Token.pieces_of_read?_eq_none hread]
    refine ⟨⟨l.source, byteLength l.source.text.toList⟩, by simp only [hlen]; rfl,
      ⟨l.source.text.toList, [], (List.append_nil _).symm, rfl, ?_⟩, rfl⟩
    rw [Token.pieces_of_read?_eq_none rfl]
    rfl
  | some r =>
    obtain ⟨p, after⟩ := r
    rw [Token.pieces_of_read? hread]
    refine ⟨l.advance (byteLength p.text), rfl, ⟨before ++ p.text, after, ?_, ?_, rfl⟩, ?_⟩
    · rw [source_advance, htext, List.append_assoc, Piece.text_append_of_read? hread]
    · rw [offset_advance, hoffset, Text.byteLength_append]
    · have hliteral : (String.ofList p.lexeme.text).toList = p.lexeme.text := String.toList_ofList
      rw [offset_advance, Piece.text, Text.byteLength_append, ← Nat.add_assoc]
      exact congrArg (l.offset + byteLength p.gap + byteLength ·) hliteral.symm

/-- **A lexer gives the tokens of its stream**, as many as it is asked for. -/
theorem StandsAt.take? (h : l.StandsAt T) (n : Nat) :
    ∃ l', l.take? n = some ((List.range n).map T.get, l') ∧ l'.StandsAt (T.drop n) := by
  induction n generalizing l T with
  | zero => exact ⟨l, rfl, h⟩
  | succ n ih =>
    obtain ⟨l', hnext, h', -⟩ := h.next?
    obtain ⟨l'', htake, h''⟩ := ih h'
    refine ⟨l'', ?_, by rwa [Stream.drop_drop, Nat.add_comm] at h''⟩
    rw [Lexer.take?, hnext, Option.bind_some, htake, Option.map_some, List.range_succ_eq_map]
    simp [Function.comp_def, Nat.add_comm]

theorem standsAt_ofSource (source : Source) : StandsAt ⟨source, 0⟩ (.ofSource source) :=
  ⟨[], source.text.toList, rfl, rfl, rfl⟩

end PrattFrontend.Lexer
