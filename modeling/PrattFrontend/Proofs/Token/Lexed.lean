import PrattFrontend.Text.Basic
import PrattFrontend.Token.Stream

/-!
# What tokens of a source look like

* **`Token.Lexed`**: a token is not the end of the input, and if it is an integer it has digits;
* `Token.exists_of_mem_placed`: each token of a row of pieces is that of one piece;
* `Token.Stream.lexed_of_mem_ofSource`: the tokens of a source are such;
* `Token.Lexed.isSome_readInteger?_iff`: of their integers those below the bound can be read.
-/

namespace PrattFrontend.Token

/-- **A lexed token** is no end of the input. If it is an integer, it consists of digits, and there
is one at least. -/
structure Lexed (t : Token) : Prop where
  kind_ne : t.kind ≠ .endOfInput
  digits : t.kind = .integer →
    t.literal.toList ≠ [] ∧ ∀ c ∈ t.literal.toList, c.isDigit = true

theorem Lexed.isSome_readInteger?_iff {t : Token} (h : t.Lexed) (hk : t.kind = .integer) :
    (Text.readInteger? t.literal).isSome ↔
      Text.decimalValue t.literal.toList < Text.integerBound := by
  obtain ⟨hne, hdigits⟩ := h.digits hk
  rw [Option.isSome_iff_exists]
  constructor
  · rintro ⟨v, hv⟩
    exact (Text.readInteger?_eq_some_iff.mp hv).2.2.1
  · intro hlt
    exact ⟨_, Text.readInteger?_eq_some_iff.mpr ⟨hne, hdigits, hlt, rfl⟩⟩

theorem dropWhile_of_lexed {ts : List Token} (h : ∀ t ∈ ts, t.Lexed) :
    (ts.dropWhile fun t => t.kind ≠ .semicolon && t.kind ≠ .endOfInput) =
      ts.dropWhile fun t => t.kind ≠ .semicolon := by
  induction ts with
  | nil => rfl
  | cons t ts ih =>
    have ht := (h t List.mem_cons_self).kind_ne
    have hts := ih fun u hu => h u (List.mem_cons_of_mem t hu)
    rw [List.dropWhile_cons, List.dropWhile_cons, hts]
    simp [ht]

/-! ## Lexemes -/

namespace Kind

theorem ofWord_ne (word : String) : ofWord word ≠ .endOfInput ∧ ofWord word ≠ .integer := by
  have hall : ∀ r ∈ reservedWords, r.2 ≠ .endOfInput ∧ r.2 ≠ .integer := by decide
  unfold ofWord
  cases h : reservedWords.lookup word with
  | none => decide
  | some k =>
    obtain ⟨before, behind, heq, -⟩ := List.lookup_eq_some_iff.mp h
    exact hall (word, k) (by rw [heq]; simp)

theorem ofSymbol_ne (c : Char) : ofSymbol c ≠ .endOfInput ∧ ofSymbol c ≠ .integer := by
  unfold ofSymbol
  split <;> decide

theorem ofSymbols?_ne {c d : Char} {k : Kind} (h : ofSymbols? c d = some k) :
    k ≠ .endOfInput ∧ k ≠ .integer := by
  unfold ofSymbols? at h
  split at h
  · cases h
    decide
  · cases h
    decide
  · cases h

end Kind

namespace Lexeme

theorem kind_symbol_ne (c : Char) (cs : List Char) :
    (symbol c cs).1.kind ≠ .endOfInput ∧ (symbol c cs).1.kind ≠ .integer := by
  cases cs with
  | nil => exact Kind.ofSymbol_ne c
  | cons d cs =>
    simp only [symbol]
    split
    · next h => exact Kind.ofSymbols?_ne h
    · exact Kind.ofSymbol_ne c

theorem lexed_readFrom (c : Char) (cs : List Char) (start : Nat) (file : String) :
    ((readFrom c cs).1.token start file).Lexed := by
  unfold readFrom
  by_cases hw : isWordStart c
  · obtain ⟨h₁, h₂⟩ := Kind.ofWord_ne (String.ofList (c :: cs.takeWhile isWordPart))
    rw [if_pos hw]
    exact ⟨h₁, fun h => absurd h h₂⟩
  · rw [if_neg hw]
    by_cases hd : c.isDigit
    · rw [if_pos hd]
      refine ⟨by simp [number, token], fun _ => ?_⟩
      simp only [number, token, String.toList_ofList]
      refine ⟨by simp, fun b hb => ?_⟩
      rcases List.mem_cons.mp hb with rfl | hb
      · exact hd
      · exact List.all_eq_true.mp List.all_takeWhile b hb
    · obtain ⟨h₁, h₂⟩ := kind_symbol_ne c cs
      rw [if_neg hd]
      exact ⟨h₁, fun h => absurd h h₂⟩

end Lexeme

/-! ## Sources -/

theorem exists_readFrom_of_mem_pieces (cs : List Char) :
    ∀ p ∈ (pieces cs).1, ∃ c cs', p.lexeme = (Lexeme.readFrom c cs').1 := by
  fun_induction pieces cs with
  | case1 cs h => simp
  | case2 cs p rest h more ih =>
    intro q hq
    rcases List.mem_cons.mp hq with rfl | hq
    · obtain ⟨⟨l, r⟩, hl, heq⟩ := Option.map_eq_some_iff.mp h
      cases heq
      cases hcs : cs.dropWhile isBlank with
      | nil => rw [hcs] at hl; cases hl
      | cons c cs' =>
        rw [hcs, Lexeme.read?, Option.some.injEq] at hl
        exact ⟨c, cs', by rw [hl]⟩
    · exact ih q hq

theorem exists_of_mem_placedAt {file : String} {offset : Nat} {ps : List Piece} {r : Token × Nat}
    (h : r ∈ placedAt file offset ps) : ∃ pre p post, ps = pre ++ p :: post ∧
      let start := offset + Text.byteLength (pre.flatMap Piece.text ++ p.gap)
      r = (p.lexeme.token start file, start) := by
  induction ps generalizing offset with
  | nil => cases h
  | cons q ps ih =>
    rcases List.mem_cons.mp h with rfl | h
    · exact ⟨[], q, ps, rfl, rfl⟩
    · obtain ⟨pre, p, post, rfl, rfl⟩ := ih h
      refine ⟨q :: pre, p, post, rfl, ?_⟩
      simp only [List.flatMap_cons, Text.byteLength_append, Nat.add_assoc]

theorem exists_of_mem_placed {file : String} {offset : Nat} {ps : List Piece} {t : Token}
    (h : t ∈ placed file offset ps) : ∃ pre p post, ps = pre ++ p :: post ∧
      t = p.lexeme.token (offset + Text.byteLength (pre.flatMap Piece.text ++ p.gap)) file := by
  obtain ⟨r, hr, rfl⟩ := List.mem_map.mp h
  obtain ⟨pre, p, post, hps, rfl⟩ := exists_of_mem_placedAt hr
  exact ⟨pre, p, post, hps, rfl⟩

/-- **The tokens of a source are lexed.** -/
theorem Stream.lexed_of_mem_ofSource {source : Source} {t : Token}
    (h : t ∈ (ofSource source).ahead) : t.Lexed := by
  obtain ⟨pre, p, post, hps, rfl⟩ := exists_of_mem_placed h
  obtain ⟨c, cs, heq⟩ := exists_readFrom_of_mem_pieces _ p (hps ▸ List.mem_append_cons_self)
  rw [heq]
  exact Lexeme.lexed_readFrom c cs _ _

end PrattFrontend.Token
