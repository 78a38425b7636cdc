import PrattFrontend.Proofs.Token.Munch

/-!
# Lexemes without their places

What a parser looks at in a token is its kind and its literal, which are those of the lexeme that it
was made from.

* `Token.lexeme`: a token without its place;
* **`lexemes`**: the lexemes of a text, with `lexemes_append_of_blanks`, `lexemes_append` and
  `lexemes_mark`;
* `Token.Stream.map_lexeme_ofSource`: the tokens of a source have the lexemes of its text;
* `map_tokenize_eq_iff`: sources with the same kinds and literals;
* `Lexeme.Proper.text_of_reserved`: what some lexemes have to be.
-/

namespace PrattFrontend.Token

/-- A token without its place: its kind and its literal. -/
def lexeme (t : Token) : Lexeme :=
  ⟨t.kind, t.literal.toList⟩

/-- **The lexemes of a text**, one after another. -/
def lexemes (cs : List Char) : List Lexeme :=
  (pieces cs).1.map Piece.lexeme

variable {c d : Char} {cs ds : List Char} {l : Lexeme}

theorem lexemes_append_of_blanks (h : ∀ c ∈ cs, isBlank c) : lexemes (cs ++ ds) = lexemes ds := by
  have hspell := spelling_indented cs (pieces ds)
  rw [spelling_pieces] at hspell
  have hpieces : pieces (cs ++ ds) = indented cs (pieces ds) :=
    pieces_eq_iff.mpr ⟨(apart_pieces ds).indented h, hspell⟩
  rw [lexemes, lexemes, hpieces]
  cases hps : pieces ds with
  | mk ps last => cases ps <;> rfl

theorem lexemes_blank (h : isBlank c) (cs : List Char) : lexemes (c :: cs) = lexemes cs :=
  lexemes_append_of_blanks (List.forall_mem_singleton.mpr h)

/-- **A proper lexeme that does not go on is the first of a text.** -/
theorem lexemes_append (hl : l.Proper) (h : ∀ d ∈ ds.head?, l.goesOn d = false) :
    lexemes (l.text ++ ds) = l :: lexemes ds := by
  have hread : Piece.read? (l.text ++ ds) = some (⟨[], l⟩, ds) :=
    Piece.read?_eq_some_iff.mpr ⟨⟨by simp, hl⟩, rfl, h⟩
  rw [lexemes, pieces_of_read? hread]
  rfl

/-- A mark is read by itself, whatever comes behind it. -/
theorem lexemes_mark
    (h : isBlank c = false ∧ isWordStart c = false ∧ c.isDigit = false ∧ c ≠ '=' ∧ c ≠ '!')
    (cs : List Char) : lexemes (c :: cs) = ⟨.ofSymbol c, [c]⟩ :: lexemes cs := by
  obtain ⟨hb, hw, hd, heq, hbang⟩ := h
  have hnone : ∀ d, Kind.ofSymbols? c d = none := by
    intro d
    refine Option.eq_none_iff_forall_ne_some.mpr fun k hk => ?_
    rcases (Kind.ofSymbols?_eq_some_iff.mp hk).2 with ⟨hc, -⟩ | ⟨hc, -⟩
    · exact heq hc
    · exact hbang hc
  exact lexemes_append (l := ⟨.ofSymbol c, [c]⟩) (.symbol hb hw hd) fun d _ => by
    simp [Lexeme.goesOn, hw, hd, hnone]

theorem lexemes_of_blanks (h : ∀ c ∈ cs, isBlank c) : lexemes cs = [] := by
  rw [lexemes, pieces_of_read?_eq_none (Piece.read?_eq_none_iff.mpr h)]
  rfl

theorem lexemes_nil : lexemes [] = [] :=
  lexemes_of_blanks (by simp)

theorem lexemes_text (hl : l.Proper) : lexemes l.text = [l] := by
  have h : lexemes (l.text ++ []) = l :: lexemes [] := lexemes_append hl (by simp)
  rwa [List.append_nil, lexemes_nil] at h

theorem map_lexeme_placed (file : String) (offset : Nat) (ps : List Piece) :
    (placed file offset ps).map lexeme = ps.map Piece.lexeme := by
  induction ps generalizing offset with
  | nil => rfl
  | cons p ps ih => simp [ih, lexeme, Lexeme.token]

/-- **The tokens of a source have the lexemes of its text.** -/
theorem Stream.map_lexeme_ofSource (source : Source) :
    (ofSource source).ahead.map lexeme = lexemes source.text.toList :=
  map_lexeme_placed _ _ _

/-- **Sources have the same kinds and literals** exactly if their lexemes are the same. -/
theorem map_tokenize_eq_iff {source source' : Source} :
    (tokenize source).map (fun t => (t.kind, t.literal)) =
        (tokenize source').map (fun t => (t.kind, t.literal)) ↔
      lexemes source.text.toList = lexemes source'.text.toList := by
  have hpair : (fun t : Token => (t.kind, t.literal)) =
      (fun l : Lexeme => (l.kind, String.ofList l.text)) ∘ lexeme := by
    funext t
    simp [lexeme]
  have hinjective : ∀ l l' : Lexeme,
      (l.kind, String.ofList l.text) = (l'.kind, String.ofList l'.text) → l = l' := by
    rintro ⟨k, text⟩ ⟨k', text'⟩ h
    obtain ⟨hkind, htext⟩ := Prod.mk.inj h
    exact congrArg₂ Lexeme.mk hkind (String.ofList_injective htext)
  rw [hpair, ← List.map_map, ← List.map_map, List.map_inj_right hinjective, tokenize, tokenize,
    Stream.toList, Stream.toList, List.map_append, List.map_append, Stream.map_lexeme_ofSource,
    Stream.map_lexeme_ofSource]
  exact List.append_left_inj _

theorem proper_of_mem_lexemes (h : l ∈ lexemes cs) : l.Proper := by
  obtain ⟨p, hp, rfl⟩ := List.mem_map.mp h
  exact ((apart_pieces cs).proper p hp).lexeme

/-! ## Lexemes of a certain kind -/

namespace Lexeme

theorem ofSymbol_ne_reserved (c : Char) :
    ∀ r ∈ reservedWords, Kind.ofSymbol c ≠ r.2 := by
  unfold Kind.ofSymbol
  split <;> decide

theorem Proper.text_of_reserved {word : String} {k : Kind} (h : l.Proper)
    (hmem : (word, k) ∈ reservedWords) (hk : l.kind = k) : l.text = word.toList := by
  have hall : ∀ r ∈ reservedWords, r.2 ≠ .identifier ∧ r.2 ≠ .integer ∧ r.2 ≠ .equal ∧
      r.2 ≠ .notEqual ∧ ∀ r' ∈ reservedWords, r'.2 = r.2 → r'.1 = r.1 := by
    decide
  obtain ⟨hident, hint, heq, hne, huniq⟩ := hall _ hmem
  cases h with
  | @word c cs =>
    rcases Kind.ofWord_cases (String.ofList (c :: cs)) with hw | hw
    · exact absurd (hk.symm.trans hw) hident
    · have := huniq _ hw hk
      simp only at this
      rw [← this, String.toList_ofList]
  | number => exact absurd hk.symm hint
  | symbol => exact absurd hk (ofSymbol_ne_reserved _ _ hmem)
  | symbols h =>
    rcases (Kind.ofSymbols?_eq_some_iff.mp h).2 with ⟨-, rfl⟩ | ⟨-, rfl⟩
    · exact absurd hk.symm heq
    · exact absurd hk.symm hne

theorem Proper.isWordStart_head (h : l.Proper) (hk : l.kind = .identifier) :
    ∀ c ∈ l.text.head?, isWordStart c := by
  have hsymbol : ∀ c, Kind.ofSymbol c ≠ .identifier := by
    intro c
    unfold Kind.ofSymbol
    split <;> decide
  cases h with
  | word hc =>
    rintro _ ⟨⟩
    exact hc
  | number => cases hk
  | symbol => exact absurd hk (hsymbol _)
  | symbols h =>
    rcases (Kind.ofSymbols?_eq_some_iff.mp h).2 with ⟨-, rfl⟩ | ⟨-, rfl⟩ <;> cases hk

theorem Proper.eq_of_goesOn (h : l.Proper) (hk : l.kind = .bang ∨ l.kind = .minus)
    (hd : l.goesOn d) : d = '=' := by
  have hall : ∀ r ∈ reservedWords, ¬(r.2 = .bang ∨ r.2 = .minus) := by decide
  cases h with
  | @word c cs =>
    rcases Kind.ofWord_cases (String.ofList (c :: cs)) with hw | hw
    · simp only [hw, reduceCtorEq, or_self] at hk
    · exact absurd hk (hall _ hw)
  | number => simp at hk
  | symbol _ hw hdigit =>
    simp only [goesOn, hw, hdigit, Bool.false_eq_true, if_false, List.isEmpty_nil, Bool.true_and]
      at hd
    obtain ⟨k, hk⟩ := Option.isSome_iff_exists.mp hd
    exact (Kind.ofSymbols?_eq_some_iff.mp hk).1
  | symbols h =>
    rcases (Kind.ofSymbols?_eq_some_iff.mp h).2 with ⟨-, rfl⟩ | ⟨-, rfl⟩ <;> simp at hk

end Lexeme

end PrattFrontend.Token
