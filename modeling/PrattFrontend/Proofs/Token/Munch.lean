import Mathlib.Data.List.Basic
import Mathlib.Data.List.TakeWhile
import Mathlib.Tactic.Common
import PrattFrontend.Proofs.Token.Lexed

/-!
# How lexemes part

Each lexeme takes as much of the text as it can. Which rows of lexemes, with blanks before them, are
the pieces of a text can be said without reading the text: no lexeme would go on with the character
behind it.

* `Lexeme.Proper`: what a lexeme consists of;
* `Lexeme.goesOn`: the characters that would be read as part of a lexeme before them;
* **`Lexeme.read?_eq_some_iff`**: a lexeme is read exactly if it does not go on;
* `Apart`: a row of pieces that do not go on one into another;
* **`pieces_eq_iff`**: the pieces of a text are the one such row that spells it;
* `Apart.append`, `pieces_append`: texts one behind another.
-/

namespace PrattFrontend.Token

variable {c d : Char} {cs ds : List Char} {l : Lexeme}

/-! ## Characters -/

theorem isBlank_eq_false_of_isWordPart (h : isWordPart c) : isBlank c = false := by
  by_contra hb
  rw [Bool.not_eq_false, isBlank, Char.isWhitespace] at hb
  simp only [Bool.or_eq_true, decide_eq_true_eq] at hb
  rcases hb with ((rfl | rfl) | rfl) | rfl <;> exact absurd h (by decide)

theorem isWordPart_of_isWordStart (h : isWordStart c) : isWordPart c := by
  simp only [isWordStart, isWordPart, Char.isAlphanum, Bool.or_eq_true, decide_eq_true_eq] at h ⊢
  tauto

theorem isWordPart_of_isDigit (h : c.isDigit) : isWordPart c := by
  simp [isWordPart, Char.isAlphanum, h]

theorem isWordStart_eq_false_of_isDigit (h : c.isDigit) : isWordStart c = false := by
  have hle : c.val.toNat ≤ 57 := (Char.isDigit_iff_toNat.mp h).2
  by_contra hw
  simp only [Bool.not_eq_false, isWordStart, Bool.or_eq_true, decide_eq_true_eq] at hw
  rcases hw with hw | rfl
  · change (decide (c.val ≥ 'A'.val ∧ c.val ≤ 'Z'.val) ||
      (decide (c.val ≥ 'a'.val) && decide (c.val ≤ 'z'.val))) = true at hw
    simp only [Bool.or_eq_true, Bool.and_eq_true, decide_eq_true_eq, ge_iff_le,
      UInt32.le_iff_toNat_le] at hw
    have hA : 'A'.val.toNat = 65 := rfl
    have ha : 'a'.val.toNat = 97 := rfl
    omega
  · exact absurd h (by decide)

theorem Kind.ofSymbols?_eq_some_iff {k : Kind} :
    ofSymbols? c d = some k ↔ d = '=' ∧ (c = '=' ∧ k = .equal ∨ c = '!' ∧ k = .notEqual) := by
  constructor
  · intro h
    unfold ofSymbols? at h
    split at h
    · cases h
      exact ⟨rfl, .inl ⟨rfl, rfl⟩⟩
    · cases h
      exact ⟨rfl, .inr ⟨rfl, rfl⟩⟩
    · cases h
  · rintro ⟨rfl, ⟨rfl, rfl⟩ | ⟨rfl, rfl⟩⟩
    · rfl
    · rfl

theorem Kind.ofWord_cases (word : String) :
    ofWord word = .identifier ∨ (word, ofWord word) ∈ reservedWords := by
  unfold ofWord
  cases h : reservedWords.lookup word with
  | none => exact .inl rfl
  | some k =>
    obtain ⟨before, behind, heq, -⟩ := List.lookup_eq_some_iff.mp h
    exact .inr (by rw [heq]; simp)

/-! ## One lexeme -/

namespace Lexeme

/-- What a **proper** lexeme consists of: a word, a run of digits, or one or two characters of any
other sort. -/
inductive Proper : Lexeme → Prop
  | word {c : Char} {cs : List Char} (hc : isWordStart c) (hcs : ∀ d ∈ cs, isWordPart d) :
      Proper ⟨.ofWord (String.ofList (c :: cs)), c :: cs⟩
  | number {c : Char} {cs : List Char} (hc : c.isDigit) (hcs : ∀ d ∈ cs, d.isDigit) :
      Proper ⟨.integer, c :: cs⟩
  | symbol {c : Char} (hb : isBlank c = false) (hw : isWordStart c = false)
      (hd : c.isDigit = false) : Proper ⟨.ofSymbol c, [c]⟩
  | symbols {c d : Char} {k : Kind} (h : Kind.ofSymbols? c d = some k) : Proper ⟨k, [c, d]⟩

/-- Whether a character right behind a lexeme would be read as part of it. -/
def goesOn (l : Lexeme) (d : Char) : Bool :=
  match l.text with
  | [] => false
  | c :: cs =>
    if isWordStart c then isWordPart d
    else if c.isDigit then d.isDigit
    else cs.isEmpty && (Kind.ofSymbols? c d).isSome

theorem eq_or_isWordPart_of_goesOn (h : l.goesOn d) : d = '=' ∨ isWordPart d := by
  unfold goesOn at h
  split at h
  · cases h
  · split at h
    · exact .inr h
    · split at h
      · exact .inr (isWordPart_of_isDigit h)
      · obtain ⟨k, hk⟩ := Option.isSome_iff_exists.mp (Bool.and_eq_true_iff.mp h).2
        exact .inl (Kind.ofSymbols?_eq_some_iff.mp hk).1

theorem Proper.text_ne_nil (h : l.Proper) : l.text ≠ [] := by
  cases h <;> simp

theorem Proper.goesOn_eq_false_of_semicolon (h : l.Proper) (hk : l.kind = .semicolon) (d : Char) :
    l.goesOn d = false := by
  have hall : ∀ r ∈ reservedWords, r.2 ≠ .semicolon := by decide
  cases h with
  | @word c cs =>
    rcases Kind.ofWord_cases (String.ofList (c :: cs)) with hw | hw
    · rw [hw] at hk
      cases hk
    · exact absurd hk (hall _ hw)
  | number => cases hk
  | @symbol c _ hw hd =>
    simp only [goesOn, hw, hd, Bool.false_eq_true, if_false, List.isEmpty_nil, Bool.true_and]
    rw [Option.isSome_eq_false_iff, Option.isNone_iff_eq_none, Option.eq_none_iff_forall_ne_some]
    intro k h
    rcases (Kind.ofSymbols?_eq_some_iff.mp h).2 with ⟨rfl, -⟩ | ⟨rfl, -⟩ <;> cases hk
  | symbols h =>
    rcases (Kind.ofSymbols?_eq_some_iff.mp h).2 with ⟨-, rfl⟩ | ⟨-, rfl⟩ <;> cases hk

theorem Proper.isBlank_head (h : l.Proper) : ∀ c ∈ l.text.head?, isBlank c = false := by
  cases h with
  | word hc =>
    rintro _ ⟨⟩
    exact isBlank_eq_false_of_isWordPart (isWordPart_of_isWordStart hc)
  | number hc =>
    rintro _ ⟨⟩
    exact isBlank_eq_false_of_isWordPart (isWordPart_of_isDigit hc)
  | symbol hb =>
    rintro _ ⟨⟩
    exact hb
  | symbols h =>
    rintro _ ⟨⟩
    obtain ⟨-, ⟨rfl, -⟩ | ⟨rfl, -⟩⟩ := Kind.ofSymbols?_eq_some_iff.mp h
    · decide
    · decide

theorem takeWhile_append_of_head? {p : Char → Bool} (hcs : ∀ c ∈ cs, p c)
    (hds : ∀ d ∈ ds.head?, p d = false) : (cs ++ ds).takeWhile p = cs := by
  rw [List.takeWhile_append_of_pos hcs]
  cases ds with
  | nil => simp
  | cons d ds => simp [hds d rfl]

theorem dropWhile_append_of_head? {p : Char → Bool} (hcs : ∀ c ∈ cs, p c)
    (hds : ∀ d ∈ ds.head?, p d = false) : (cs ++ ds).dropWhile p = ds := by
  rw [List.dropWhile_append_of_pos hcs]
  cases ds with
  | nil => rfl
  | cons d ds => simp [hds d rfl]

theorem append_inj_of_head? {p : Char → Bool} {as bs : List Char} (has : ∀ c ∈ as, p c)
    (hbs : ∀ c ∈ bs, p c) (hcs : ∀ c ∈ cs.head?, p c = false) (hds : ∀ d ∈ ds.head?, p d = false)
    (h : as ++ cs = bs ++ ds) : as = bs ∧ cs = ds := by
  have htake := congrArg (List.takeWhile p) h
  have hdrop := congrArg (List.dropWhile p) h
  rw [takeWhile_append_of_head? has hcs, takeWhile_append_of_head? hbs hds] at htake
  rw [dropWhile_append_of_head? has hcs, dropWhile_append_of_head? hbs hds] at hdrop
  exact ⟨htake, hdrop⟩

theorem head?_dropWhile_eq_false (p : Char → Bool) (cs : List Char) :
    ∀ d ∈ (cs.dropWhile p).head?, p d = false := by
  intro d hd
  have := List.head?_dropWhile_not p cs
  rw [Option.mem_def.mp hd] at this
  simpa using this

theorem Proper.read?_append (h : l.Proper) (hds : ∀ d ∈ ds.head?, l.goesOn d = false) :
    read? (l.text ++ ds) = some (l, ds) := by
  cases h with
  | @word c cs hc hcs =>
    replace hds : ∀ d ∈ ds.head?, isWordPart d = false := by simpa [goesOn, hc] using hds
    simp only [List.cons_append, read?, readFrom, hc, if_true, Lexeme.word,
      takeWhile_append_of_head? hcs hds, dropWhile_append_of_head? hcs hds]
  | @number c cs hc hcs =>
    have hw := isWordStart_eq_false_of_isDigit hc
    replace hds : ∀ d ∈ ds.head?, d.isDigit = false := by simpa [goesOn, hc, hw] using hds
    simp [read?, readFrom, hc, hw, Lexeme.number, takeWhile_append_of_head? hcs hds,
      dropWhile_append_of_head? hcs hds]
  | @symbol c hb hw hd =>
    cases ds with
    | nil => simp [read?, readFrom, hw, hd, Lexeme.symbol]
    | cons d ds =>
      have hnone : Kind.ofSymbols? c d = none := by simpa [goesOn, hw, hd] using hds
      simp [read?, readFrom, hw, hd, Lexeme.symbol, hnone]
  | @symbols c d k h =>
    have hc : isWordStart c = false ∧ c.isDigit = false := by
      obtain ⟨-, ⟨rfl, -⟩ | ⟨rfl, -⟩⟩ := Kind.ofSymbols?_eq_some_iff.mp h
      · decide
      · decide
    simp [read?, readFrom, hc, Lexeme.symbol, h]

theorem proper_readFrom (hc : isBlank c = false) (cs : List Char) :
    (readFrom c cs).1.Proper ∧
      ∀ d ∈ (readFrom c cs).2.head?, (readFrom c cs).1.goesOn d = false := by
  unfold readFrom
  by_cases hw : isWordStart c
  · rw [if_pos hw]
    refine ⟨.word hw fun d hd => List.all_eq_true.mp List.all_takeWhile d hd, ?_⟩
    simpa only [goesOn, Lexeme.word, hw, if_true] using head?_dropWhile_eq_false isWordPart cs
  · rw [if_neg hw]
    by_cases hd : c.isDigit
    · rw [if_pos hd]
      refine ⟨.number hd fun d hd => List.all_eq_true.mp List.all_takeWhile d hd, ?_⟩
      simpa only [goesOn, Lexeme.number, hw, hd, if_true, if_false, Bool.false_eq_true] using
        head?_dropWhile_eq_false Char.isDigit cs
    · rw [if_neg hd]
      rw [Bool.not_eq_true] at hw hd
      cases cs with
      | nil => exact ⟨.symbol hc hw hd, by simp [Lexeme.symbol]⟩
      | cons d cs =>
        simp only [Lexeme.symbol]
        split
        · next h => exact ⟨.symbols h, by simp [goesOn, hw, hd]⟩
        · next h => exact ⟨.symbol hc hw hd, by simp [goesOn, hw, hd, h]⟩

/-- **One is read exactly if it is proper, the text starts with it, and it does not go on.** -/
theorem read?_eq_some_iff (hcs : ∀ c ∈ cs.head?, isBlank c = false) :
    read? cs = some (l, ds) ↔
      l.Proper ∧ l.text ++ ds = cs ∧ ∀ d ∈ ds.head?, l.goesOn d = false := by
  constructor
  · intro h
    have htext := text_append_of_read? h
    cases cs with
    | nil => cases h
    | cons c cs =>
      obtain ⟨hl, hds⟩ := proper_readFrom (hcs c rfl) cs
      rw [Option.some.inj h] at hl hds
      exact ⟨hl, htext, hds⟩
  · rintro ⟨hl, rfl, hds⟩
    exact hl.read?_append hds

theorem proper_iff :
    l.Proper ↔ l.text.head?.all (fun c => !isBlank c) ∧ read? l.text = some (l, []) := by
  have hall : l.text.head?.all (fun c => !isBlank c) ↔ ∀ c ∈ l.text.head?, isBlank c = false := by
    cases l.text.head? <;> simp
  rw [hall]
  constructor
  · intro h
    exact ⟨h.isBlank_head, (read?_eq_some_iff h.isBlank_head).mpr ⟨h, by simp, by simp⟩⟩
  · rintro ⟨hblank, hread⟩
    exact ((read?_eq_some_iff hblank).mp hread).1

instance (l : Lexeme) : Decidable l.Proper :=
  decidable_of_iff _ proper_iff.symm

end Lexeme

/-! ## Rows of lexemes -/

namespace Piece

/-- A piece consists of blanks and a proper lexeme. -/
structure Proper (p : Piece) : Prop where
  gap : ∀ c ∈ p.gap, isBlank c
  lexeme : p.lexeme.Proper

/-- **One is read exactly if it is proper, the text starts with it, and it does not go on.** -/
theorem read?_eq_some_iff {p : Piece} :
    read? cs = some (p, ds) ↔
      p.Proper ∧ p.text ++ ds = cs ∧ ∀ d ∈ ds.head?, p.lexeme.goesOn d = false := by
  have hhead := Lexeme.head?_dropWhile_eq_false isBlank cs
  constructor
  · intro h
    have htext := text_append_of_read? h
    obtain ⟨⟨l, r⟩, hl, heq⟩ := Option.map_eq_some_iff.mp h
    cases heq
    obtain ⟨hp, -, hds⟩ := (Lexeme.read?_eq_some_iff hhead).mp hl
    exact ⟨⟨fun c hc => List.all_eq_true.mp List.all_takeWhile c hc, hp⟩, htext, hds⟩
  · rintro ⟨⟨hgap, hl⟩, rfl, hds⟩
    have hblank : ∀ c ∈ (p.lexeme.text ++ ds).head?, isBlank c = false := by
      intro c hc
      refine hl.isBlank_head c ?_
      rwa [List.head?_append_of_ne_nil _ hl.text_ne_nil] at hc
    simp only [read?, text, List.append_assoc, Lexeme.dropWhile_append_of_head? hgap hblank,
      Lexeme.takeWhile_append_of_head? hgap hblank, hl.read?_append hds, Option.map_some]

theorem read?_eq_none_iff : read? cs = none ↔ ∀ c ∈ cs, isBlank c := by
  rw [read?, Option.map_eq_none_iff, Lexeme.read?_eq_none_iff, List.dropWhile_eq_nil_iff]

end Piece

/-- Pieces, with blanks behind the last of them, that stand **apart**: none of them goes on with the
character that comes behind it. -/
inductive Apart : List Piece → List Char → Prop
  | nil {last : List Char} (h : ∀ c ∈ last, isBlank c) : Apart [] last
  | cons {p : Piece} {ps : List Piece} {last : List Char} (hp : p.Proper)
      (hnext : ∀ d ∈ (ps.flatMap Piece.text ++ last).head?, p.lexeme.goesOn d = false)
      (h : Apart ps last) : Apart (p :: ps) last

theorem apart_pieces (cs : List Char) : Apart (pieces cs).1 (pieces cs).2 := by
  fun_induction pieces cs with
  | case1 cs h => exact .nil (Piece.read?_eq_none_iff.mp h)
  | case2 cs p rest h more ih =>
    obtain ⟨hp, -, hds⟩ := Piece.read?_eq_some_iff.mp h
    exact .cons hp (by rwa [spelling_pieces rest]) ih

/-- **The pieces of a text are the row of pieces that spells it and stands apart.** -/
theorem pieces_eq_iff {ps : List Piece} :
    pieces cs = (ps, ds) ↔ Apart ps ds ∧ ps.flatMap Piece.text ++ ds = cs := by
  constructor
  · intro h
    have hapart := apart_pieces cs
    have hspell := spelling_pieces cs
    rw [h] at hapart hspell
    exact ⟨hapart, hspell⟩
  · rintro ⟨hapart, hspell⟩
    induction hapart generalizing cs with
    | nil h =>
      rw [List.flatMap_nil, List.nil_append] at hspell
      rw [← hspell]
      exact pieces_of_read?_eq_none (Piece.read?_eq_none_iff.mpr h)
    | cons hp hnext _ ih =>
      rw [List.flatMap_cons, List.append_assoc] at hspell
      rw [pieces_of_read? (Piece.read?_eq_some_iff.mpr ⟨hp, hspell, hnext⟩), ih rfl]

/-! ## Texts one behind another -/

/-- The pieces of a text, with blanks put before it. -/
def indented (blanks : List Char) : List Piece × List Char → List Piece × List Char
  | ([], last) => ([], blanks ++ last)
  | (p :: ps, last) => (⟨blanks ++ p.gap, p.lexeme⟩ :: ps, last)

theorem spelling_indented (blanks : List Char) (r : List Piece × List Char) :
    (indented blanks r).1.flatMap Piece.text ++ (indented blanks r).2 =
      blanks ++ (r.1.flatMap Piece.text ++ r.2) := by
  obtain ⟨ps, last⟩ := r
  cases ps with
  | nil => rfl
  | cons p ps => simp [indented, Piece.text]

theorem Apart.indented {blanks : List Char} (hb : ∀ c ∈ blanks, isBlank c)
    {r : List Piece × List Char} (h : Apart r.1 r.2) :
    Apart (indented blanks r).1 (indented blanks r).2 := by
  obtain ⟨ps, last⟩ := r
  cases h with
  | nil h => exact .nil (List.forall_mem_append.mpr ⟨hb, h⟩)
  | cons hp hnext h =>
    exact .cons ⟨List.forall_mem_append.mpr ⟨hb, hp.gap⟩, hp.lexeme⟩ hnext h

theorem Apart.isBlank_last {ps : List Piece} {last : List Char} (h : Apart ps last) :
    ∀ c ∈ last, isBlank c := by
  induction h with
  | nil h => exact h
  | cons _ _ _ ih => exact ih

theorem Apart.proper {ps : List Piece} {last : List Char} (h : Apart ps last) :
    ∀ p ∈ ps, p.Proper := by
  induction h with
  | nil => simp
  | cons hp _ _ ih => exact List.forall_mem_cons.mpr ⟨hp, ih⟩

theorem Apart.append {ps qs : List Piece} {last last' : List Char} (hps : Apart ps last)
    (hqs : Apart qs last')
    (hlast : ∀ p ∈ ps.getLast?, ∀ d ∈ (qs.flatMap Piece.text ++ last').head?,
      p.lexeme.goesOn d = false) : Apart (ps ++ qs) last' := by
  induction hps with
  | nil => exact hqs
  | @cons p ps last hp hnext h ih =>
    cases h with
    | nil => exact .cons hp (hlast p rfl) hqs
    | @cons q ps last hq hnext' h =>
      refine .cons hp (fun d hd => hnext d ?_) (ih fun r hr => hlast r (by simpa using hr))
      -- the next character is the first of the piece behind, whatever comes after that piece
      have hne : q.text ≠ [] := by simp [Piece.text, hq.lexeme.text_ne_nil]
      change d ∈ (List.flatMap Piece.text (q :: (ps ++ qs)) ++ last').head? at hd
      rw [List.flatMap_cons, List.append_assoc, List.head?_append_of_ne_nil _ hne] at hd
      rwa [List.flatMap_cons, List.append_assoc, List.head?_append_of_ne_nil _ hne]

/-- **The pieces of two texts, one behind the other**, if the first does not go on. -/
theorem pieces_append
    (h : ∀ p ∈ (pieces cs).1.getLast?, ∀ d ∈ ((pieces cs).2 ++ ds).head?,
      p.lexeme.goesOn d = false) :
    pieces (cs ++ ds) = ((pieces cs).1 ++ (indented (pieces cs).2 (pieces ds)).1,
      (indented (pieces cs).2 (pieces ds)).2) := by
  have hcs := apart_pieces cs
  have hspell := spelling_indented (pieces cs).2 (pieces ds)
  rw [spelling_pieces] at hspell
  refine pieces_eq_iff.mpr ⟨hcs.append ((apart_pieces ds).indented hcs.isBlank_last) ?_, ?_⟩
  · rwa [hspell]
  · rw [List.flatMap_append, List.append_assoc, hspell, ← List.append_assoc, spelling_pieces]

end PrattFrontend.Token
