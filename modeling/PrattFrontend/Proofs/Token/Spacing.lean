import Mathlib.Data.List.Chain
import PrattFrontend.Proofs.Token.Lexemes
import PrattFrontend.Proofs.Token.Prescription

/-!
# Tokens with other blanks between them

The literals of a source, put one behind the other with any blanks between them, are read as the
same tokens again, unless two of them touch that would merge. Which would is told by their kinds.

* **`Kind.Merges`**: the kinds of tokens that must not touch;
* `Lexeme.Proper.goesOn_head_iff`: a lexeme goes on into the next one exactly if they merge;
* `apart_iff`: rows of pieces in which nothing that touches merges;
* `eq_of_spelling_eq`: a text with given lexemes has its blanks in one way;
* **`lexemes_spelling_iff`**: the rows of pieces that are read again;
* **`map_tokenize_spaced_iff`**: sources.
-/

namespace PrattFrontend.Token

variable {c d : Char} {cs ds : List Char} {l m : Lexeme} {p q : Piece} {ps qs : List Piece}
  {last last' : List Char}

/-! ## Kinds that merge -/

/-- The kinds of words: identifiers, and what words are reserved for. -/
def Kind.isWord (k : Kind) : Bool :=
  k = .identifier || reservedWords.any fun r => r.2 = k

/-- A kind **merges** with the kind of the token behind it if the two would not be told apart without
a blank: a word with a word or a number, a number with a number, and an equals sign or an
exclamation mark with what starts with an equals sign. -/
def Kind.Merges (k k' : Kind) : Prop :=
  k.isWord ∧ (k'.isWord ∨ k' = .integer) ∨ k = .integer ∧ k' = .integer ∨
    (k = .assign ∨ k = .bang) ∧ (k' = .assign ∨ k' = .equal)

instance (k k' : Kind) : Decidable (k.Merges k') := by
  unfold Kind.Merges
  infer_instance

/-- A number may touch a word behind it, and so may an operator of two signs a third sign. -/
example : ¬Kind.Merges .integer .identifier ∧ ¬Kind.Merges .equal .assign := by decide

theorem Kind.isWord_ofWord (word : String) : (ofWord word).isWord := by
  rcases ofWord_cases word with h | h
  · rw [h]
    decide
  · rw [isWord, Bool.or_eq_true]
    exact .inr (List.any_eq_true.mpr ⟨_, h, by simp⟩)

theorem Kind.isWord_ofSymbol (c : Char) : (ofSymbol c).isWord = false := by
  unfold ofSymbol
  split <;> decide

theorem Kind.ofSymbol_eq_assign_or_equal_iff :
    ofSymbol c = .assign ∨ ofSymbol c = .equal ↔ c = '=' := by
  constructor
  · unfold ofSymbol
    split <;> simp
  · rintro rfl
    decide

/-! ## Lexemes that go on into the next one -/

namespace Lexeme.Proper

theorem isWord_iff (h : l.Proper) : IsWord l.text ↔ l.kind.isWord := by
  cases h with
  | @word c cs hc hcs =>
    refine iff_of_true ?_ (Kind.isWord_ofWord _)
    exact ⟨c, cs, rfl, isWordStart_iff.mp hc, fun d hd => isWordPart_iff.mp (hcs d hd)⟩
  | @number c cs hc =>
    have hw := isWordStart_eq_false_of_isDigit hc
    have hkind : ¬Kind.integer.isWord := by decide
    exact iff_of_false (not_isWord_of_not_letter (by simp [← isWordStart_iff, hw])) hkind
  | @symbol c _ hw =>
    exact iff_of_false (not_isWord_of_not_letter (by simp [← isWordStart_iff, hw]))
      (by simp [Kind.isWord_ofSymbol])
  | symbols h =>
    obtain ⟨rfl, ⟨rfl, rfl⟩ | ⟨rfl, rfl⟩⟩ := Kind.ofSymbols?_eq_some_iff.mp h
    · exact iff_of_false (not_isWord_of_not_letter (by decide)) (by decide)
    · exact iff_of_false (not_isWord_of_not_letter (by decide)) (by decide)

/-- **What a lexeme starts with is told by its kind**, as far as it matters. -/
theorem head_iff (h : l.Proper) (hd : d ∈ l.text.head?) :
    (Letter d ↔ l.kind.isWord) ∧ (Digit d ↔ l.kind = .integer) ∧
      (d = '=' ↔ l.kind = .assign ∨ l.kind = .equal) := by
  cases h with
  | @word c cs hc =>
    obtain rfl : c = d := Option.some.inj hd
    have hdigit : ¬Digit c := fun h => by
      rw [isWordStart_eq_false_of_isDigit (isDigit_iff.mpr h)] at hc
      cases hc
    have hequals : c ≠ '=' := by
      rintro rfl
      exact absurd hc (by decide)
    have hword := Kind.isWord_ofWord (String.ofList (c :: cs))
    generalize Kind.ofWord (String.ofList (c :: cs)) = k at hword ⊢
    have hne : k ≠ .integer ∧ k ≠ .assign ∧ k ≠ .equal := by
      refine ⟨?_, ?_, ?_⟩ <;> rintro rfl <;> exact absurd hword (by decide)
    simp [isWordStart_iff.mp hc, hword, hdigit, hequals, hne]
  | @number c cs hc =>
    obtain rfl : c = d := Option.some.inj hd
    have hletter : ¬Letter c := by
      rw [← isWordStart_iff, isWordStart_eq_false_of_isDigit hc]
      simp
    have hequals : c ≠ '=' := by
      rintro rfl
      exact absurd hc (by decide)
    have hkind : Kind.integer.isWord = false := by decide
    simp [hletter, hequals, hkind, isDigit_iff.mp hc]
  | @symbol c _ hw hdigit =>
    obtain rfl : c = d := Option.some.inj hd
    rw [← isWordStart_iff, ← isDigit_iff, hw, hdigit, Kind.isWord_ofSymbol]
    simp [(Kind.ofSymbol_ne c).2, Kind.ofSymbol_eq_assign_or_equal_iff]
  | symbols h =>
    obtain ⟨rfl, ⟨rfl, rfl⟩ | ⟨rfl, rfl⟩⟩ := Kind.ofSymbols?_eq_some_iff.mp h
    · obtain rfl : '=' = d := Option.some.inj hd
      decide
    · obtain rfl : '!' = d := Option.some.inj hd
      decide

/-- **A lexeme goes on into the next one exactly if their kinds merge.** -/
theorem goesOn_head_iff (hl : l.Proper) (hm : m.Proper) (hd : d ∈ m.text.head?) :
    l.goesOn d ↔ l.kind.Merges m.kind := by
  obtain ⟨hletter, hdigit, hequals⟩ := hm.head_iff hd
  rw [hl.goesOn_iff, Continues, hl.isWord_iff, hletter, hdigit, hequals, Kind.Merges]

end Lexeme.Proper

theorem Lexeme.goesOn_eq_false_of_isBlank (l : Lexeme) (h : isBlank d) : l.goesOn d = false := by
  by_contra hgo
  rcases eq_or_isWordPart_of_goesOn (Bool.not_eq_false _ ▸ hgo) with rfl | hpart
  · exact absurd h (by decide)
  · rw [isBlank_eq_false_of_isWordPart hpart] at h
    cases h

/-! ## Rows of pieces -/

theorem Piece.Proper.goesOn_eq_false_iff (hp : p.Proper) (hq : q.Proper) :
    (∀ d ∈ (q.text ++ ds).head?, p.lexeme.goesOn d = false) ↔
      (q.gap = [] → ¬p.lexeme.kind.Merges q.lexeme.kind) := by
  obtain ⟨gap, m⟩ := q
  cases gap with
  | nil =>
    obtain ⟨d, cs, hcs⟩ := List.exists_cons_of_ne_nil hq.lexeme.text_ne_nil
    have hgo := hp.lexeme.goesOn_head_iff hq.lexeme (d := d) (by rw [hcs]; rfl)
    simp only at hcs hgo
    simp [Piece.text, hcs, ← hgo]
  | cons b gap =>
    have hb := p.lexeme.goesOn_eq_false_of_isBlank (hq.gap b List.mem_cons_self)
    simp [Piece.text, hb]

/-- **A row of pieces stands apart if nothing that touches in it merges.** -/
theorem apart_iff (hps : ∀ p ∈ ps, p.Proper) (hlast : ∀ c ∈ last, isBlank c) :
    Apart ps last ↔
      ps.IsChain fun p q => q.gap = [] → ¬p.lexeme.kind.Merges q.lexeme.kind := by
  induction ps with
  | nil => simp [Apart.nil hlast]
  | cons p ps ih =>
    obtain ⟨hp, hrest⟩ := List.forall_mem_cons.mp hps
    have hnext : (∀ d ∈ (ps.flatMap Piece.text ++ last).head?, p.lexeme.goesOn d = false) ↔
        ∀ q ∈ ps.head?, q.gap = [] → ¬p.lexeme.kind.Merges q.lexeme.kind := by
      cases ps with
      | nil =>
        have hblank : ∀ d ∈ last.head?, p.lexeme.goesOn d = false := fun d hd =>
          p.lexeme.goesOn_eq_false_of_isBlank (hlast d (List.mem_of_head? hd))
        simpa using hblank
      | cons q ps =>
        rw [List.flatMap_cons, List.append_assoc,
          hp.goesOn_eq_false_iff (hrest q List.mem_cons_self)]
        simp
    rw [List.isChain_cons, ← ih hrest, ← hnext]
    constructor
    · rintro ⟨⟩
      exact ⟨‹_›, ‹_›⟩
    · rintro ⟨hgo, hapart⟩
      exact .cons hp hgo hapart

/-- **The blanks of a text stand between its lexemes in one way.** -/
theorem eq_of_spelling_eq (hps : ∀ p ∈ ps, p.Proper) (hqs : ∀ q ∈ qs, q.Proper)
    (hlexemes : ps.map Piece.lexeme = qs.map Piece.lexeme)
    (hspell : ps.flatMap Piece.text ++ last = qs.flatMap Piece.text ++ last') :
    ps = qs ∧ last = last' := by
  induction ps generalizing qs with
  | nil =>
    obtain rfl : qs = [] := List.map_eq_nil_iff.mp hlexemes.symm
    exact ⟨rfl, hspell⟩
  | cons p ps ih =>
    cases qs with
    | nil => cases hlexemes
    | cons q qs =>
      obtain ⟨hp, hps⟩ := List.forall_mem_cons.mp hps
      obtain ⟨hq, hqs⟩ := List.forall_mem_cons.mp hqs
      obtain ⟨hlexeme, hlexemes⟩ := List.cons.inj hlexemes
      simp only [List.flatMap_cons, Piece.text, List.append_assoc, hlexeme] at hspell
      -- the blanks before a lexeme are all there are, as it starts with none
      have hhead : ∀ cs, ∀ c ∈ (q.lexeme.text ++ cs).head?, isBlank c = false := by
        intro cs c hc
        rw [List.head?_append_of_ne_nil _ hq.lexeme.text_ne_nil] at hc
        exact hq.lexeme.isBlank_head c hc
      obtain ⟨hgap, hspell⟩ :=
        Lexeme.append_inj_of_head? hp.gap hq.gap (hhead _) (hhead _) hspell
      rw [List.append_cancel_left_eq] at hspell
      obtain ⟨rfl, rfl⟩ := ih hps hqs hlexemes hspell
      refine ⟨?_, rfl⟩
      cases p
      cases q
      simp_all

/-- **A row of pieces is read again** exactly if it stands apart. -/
theorem lexemes_spelling_iff (hps : ∀ p ∈ ps, p.Proper) :
    lexemes (ps.flatMap Piece.text ++ last) = ps.map Piece.lexeme ↔ Apart ps last := by
  constructor
  · intro h
    have hapart := apart_pieces (ps.flatMap Piece.text ++ last)
    obtain ⟨heq, hlast⟩ := eq_of_spelling_eq hapart.proper hps h (spelling_pieces _)
    rwa [heq, hlast] at hapart
  · intro h
    rw [lexemes, pieces_eq_iff.mpr ⟨h, rfl⟩]

/-! ## Sources -/

/-- The literals of a row of tokens one behind the other. The gaps before them are numbered from 0,
and one more comes behind the last. -/
def spaced (gap : Nat → String) (ts : List Token) : String :=
  String.join (ts.mapIdx fun i t => gap i ++ t.literal) ++ gap ts.length

/-- The pieces of which such a text is put together. -/
def spacedPieces (gap : Nat → String) (ts : List Token) : List Piece :=
  ts.mapIdx fun i t => ⟨(gap i).toList, t.lexeme⟩

section

variable (gap : Nat → String) (ts : List Token)

theorem toList_spaced :
    (spaced gap ts).toList =
      (spacedPieces gap ts).flatMap Piece.text ++ (gap ts.length).toList := by
  rw [spaced, spacedPieces, String.toList_append, String.toList_join, List.mapIdx_eq_zipIdx_map,
    List.mapIdx_eq_zipIdx_map, List.flatMap_map, List.flatMap_map]
  simp only [String.toList_append, Piece.text, lexeme]

@[simp] theorem map_lexeme_spacedPieces :
    (spacedPieces gap ts).map Piece.lexeme = ts.map lexeme := by
  refine List.ext_getElem (by simp [spacedPieces]) fun i hi hi' => ?_
  simp [spacedPieces]

theorem isChain_spacedPieces_iff :
    (spacedPieces gap ts).IsChain
        (fun p q => q.gap = [] → ¬p.lexeme.kind.Merges q.lexeme.kind) ↔
      ∀ i t u, ts[i]? = some t → ts[i + 1]? = some u → gap (i + 1) = "" →
        ¬t.kind.Merges u.kind := by
  rw [List.isChain_iff_getElem]
  constructor
  · intro h i t u ht hu hgap
    obtain ⟨hlt, rfl⟩ := List.getElem?_eq_some_iff.mp ht
    obtain ⟨hlt', rfl⟩ := List.getElem?_eq_some_iff.mp hu
    have := h i (by simpa [spacedPieces] using hlt')
    simpa [spacedPieces, hgap, lexeme] using this
  · intro h i hi
    have hlt : i + 1 < ts.length := by simpa [spacedPieces] using hi
    have := h i ts[i] ts[i + 1] (List.getElem?_eq_getElem _) (List.getElem?_eq_getElem _)
    simpa [spacedPieces, lexeme] using this

end

/-- **Tokens are read again exactly if no two of them touch that merge.** -/
theorem map_tokenize_spaced_iff (source : Source) (file : String) (gap : Nat → String)
    (hgap : ∀ i, ∀ c ∈ (gap i).toList, c ∈ blanks) :
    let ts := (Stream.ofSource source).ahead
    (tokenize ⟨spaced gap ts, file⟩).map (fun t => (t.kind, t.literal)) =
        (tokenize source).map (fun t => (t.kind, t.literal)) ↔
      ∀ i t u, ts[i]? = some t → ts[i + 1]? = some u → gap (i + 1) = "" →
        ¬t.kind.Merges u.kind := by
  intro ts
  have hblank : ∀ i, ∀ c ∈ (gap i).toList, isBlank c := fun i c hc => isBlank_iff.mpr (hgap i c hc)
  have hproper : ∀ p ∈ spacedPieces gap ts, p.Proper := by
    intro p hp
    obtain ⟨i, hi, rfl⟩ := List.mem_mapIdx.mp hp
    have hmem : ts[i].lexeme ∈ lexemes source.text.toList := by
      rw [← Stream.map_lexeme_ofSource]
      exact List.mem_map_of_mem (List.getElem_mem hi)
    exact ⟨hblank i, proper_of_mem_lexemes hmem⟩
  rw [map_tokenize_eq_iff, ← Stream.map_lexeme_ofSource source, toList_spaced,
    ← map_lexeme_spacedPieces gap, lexemes_spelling_iff hproper, apart_iff hproper (hblank _),
    isChain_spacedPieces_iff]

/-- A source in which a number stands before a word, one operator before another, and a character
that belongs to nothing at the end. -/
def gluedSource : Source :=
  .ofText "x 12 ab == = ! é" none

/-- The gaps with a tab before the second token and nothing else. -/
def oneTab (i : Nat) : String :=
  if i = 1 then "\t" else ""

/-- Only the first two tokens of the sample must not touch. -/
theorem map_tokenize_spaced_gluedSource :
    ((∀ i, ∀ c ∈ (oneTab i).toList, c ∈ blanks) ∧
        spaced oneTab (Stream.ofSource gluedSource).ahead = "x\t12ab===!é" ∧
        (tokenize ⟨"x\t12ab===!é", "glued"⟩).map (fun t => (t.kind, t.literal)) =
          (tokenize gluedSource).map fun t => (t.kind, t.literal)) ∧
      spaced (fun _ => "") (Stream.ofSource gluedSource).ahead = "x12ab===!é" ∧
        (tokenize ⟨"x12ab===!é", "glued"⟩).map (fun t => (t.kind, t.literal)) ≠
          (tokenize gluedSource).map fun t => (t.kind, t.literal) := by
  have hgap : ∀ i, ∀ c ∈ (oneTab i).toList, c ∈ blanks := by
    intro i
    unfold oneTab
    split <;> simp [blanks]
  have htab : spaced oneTab (Stream.ofSource gluedSource).ahead = "x\t12ab===!é" := by
    decide +kernel
  have hnone : spaced (fun _ => "") (Stream.ofSource gluedSource).ahead = "x12ab===!é" := by
    decide +kernel
  refine ⟨⟨hgap, htab, ?_⟩, hnone, fun h => ?_⟩
  · rw [← htab]
    exact (map_tokenize_spaced_iff gluedSource "glued" oneTab hgap).mpr
      ((isChain_spacedPieces_iff _ _).mp (by decide +kernel))
  · rw [← hnone] at h
    have hapart := (map_tokenize_spaced_iff gluedSource "glued" (fun _ => "") (by simp)).mp h
    rw [← isChain_spacedPieces_iff fun _ => ""] at hapart
    exact absurd hapart (by decide +kernel)

end PrattFrontend.Token
