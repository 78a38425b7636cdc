import Mathlib.Tactic.Common
import PrattFrontend.Proofs.Token.Partition
import PrattFrontend.Proofs.Tree.Relocation

/-!
# Where the tokens of a source stand

As long as offsets fit into their 32 bits, the tokens of a source stand in it one behind another, and
those of a text that comes behind another text stand as many bytes further on.

* **`Token.Stream.pairwise_ofSource`**: the tokens of a source start one behind another;
* **`Token.Stream.exists_text_eq`**: each starts where its literal stands in the text;
* `Token.StartsAt`, `Token.Stream.startsAt_of_mem_rows`, `Token.Stream.pairwise_rows`: the same for
  sources of any length, by byte offsets that positions need not hold;
* `Token.placedAt_append`, `Token.map_relocate_placed`: rows of pieces one behind another, and a row
  that stands further on;
* `Token.Stream.ofSource_blanks`, **`Token.Stream.ofSource_append`**: the tokens of two texts, one
  behind the other.
-/

namespace PrattFrontend.Token

open Text (byteLength byteLength_append)

/-- **The tokens of a source start one behind another.** -/
theorem Stream.pairwise_ofSource {source : Source}
    (h : byteLength source.text.toList ≤ Position.maxOffset) :
    (ofSource source).ahead.Pairwise StartsBefore :=
  (List.pairwise_append.mp (pairwise_tokenize h)).1

/-- **A token of a source starts where its literal stands in the text.** -/
theorem Stream.exists_text_eq {source : Source}
    (hlen : byteLength source.text.toList ≤ Position.maxOffset) {t : Token}
    (ht : t ∈ (ofSource source).ahead) : ∃ before behind,
      source.text.toList = before ++ t.literal.toList ++ behind ∧
        byteLength before = t.span.start.offset ∧
        ∃ c ∈ t.literal.toList.head?, isBlank c = false := by
  obtain ⟨pre, p, post, hps, rfl⟩ := exists_of_mem_placed ht
  have htext := spelling_pieces source.text.toList
  rw [hps, List.flatMap_append, List.flatMap_cons, Piece.text] at htext
  have hproper : p.lexeme.Proper :=
    ((apart_pieces source.text.toList).proper p (by simp [hps])).lexeme
  refine ⟨pre.flatMap Piece.text ++ p.gap, post.flatMap Piece.text ++ (pieces source.text.toList).2,
    htext.symm.trans (by simp [Lexeme.token]), ?_, ?_⟩
  · have hle := congrArg byteLength htext
    simp only [byteLength_append] at hle
    rw [Nat.zero_add, start_token, byteLength_append]
    rw [byteLength_append]
    omega
  · obtain ⟨c, cs, hcs⟩ := List.exists_cons_of_ne_nil hproper.text_ne_nil
    have hc : c ∈ p.lexeme.text.head? := by rw [hcs]; rfl
    exact ⟨c, by simpa [Lexeme.token] using hc, hproper.isBlank_head c hc⟩

/-! ## Byte offsets without a bound -/

/-- A token **starts at** a byte of a source if its literal stands there in the text, and its span
is that of the literal, as far as spans reach. -/
def StartsAt (source : Source) (t : Token) (start : Nat) : Prop :=
  (∃ before behind, source.text.toList = before ++ t.literal.toList ++ behind ∧
    byteLength before = start) ∧
  t.span = .between start (start + byteLength t.literal.toList) source.file

/-- **Each token of a source starts at the byte that it comes with.** -/
theorem Stream.startsAt_of_mem_rows {source : Source} {r : Token × Nat}
    (h : r ∈ (ofSource source).rows) : r.1.StartsAt source r.2 := by
  rcases List.mem_append.mp h with h | h
  · obtain ⟨pre, p, post, hps, rfl⟩ := exists_of_mem_placedAt h
    have htext := spelling_pieces source.text.toList
    rw [hps, List.flatMap_append, List.flatMap_cons, Piece.text] at htext
    refine ⟨⟨pre.flatMap Piece.text ++ p.gap,
      post.flatMap Piece.text ++ (pieces source.text.toList).2,
      htext.symm.trans (by simp [Lexeme.token]), (Nat.zero_add _).symm⟩, by simp [Lexeme.token]⟩
  · obtain rfl := List.mem_singleton.mp h
    exact ⟨⟨source.text.toList, [], by simp [endAt], rfl⟩, by simp [endAt, ofSource, Span.between]⟩

theorem pairwise_placedAt {file : String} {offset stopByte : Nat} {ps : List Piece} {last : Token}
    (hps : ∀ p ∈ ps, p.lexeme.text ≠ [])
    (hstop : offset + byteLength (ps.flatMap Piece.text) ≤ stopByte) :
    (placedAt file offset ps ++ [(last, stopByte)]).Pairwise fun r r' => r.2 < r'.2 := by
  induction ps generalizing offset with
  | nil => exact List.pairwise_singleton _ _
  | cons p ps ih =>
    obtain ⟨hp, hps⟩ := List.forall_mem_cons.mp hps
    have hpos : byteLength p.lexeme.text ≠ 0 := mt Text.byteLength_eq_zero_iff.mp hp
    have htext : byteLength p.text = byteLength p.gap + byteLength p.lexeme.text :=
      byteLength_append _ _
    rw [List.flatMap_cons, byteLength_append] at hstop
    refine List.pairwise_cons.mpr ⟨fun r hr => ?_, ih hps (by omega)⟩
    rcases List.mem_append.mp hr with hr | hr
    · obtain ⟨-, -, -, -, rfl⟩ := exists_of_mem_placedAt hr
      simp only
      omega
    · rw [List.mem_singleton.mp hr]
      simp only
      omega

/-- **Each token of a source starts behind the one before it.** -/
theorem Stream.pairwise_rows (source : Source) :
    (ofSource source).rows.Pairwise fun r r' => r.2 < r'.2 := by
  have htext := congrArg byteLength (spelling_pieces source.text.toList)
  rw [byteLength_append] at htext
  refine pairwise_placedAt
    (fun p hp => ((apart_pieces source.text.toList).proper p hp).lexeme.text_ne_nil) ?_
  simp only [ofSource]
  omega

/-! ## Texts one behind another -/

theorem placedAt_append (file : String) (offset : Nat) (ps qs : List Piece) :
    placedAt file offset (ps ++ qs) = placedAt file offset ps ++
      placedAt file (offset + byteLength (ps.flatMap Piece.text)) qs := by
  induction ps generalizing offset with
  | nil => rfl
  | cons p ps ih =>
    simp only [List.cons_append, placedAt, ih, List.flatMap_cons, byteLength_append, Nat.add_assoc]

theorem placedAt_indented (file : String) (offset : Nat) (blanks : List Char)
    (r : List Piece × List Char) :
    placedAt file offset (indented blanks r).1 =
      placedAt file (offset + byteLength blanks) r.1 := by
  obtain ⟨ps, last⟩ := r
  cases ps with
  | nil => rfl
  | cons p ps => simp only [indented, placedAt, Piece.text, byteLength_append, Nat.add_assoc]

/-- **Blanks between two texts** put the tokens of the second further on. -/
theorem Stream.ofSource_blanks {file : String} {before blanks behind : List Char}
    (hblanks : ∀ c ∈ blanks, isBlank c)
    (h : ∀ p ∈ (pieces before).1.getLast?, ∀ d ∈ ((pieces before).2 ++ (blanks ++ behind)).head?,
      p.lexeme.goesOn d = false) :
    let start := byteLength before + byteLength blanks
    ofSource ⟨String.ofList (before ++ (blanks ++ behind)), file⟩ =
      ⟨placedAt file 0 (pieces before).1 ++ placedAt file start (pieces behind).1,
        .atByte (start + byteLength behind) file, start + byteLength behind⟩ := by
  intro start
  have hnone : pieces blanks = ([], blanks) :=
    pieces_of_read?_eq_none (Piece.read?_eq_none_iff.mpr hblanks)
  have hpieces : pieces (blanks ++ behind) = indented blanks (pieces behind) := by
    rw [pieces_append (by simp [hnone]), hnone]
    rfl
  have hbefore := congrArg byteLength (spelling_pieces before)
  rw [byteLength_append] at hbefore
  simp only [ofSource, String.toList_ofList, pieces_append h, hpieces, placedAt_append,
    placedAt_indented, byteLength_append, Nat.zero_add, hbefore, ← Nat.add_assoc, start]

theorem Stream.ofSource_spaces {file : String} {before behind : List Char} (n : Nat)
    (h : ∀ p ∈ (pieces before).1.getLast?,
      ∀ d ∈ ((pieces before).2 ++ (List.replicate n ' ' ++ behind)).head?,
        p.lexeme.goesOn d = false) :
    ofSource ⟨String.ofList (before ++ (List.replicate n ' ' ++ behind)), file⟩ =
      ⟨placedAt file 0 (pieces before).1 ++
          placedAt file (byteLength before + n) (pieces behind).1,
        .atByte (byteLength before + n + byteLength behind) file,
        byteLength before + n + byteLength behind⟩ := by
  have hlength : byteLength (List.replicate n ' ') = n :=
    (Text.byteLength_replicate n ' ').trans (Nat.mul_one n)
  have hstream := @ofSource_blanks file before (List.replicate n ' ') behind (by simp [isBlank]) h
  rw [hlength] at hstream
  exact hstream

theorem map_relocate_placed {file : String} {n offset : Nat} {ps : List Piece}
    (h : n + offset + byteLength (ps.flatMap Piece.text) ≤ Position.maxOffset) :
    (placed file offset ps).map (relocate (Position.shift n)) = placed file (n + offset) ps := by
  induction ps generalizing offset with
  | nil => rfl
  | cons p ps ih =>
    rw [List.flatMap_cons, byteLength_append] at h
    have htext : byteLength p.text = byteLength p.gap + byteLength p.lexeme.text :=
      byteLength_append _ _
    rw [placed_cons, placed_cons, List.map_cons, ih (by omega), ← Nat.add_assoc]
    refine congrArg₂ _ ?_ rfl
    simp only [relocate, Lexeme.token, Span.between]
    rw [Position.shift_atByte (by omega), Position.shift_atByte (by omega)]
    simp only [Nat.add_assoc]

theorem exists_of_mem_getLast?_placed {file : String} {offset : Nat} {ps : List Piece} {t : Token}
    (h : t ∈ (placed file offset ps).getLast?) :
    ∃ p ∈ ps.getLast?, ∃ start, t = p.lexeme.token start file := by
  induction ps generalizing offset with
  | nil => cases h
  | cons p ps ih =>
    cases ps with
    | nil => exact ⟨p, rfl, _, (Option.some.inj h).symm⟩
    | cons q ps =>
      have hrest : t ∈ (placed file (offset + byteLength p.text) (q :: ps)).getLast? := by
        rwa [placed_cons, placed_cons, List.getLast?_cons_cons] at h
      obtain ⟨r, hr, start, heq⟩ := ih hrest
      exact ⟨r, by rwa [List.getLast?_cons_cons], start, heq⟩

/-- **The tokens of two texts, one behind the other**, at a semicolon. -/
theorem Stream.ofSource_append {file before behind : String}
    (hlen : byteLength (before ++ behind).toList ≤ Position.maxOffset)
    (hlast : ∃ t ∈ (ofSource ⟨before, file⟩).ahead.getLast?, t.kind = .semicolon) :
    let shift := Position.shift (byteLength before.toList)
    (ofSource ⟨before ++ behind, file⟩).ahead =
        (ofSource ⟨before, file⟩).ahead ++ (ofSource ⟨behind, file⟩).ahead.map (relocate shift) ∧
      (ofSource ⟨before ++ behind, file⟩).stop = shift (ofSource ⟨behind, file⟩).stop := by
  intro shift
  obtain ⟨t, ht, hk⟩ := hlast
  obtain ⟨p, hp, start, rfl⟩ := exists_of_mem_getLast?_placed ht
  have hproper := ((apart_pieces before.toList).proper p (List.mem_of_getLast? hp)).lexeme
  have hpieces : pieces (before.toList ++ behind.toList) = _ := pieces_append fun q hq d _ => by
    obtain rfl : p = q := Option.some.inj (hp.symm.trans hq)
    exact hproper.goesOn_eq_false_of_semicolon hk d
  have hbefore := congrArg byteLength (spelling_pieces before.toList)
  have hbehind := congrArg byteLength (spelling_pieces behind.toList)
  rw [byteLength_append] at hbefore hbehind
  rw [String.toList_append, byteLength_append] at hlen
  constructor
  · simp only [ahead_ofSource, String.toList_append, hpieces]
    rw [map_relocate_placed (by omega), placed, placedAt_append, placedAt_indented,
      List.map_append, Nat.zero_add, hbefore, Nat.add_zero]
    rfl
  · simp only [ofSource, String.toList_append, byteLength_append]
    exact (Position.shift_atByte (by omega) file).symm

end PrattFrontend.Token
