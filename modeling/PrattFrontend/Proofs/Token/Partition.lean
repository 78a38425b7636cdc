import PrattFrontend.Proofs.Text.Bytes
import PrattFrontend.Proofs.Token.Lexemes
import PrattFrontend.Proofs.Token.Prescription

/-!
# A text and its tokens

The tokens of a source stand in it one behind another, each for the bytes of its span and as long as
it can be, with nothing but blanks around them. There is one row of tokens like that.

* **`Partition`**: a row of tokens that takes a text apart, from some byte on;
* `Follows`: the first of them, with the blanks before it;
* `partition_cons_iff`: one token and the others;
* `follows_iff`: the first token is what is read;
* `partition_iff`, `Stream.partition_ofSource_iff`: the row is what is read;
* `pairwise_tokenize`: tokens start one behind another;
* **`tokenize_eq_iff`**: sources.
-/

namespace PrattFrontend

namespace Token

open Text (byteLength bytes charAt? slice)

variable {cs before rest : List Char} {file : String} {offset : Nat} {t : Token} {ts : List Token}

/-- **Tokens partition a text** from a byte offset on, all of them tokens of one file.

* Each of them has a span in the text. The spans stand in order and have no byte in common.
* The literal of each is what the bytes of its span spell.
* What belongs to no span is blank.
* The kind of each is the one that its literal prescribes, and no character that stands behind one
  of them continues it. -/
structure Partition (cs : List Char) (file : String) (offset : Nat) (ts : List Token) : Prop where
  file_eq : ∀ t ∈ ts, t.span.start.file = file ∧ t.span.stop.file = file
  within : ∀ t ∈ ts, offset ≤ t.span.start.offset ∧ t.span.start.offset ≤ t.span.stop.offset ∧
    t.span.stop.offset ≤ byteLength cs
  ordered : ts.Pairwise fun t u => t.span.stop.offset ≤ u.span.start.offset
  literal_eq : ∀ t ∈ ts,
    slice cs t.span.start.offset t.span.stop.offset = bytes t.literal.toList
  blank : ∀ i, offset ≤ i → (∀ t ∈ ts, i < t.span.start.offset ∨ t.span.stop.offset ≤ i) →
    ∀ b ∈ (bytes cs)[i]?, b ∈ bytes blanks
  prescribes : ∀ t ∈ ts, Prescribes t.literal.toList t.kind
  maximal : ∀ t ∈ ts, ∀ d ∈ charAt? cs t.span.stop.offset, ¬t.lexeme.Continues d

/-- A token **follows** a byte offset of a text: it is a token of the text, and from the offset to
its start there are only blanks. -/
structure Follows (cs : List Char) (file : String) (offset : Nat) (t : Token) : Prop where
  file_eq : t.span.start.file = file ∧ t.span.stop.file = file
  within : offset ≤ t.span.start.offset ∧ t.span.start.offset ≤ t.span.stop.offset ∧
    t.span.stop.offset ≤ byteLength cs
  literal_eq : slice cs t.span.start.offset t.span.stop.offset = bytes t.literal.toList
  blank : ∀ i, offset ≤ i → i < t.span.start.offset → ∀ b ∈ (bytes cs)[i]?, b ∈ bytes blanks
  prescribes : Prescribes t.literal.toList t.kind
  maximal : ∀ d ∈ charAt? cs t.span.stop.offset, ¬t.lexeme.Continues d

/-- **One token and the others** that partition a text. -/
theorem partition_cons_iff :
    Partition cs file offset (t :: ts) ↔
      Follows cs file offset t ∧ Partition cs file t.span.stop.offset ts := by
  constructor
  · intro h
    obtain ⟨hbefore, hordered⟩ := List.pairwise_cons.mp h.ordered
    have ht := h.within t List.mem_cons_self
    refine ⟨⟨h.file_eq t List.mem_cons_self, ht, h.literal_eq t List.mem_cons_self, ?_,
      h.prescribes t List.mem_cons_self, h.maximal t List.mem_cons_self⟩, ?_⟩
    · intro i hi hlt
      refine h.blank i hi (List.forall_mem_cons.mpr ⟨.inl hlt, fun u hu => .inl ?_⟩)
      have := hbefore u hu
      omega
    · refine ⟨fun u hu => h.file_eq u (List.mem_cons_of_mem t hu), fun u hu => ?_, hordered,
        fun u hu => h.literal_eq u (List.mem_cons_of_mem t hu), fun i hi hcover => ?_,
        fun u hu => h.prescribes u (List.mem_cons_of_mem t hu),
        fun u hu => h.maximal u (List.mem_cons_of_mem t hu)⟩
      · exact ⟨hbefore u hu, (h.within u (List.mem_cons_of_mem t hu)).2⟩
      · exact h.blank i (by omega) (List.forall_mem_cons.mpr ⟨.inr hi, hcover⟩)
  · rintro ⟨ht, hts⟩
    refine ⟨List.forall_mem_cons.mpr ⟨ht.file_eq, hts.file_eq⟩,
      List.forall_mem_cons.mpr ⟨ht.within, fun u hu => ?_⟩,
      List.pairwise_cons.mpr ⟨fun u hu => (hts.within u hu).1, hts.ordered⟩,
      List.forall_mem_cons.mpr ⟨ht.literal_eq, hts.literal_eq⟩, fun i hi hcover => ?_,
      List.forall_mem_cons.mpr ⟨ht.prescribes, hts.prescribes⟩,
      List.forall_mem_cons.mpr ⟨ht.maximal, hts.maximal⟩⟩
    · have := ht.within
      have := hts.within u hu
      omega
    · obtain ⟨hfirst, hothers⟩ := List.forall_mem_cons.mp hcover
      rcases hfirst with hlt | hle
      · exact ht.blank i hi hlt
      · exact hts.blank i hle hothers

/-! ## Blanks -/

theorem bytes_blanks : bytes blanks = [32, 9, 10, 13] := by decide

theorem exists_blanks (bs : List UInt8) (h : ∀ b ∈ bs, b ∈ bytes blanks) :
    ∃ gap, bytes gap = bs ∧ ∀ c ∈ gap, isBlank c := by
  induction bs with
  | nil => exact ⟨[], rfl, by simp⟩
  | cons b bs ih =>
    obtain ⟨hb, hbs⟩ := List.forall_mem_cons.mp h
    obtain ⟨gap, rfl, hgap⟩ := ih hbs
    obtain ⟨c, hc, hbyte⟩ : ∃ c, isBlank c ∧ bytes [c] = [b] := by
      rw [bytes_blanks] at hb
      simp only [List.mem_cons, List.not_mem_nil, or_false] at hb
      rcases hb with rfl | rfl | rfl | rfl
      · exact ⟨' ', by decide, by decide⟩
      · exact ⟨'\t', by decide, by decide⟩
      · exact ⟨'\n', by decide, by decide⟩
      · exact ⟨'\r', by decide, by decide⟩
    refine ⟨c :: gap, ?_, List.forall_mem_cons.mpr ⟨hc, hgap⟩⟩
    rw [← List.singleton_append, Text.bytes_append, hbyte, List.singleton_append]

theorem mem_bytes_blanks {gap : List Char} (h : ∀ c ∈ gap, isBlank c) :
    ∀ b ∈ bytes gap, b ∈ bytes blanks := by
  intro b hb
  obtain ⟨c, hc, hbyte⟩ := List.mem_flatMap.mp hb
  refine Text.mem_bytes_of_mem (isBlank_iff.mp (h c hc)) ?_
  rwa [bytes, List.flatMap_singleton]

theorem partition_nil_iff :
    Partition (before ++ rest) file (byteLength before) [] ↔ ∀ c ∈ rest, isBlank c := by
  constructor
  · intro h
    have hall : ∀ b ∈ bytes rest, b ∈ bytes blanks := by
      intro b hb
      obtain ⟨i, hi, rfl⟩ := List.getElem_of_mem hb
      refine h.blank (byteLength before + i) (Nat.le_add_right _ _) (by simp) _ ?_
      rw [Text.bytes_append, List.getElem?_append_right (by simp)]
      simp [List.getElem?_eq_getElem hi]
    obtain ⟨gap, hgap, hblank⟩ := exists_blanks _ hall
    have hinit : rest <+: gap := Text.bytes_prefix_iff.mp (hgap ▸ List.prefix_rfl)
    exact fun c hc => hblank c (hinit.subset hc)
  · intro h
    refine ⟨by simp, by simp, .nil, by simp, fun i hi _ b hb => ?_, by simp, by simp⟩
    rw [Text.bytes_append, List.getElem?_append_right (by simpa using hi)] at hb
    exact mem_bytes_blanks h b (List.mem_of_getElem? hb)

/-! ## The first token -/

theorem start_token (l : Lexeme) {start : Nat} (h : start ≤ Position.maxOffset) (file : String) :
    (l.token start file).span.start.offset = start :=
  Position.offset_atByte_of_le h file

theorem stop_token (l : Lexeme) {start : Nat}
    (h : start + byteLength l.text ≤ Position.maxOffset) (file : String) :
    (l.token start file).span.stop.offset = start + byteLength l.text :=
  Position.offset_atByte_of_le h file

theorem Follows.byteLength_literal (h : Follows cs file offset t) :
    byteLength t.literal.toList = t.span.stop.offset - t.span.start.offset := by
  have hstop := h.within.2.2
  rw [← Text.length_bytes, ← h.literal_eq, slice, List.length_take, List.length_drop,
    Text.length_bytes]
  omega

theorem Follows.eq_token (h : Follows cs file offset t)
    (hlen : byteLength cs ≤ Position.maxOffset) :
    t = t.lexeme.token t.span.start.offset file := by
  have hlit := h.byteLength_literal
  obtain ⟨-, hle, hstop⟩ := h.within
  obtain ⟨hfile, hfile'⟩ := h.file_eq
  obtain ⟨k, literal, ⟨⟨start, f⟩, ⟨stop, f'⟩⟩⟩ := t
  change byteLength literal.toList = stop - start at hlit
  change start ≤ stop at hle
  change stop ≤ byteLength cs at hstop
  change f = file at hfile
  change f' = file at hfile'
  subst hfile
  have hsum : start + (stop - start) = stop := by omega
  simp only [Lexeme.token, lexeme, String.ofList_toList, hlit, hsum, Span.between, hfile',
    Position.atByte, Nat.min_eq_left (hstop.trans hlen),
    Nat.min_eq_left (hle.trans (hstop.trans hlen))]

theorem Follows.exists_read? (h : Follows (before ++ rest) file (byteLength before) t)
    (hlen : byteLength (before ++ rest) ≤ Position.maxOffset) :
    ∃ p after, Piece.read? rest = some (p, after) ∧
      t = p.lexeme.token (byteLength before + byteLength p.gap) file ∧
      t.span.stop.offset = byteLength (before ++ p.text) := by
  obtain ⟨hstart, hle, hstop⟩ := h.within
  obtain ⟨n, hn⟩ := Nat.exists_eq_add_of_le hstart
  obtain ⟨m, hm⟩ := Nat.exists_eq_add_of_le hle
  have hlitlen := h.byteLength_literal
  rw [hm, Nat.add_sub_cancel_left] at hlitlen
  rw [Text.byteLength_append] at hstop
  have hlit : bytes t.literal.toList = ((bytes rest).drop n).take m := by
    rw [← h.literal_eq, slice, Text.bytes_append, hm, hn, ← List.drop_drop,
      List.drop_left' (Text.length_bytes before), Nat.add_sub_cancel_left]
  obtain ⟨gap, hgap, hblank⟩ := exists_blanks ((bytes rest).take n) fun b hb => by
    obtain ⟨i, hi, rfl⟩ := List.getElem_of_mem hb
    rw [List.length_take] at hi
    refine h.blank (byteLength before + i) (Nat.le_add_right _ _) (by omega) _ ?_
    rw [Text.bytes_append, List.getElem?_append_right (by simp), Text.length_bytes,
      Nat.add_sub_cancel_left, List.getElem_take]
    exact List.getElem?_eq_getElem _
  have hgaplen : byteLength gap = n := by
    rw [← Text.length_bytes, hgap, List.length_take, Text.length_bytes]
    omega
  obtain ⟨after, hafter⟩ : gap ++ t.literal.toList <+: rest := by
    rw [← Text.bytes_prefix_iff, Text.bytes_append, hgap, hlit, ← List.take_add]
    exact List.take_prefix _ _
  have hstop' : t.span.stop.offset = byteLength (before ++ (gap ++ t.literal.toList)) := by
    simp only [Text.byteLength_append, hgaplen, hlitlen]
    omega
  have hproper : t.lexeme.Proper := prescribes_iff.mp h.prescribes
  refine ⟨⟨gap, t.lexeme⟩, after, Piece.read?_eq_some_iff.mpr ⟨⟨hblank, hproper⟩, hafter, ?_⟩, ?_,
    hstop'⟩
  · intro d hd
    rw [← Bool.not_eq_true, hproper.goesOn_iff]
    refine h.maximal d ?_
    rwa [hstop', ← hafter, ← List.append_assoc, Text.charAt?_append]
  · rw [hgaplen, ← hn]
    exact h.eq_token hlen

theorem follows_of_read? {p : Piece} {after : List Char}
    (h : Piece.read? rest = some (p, after))
    (hlen : byteLength (before ++ rest) ≤ Position.maxOffset) :
    Follows (before ++ rest) file (byteLength before)
      (p.lexeme.token (byteLength before + byteLength p.gap) file) := by
  obtain ⟨hp, rfl, hnext⟩ := Piece.read?_eq_some_iff.mp h
  have htext : before ++ (p.text ++ after) = before ++ p.gap ++ (p.lexeme.text ++ after) := by
    simp [Piece.text]
  have hsum := congrArg byteLength htext
  simp only [Text.byteLength_append] at hsum hlen
  have hle : byteLength before + byteLength p.gap + byteLength p.lexeme.text ≤
      Position.maxOffset := by
    omega
  have hstart := start_token p.lexeme (Nat.le_of_add_right_le hle) file
  have hstop := stop_token p.lexeme hle file
  refine ⟨⟨rfl, rfl⟩, ?_, ?_, fun i hi hlt b hb => ?_, ?_, fun d hd => ?_⟩
  · simp only [hstart, hstop, Text.byteLength_append]
    omega
  · rw [hstart, hstop, htext, ← Text.byteLength_append, Text.slice_append, Lexeme.token,
      String.toList_ofList]
  · rw [hstart] at hlt
    rw [htext, List.append_assoc, Text.bytes_append, Text.bytes_append,
      List.getElem?_append_right (by simpa using hi), Text.length_bytes,
      List.getElem?_append_left (by rw [Text.length_bytes]; omega)] at hb
    exact mem_bytes_blanks hp.gap b (List.mem_of_getElem? hb)
  · rw [Lexeme.token, String.toList_ofList]
    exact prescribes_iff.mpr hp.lexeme
  · rw [hstop, htext, ← Text.byteLength_append, ← Text.byteLength_append, ← List.append_assoc,
      Text.charAt?_append] at hd
    rw [lexeme, Lexeme.token, String.toList_ofList, ← hp.lexeme.goesOn_iff, Bool.not_eq_true]
    exact hnext d hd

/-! ## All tokens -/

/-- **A row partitions what is left of a text exactly if it is what is read there.** -/
theorem partition_iff (hlen : byteLength (before ++ rest) ≤ Position.maxOffset) :
    Partition (before ++ rest) file (byteLength before) ts ↔
      ts = placed file (byteLength before) (pieces rest).1 := by
  induction rest using pieces.induct generalizing before ts with
  | case1 rest hread =>
    rw [pieces_of_read?_eq_none hread]
    constructor
    · intro h
      cases ts with
      | nil => rfl
      | cons t ts =>
        obtain ⟨p, after, hsome, -⟩ := (partition_cons_iff.mp h).1.exists_read? hlen
        rw [hread] at hsome
        cases hsome
    · rintro rfl
      exact partition_nil_iff.mpr (Piece.read?_eq_none_iff.mp hread)
  | case2 rest p after hread ih =>
    rw [pieces_of_read? hread]
    have htext : before ++ rest = before ++ p.text ++ after := by
      rw [List.append_assoc, Piece.text_append_of_read? hread]
    have hothers (us : List Token) :
        Partition (before ++ rest) file (byteLength before + byteLength p.text) us ↔
          us = placed file (byteLength before + byteLength p.text) (pieces after).1 := by
      rw [htext, ← Text.byteLength_append]
      exact ih (by rwa [← htext])
    rw [placed_cons]
    constructor
    · intro h
      cases ts with
      | nil =>
        rw [Piece.read?_eq_none_iff.mpr (partition_nil_iff.mp h)] at hread
        cases hread
      | cons t ts =>
        obtain ⟨hfirst, hts⟩ := partition_cons_iff.mp h
        obtain ⟨q, after', hsome, heq, hstop⟩ := hfirst.exists_read? hlen
        obtain ⟨rfl, rfl⟩ := Prod.mk.inj (Option.some.inj (hread.symm.trans hsome))
        rw [hstop, Text.byteLength_append] at hts
        rw [(hothers ts).mp hts, heq]
    · rintro rfl
      refine partition_cons_iff.mpr ⟨follows_of_read? hread hlen, ?_⟩
      have hsum : byteLength before + byteLength p.gap + byteLength p.lexeme.text =
          byteLength before + byteLength p.text := by
        rw [Piece.text, Text.byteLength_append, Nat.add_assoc]
      have hle : byteLength before + byteLength p.text ≤ Position.maxOffset := by
        rw [htext, Text.byteLength_append, Text.byteLength_append] at hlen
        omega
      rw [stop_token _ (by rwa [hsum]), hsum]
      exact (hothers _).mpr rfl

theorem Stream.partition_ofSource_iff {source : Source}
    (hlen : byteLength source.text.toList ≤ Position.maxOffset) :
    Partition source.text.toList source.file 0 ts ↔ ts = (Stream.ofSource source).ahead :=
  have hiff : Partition ([] ++ source.text.toList) source.file (byteLength []) ts ↔ _ :=
    partition_iff hlen
  hiff

/-- One token **starts before** another. -/
def StartsBefore (t u : Token) : Prop :=
  t.span.start.offset < u.span.start.offset

theorem Partition.start_lt_stop (h : Partition cs file offset ts) (ht : t ∈ ts) :
    t.span.start.offset < t.span.stop.offset := by
  have hproper : t.lexeme.Proper := prescribes_iff.mp (h.prescribes t ht)
  have hlen := congrArg List.length (h.literal_eq t ht)
  rw [Text.length_bytes, slice, List.length_take] at hlen
  have hpos : byteLength t.literal.toList ≠ 0 := fun hzero =>
    hproper.text_ne_nil (Text.byteLength_eq_zero_iff.mp hzero)
  omega

end Token

open Token in
theorem pairwise_tokenize {source : Source}
    (hlen : Text.byteLength source.text.toList ≤ Position.maxOffset) :
    (tokenize source).Pairwise StartsBefore := by
  have h : Partition source.text.toList source.file 0 (Stream.ofSource source).ahead :=
    (Stream.partition_ofSource_iff hlen).mpr rfl
  have hstop : (Stream.ofSource source).stop.offset = Text.byteLength source.text.toList :=
    Position.offset_atByte_of_le hlen source.file
  refine List.pairwise_append.mpr ⟨?_, List.pairwise_singleton _ _, fun t ht u hu => ?_⟩
  · refine h.ordered.imp_of_mem fun {t u} ht _ hle => ?_
    exact (h.start_lt_stop ht).trans_le hle
  · obtain rfl := List.mem_singleton.mp hu
    have hlt := h.start_lt_stop ht
    have hle := (h.within t ht).2.2
    change t.span.start.offset < (Stream.ofSource source).stop.offset
    omega

open Token in
/-- **The tokens of a source** are the one row that partitions it, and its end. -/
theorem tokenize_eq_iff (text : String) (file? : Option String) (ts : List Token)
    (hlen : Text.byteLength text.toList ≤ Position.maxOffset) :
    tokenize (.ofText text file?) = ts ↔
      ∃ us, ts = us ++ [endAt ⟨Text.byteLength text.toList, file?.getD "shell"⟩] ∧
        (∀ t ∈ us, t.kind ≠ .endOfInput) ∧
        Partition text.toList (file?.getD "shell") 0 us := by
  have hstop : (Stream.ofSource (.ofText text file?)).stop =
      ⟨Text.byteLength text.toList, file?.getD "shell"⟩ := by
    simp only [Stream.ofSource, Position.atByte, Source.ofText, Source.shell, Nat.min_eq_left hlen]
  have hiff {us : List Token} :
      Partition text.toList (file?.getD "shell") 0 us ↔
        us = (Stream.ofSource (.ofText text file?)).ahead :=
    @Stream.partition_ofSource_iff _ (.ofText text file?) hlen
  rw [tokenize, Stream.toList, hstop]
  constructor
  · rintro rfl
    exact ⟨_, rfl, fun t ht => (Stream.lexed_of_mem_ofSource ht).kind_ne, hiff.mpr rfl⟩
  · rintro ⟨us, rfl, -, hus⟩
    rw [hiff.mp hus]

/-- A text in which tokens touch: a number and a word, operators of two characters and of one, and a
character of two bytes that belongs to no token of the language. -/
def touchingText : String :=
  "let é=12ab\n!==fn"

/-- The tokens of the sample text. -/
def touchingTokens : List Token :=
  [⟨.letWord, "let", .between 0 3 "shell"⟩, ⟨.illegal, "é", .between 4 6 "shell"⟩,
    ⟨.assign, "=", .between 6 7 "shell"⟩, ⟨.integer, "12", .between 7 9 "shell"⟩,
    ⟨.identifier, "ab", .between 9 11 "shell"⟩, ⟨.notEqual, "!=", .between 12 14 "shell"⟩,
    ⟨.assign, "=", .between 14 15 "shell"⟩, ⟨.functionWord, "fn", .between 15 17 "shell"⟩,
    ⟨.endOfInput, "", .between 17 17 "shell"⟩]

theorem tokenize_touchingText :
    Text.byteLength touchingText.toList ≤ Position.maxOffset ∧
      tokenize (.ofText touchingText none) = touchingTokens ∧
      ∃ us, touchingTokens = us ++ [Token.endAt ⟨17, "shell"⟩] ∧
        (∀ t ∈ us, t.kind ≠ .endOfInput) ∧ Token.Partition touchingText.toList "shell" 0 us := by
  have hlen : Text.byteLength touchingText.toList ≤ Position.maxOffset := by decide +kernel
  have htokens : tokenize (.ofText touchingText none) = touchingTokens := by decide +kernel
  exact ⟨hlen, htokens, (tokenize_eq_iff touchingText none touchingTokens hlen).mp htokens⟩

end PrattFrontend
