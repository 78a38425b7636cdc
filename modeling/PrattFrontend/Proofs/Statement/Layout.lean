import PrattFrontend.Proofs.Statement.Composition
import PrattFrontend.Proofs.Statement.ErrorPlaces

/-!
# The layout of a source

Blanks, line breaks and the name of the file make no difference to what is parsed. A stream is
parsed like any other with the same tokens at other places, in particular like the one in which the
tokens stand at numbers. Two sources with the same kinds and literals come to the same stream of
that sort.

* **`Token.Stream.numbered`**: a stream in the plainest layout;
* `Token.Stream.placeOf`, `Token.Stream.relocated_numbered`: how that is laid out as the stream was;
* `Token.Stream.Relocated.run`: a run over a stream that is laid out in another way;
* `Token.Stream.exists_position_eq`: errors stand at tokens;
* **`parse_layout`**: sources.
-/

namespace PrattFrontend

open Grammar (standard_plain)

namespace Token.Stream

variable {T T' : Token.Stream}

/-! ## The plainest layout -/

/-- **A stream in the plainest layout**: each token takes one byte of a file without a name, and a
byte is left before the next one. -/
def numbered (T : Token.Stream) : Token.Stream where
  entries := T.ahead.mapIdx fun i t =>
    (⟨t.kind, t.literal, ⟨⟨2 * i, ""⟩, ⟨2 * i + 1, ""⟩⟩⟩, 2 * i)
  stop := ⟨2 * T.ahead.length, ""⟩
  stopByte := 2 * T.ahead.length

theorem ahead_numbered (T : Token.Stream) :
    T.numbered.ahead =
      T.ahead.mapIdx fun i t => ⟨t.kind, t.literal, ⟨⟨2 * i, ""⟩, ⟨2 * i + 1, ""⟩⟩⟩ :=
  List.ext_getElem (by simp [ahead, numbered]) fun i hi hi' => by simp [ahead, numbered]

/-- Where a stream has what stands at a position of its plainest layout: tokens start at the even
bytes of that and stop at the odd ones. -/
def placeOf (T : Token.Stream) (p : Position) : Position :=
  let span := (T.get (p.offset / 2)).span
  if p.offset % 2 = 0 then span.start else span.stop

@[simp] theorem placeOf_even (T : Token.Stream) (i : Nat) (file : String) :
    T.placeOf ⟨2 * i, file⟩ = (T.get i).span.start := by
  simp [placeOf]

@[simp] theorem placeOf_odd (T : Token.Stream) (i : Nat) (file : String) :
    T.placeOf ⟨2 * i + 1, file⟩ = (T.get i).span.stop := by
  have hhalf : (2 * i + 1) / 2 = i := by omega
  simp [placeOf, hhalf]

@[simp] theorem length_ahead_numbered (T : Token.Stream) :
    T.numbered.ahead.length = T.ahead.length := by
  rw [ahead_numbered, List.length_mapIdx]

theorem start_get_numbered {i : Nat} (hi : i ≤ T.ahead.length) :
    (T.numbered.get i).span.start = ⟨2 * i, ""⟩ := by
  rcases hi.lt_or_eq with hlt | rfl
  · rw [get_of_lt (by simpa using hlt)]
    simp [ahead_numbered]
  · rw [get_of_length_le (by simp)]
    rfl

/-- **Every stream is its plainest layout laid out in another way.** -/
theorem relocated_numbered (T : Token.Stream) : T.numbered.Relocated T.placeOf T where
  ahead := by
    refine List.ext_getElem (by simp) fun i hi hi' => ?_
    simp only [ahead_numbered, Token.relocate, List.getElem_map, List.getElem_mapIdx, placeOf_even,
      placeOf_odd, get_of_lt hi]
  stop := by
    rw [numbered, placeOf_even, get_of_length_le (Nat.le_refl _)]
    rfl

/-- **Streams with the same lexemes have one plainest layout.** -/
theorem numbered_eq (h : T.ahead.map lexeme = T'.ahead.map lexeme) : T.numbered = T'.numbered := by
  have hlen : T.ahead.length = T'.ahead.length := by simpa using congrArg List.length h
  have hentries : T.numbered.entries = T'.numbered.entries := by
    refine List.ext_getElem (by simpa [numbered] using hlen) fun i hi hi' => ?_
    rw [numbered, List.length_mapIdx] at hi hi'
    have hlexeme : T.ahead[i].lexeme = T'.ahead[i].lexeme := by
      simpa [hi, hi'] using congrArg (·[i]?) h
    obtain ⟨hkind, hliteral⟩ := Lexeme.mk.inj hlexeme
    simp only [numbered, List.getElem_mapIdx, hkind, String.toList_inj.mp hliteral]
  rw [numbered, numbered, Token.Stream.mk.injEq]
  exact ⟨hentries, by rw [hlen], by rw [hlen]⟩

theorem lexed_of_mem_numbered (hT : ∀ t ∈ T.ahead, t.Lexed) :
    ∀ t ∈ T.numbered.ahead, t.Lexed := by
  intro t ht
  rw [ahead_numbered] at ht
  obtain ⟨i, hi, rfl⟩ := List.mem_mapIdx.mp ht
  obtain ⟨hkind, hdigits⟩ := hT _ (List.getElem_mem hi)
  exact ⟨hkind, hdigits⟩

/-! ## Runs -/

/-- **A run over a stream that is laid out in another way** comes to the same. -/
theorem Relocated.run {f : Position → Position} (h : T.Relocated f T') (config : Config) :
    (T'.run config).1 = (T.run config).1.map (Statement.mapTokens (Token.relocate f)) ∧
      (T'.run config).2.errors.toList =
        (T.run config).2.errors.toList.map (ParseError.relocate f) := by
  have hbegin : Moved f [] [] T.begin T'.begin := ⟨h, [], rfl, rfl⟩
  obtain ⟨hsts, -, errs, herrs, herrs'⟩ := hbegin.statements config T.ahead.length
  rw [Stream.run, Stream.run, h.length_eq]
  refine ⟨hsts, ?_⟩
  rw [herrs, herrs']
  rfl

/-- **Every error of a run stands at the start of a token.** -/
theorem exists_position_eq (config : Config) (hT : ∀ t ∈ T.ahead, t.Lexed) {e : ParseError}
    (he : e ∈ (T.run config).2.errors.toList) :
    ∃ i ≤ T.ahead.length, e.position = (T.get i).span.start := by
  obtain ⟨ms, herrs, -, hbetween, -⟩ := Grammar.exists_marks_turns (T := T) (a := 0) (s := T.begin)
    config T.ahead.length rfl hT
  have herrors : (T.run config).2.errors.toList = ms.map Mark.error := by
    rw [← herrs]
    exact standard_plain.errors_statements_eq config _ _
  rw [herrors] at he
  obtain ⟨m, hm, rfl⟩ := List.mem_map.mp he
  exact ⟨m.place, (hbetween m hm).le_length, (hbetween m hm).isAbout.position_eq⟩

end Token.Stream

/-! ## Sources -/

/-- A statement whose tokens stand in no source. -/
def Statement.unplaced (st : Statement) : Statement :=
  st.mapTokens fun t => .unplaced t.kind t.literal

theorem Statement.unplaced_mapTokens_relocate (f : Position → Position) (st : Statement) :
    (st.mapTokens (Token.relocate f)).unplaced = st.unplaced :=
  st.mapTokens_mapTokens _ _

/-- Two errors are **alike** in two rows of tokens if they have the same cause and stand at tokens
with the same number. -/
def ParseError.Alike (ts ts' : List Token) (e e' : ParseError) : Prop :=
  e.cause = e'.cause ∧ ∃ (i : Nat) (t t' : Token), ts[i]? = some t ∧ ts'[i]? = some t' ∧
    e.position = t.span.start ∧ e'.position = t'.span.start

theorem ParseError.alike_relocate {T T' : Token.Stream} {e : ParseError}
    (hnum : T.numbered = T'.numbered)
    (he : ∃ i ≤ T.numbered.ahead.length, e.position = (T.numbered.get i).span.start) :
    Alike T.toList T'.toList (e.relocate T.placeOf) (e.relocate T'.placeOf) := by
  obtain ⟨i, hi, hposition⟩ := he
  have hi' : i ≤ T'.numbered.ahead.length := hnum ▸ hi
  rw [Token.Stream.length_ahead_numbered] at hi hi'
  rw [Token.Stream.start_get_numbered hi] at hposition
  refine ⟨rfl, i, T.get i, T'.get i, Token.Stream.getElem?_toList hi,
    Token.Stream.getElem?_toList hi', ?_, ?_⟩
  · rw [relocate, hposition, Token.Stream.placeOf_even]
  · rw [relocate, hposition, Token.Stream.placeOf_even]

/-- **The layout of a source makes no difference to what is parsed.** -/
theorem parse_layout (config : Config) {source source' : Source}
    (h : (tokenize source).map (fun t => (t.kind, t.literal)) =
      (tokenize source').map fun t => (t.kind, t.literal)) :
    (parse config source).1.statements.map Statement.unplaced =
        (parse config source').1.statements.map Statement.unplaced ∧
      List.Forall₂ (ParseError.Alike (tokenize source) (tokenize source'))
        (parse config source).2.errors.toList (parse config source').2.errors.toList ∧
      (parse config source).1.code = (parse config source').1.code ∧
      (parse config source).2.errors.toList.map ParseError.message =
        (parse config source').2.errors.toList.map ParseError.message := by
  set T := Token.Stream.ofSource source
  set T' := Token.Stream.ofSource source'
  have hnum : T.numbered = T'.numbered := by
    refine Token.Stream.numbered_eq ?_
    rw [Token.Stream.map_lexeme_ofSource, Token.Stream.map_lexeme_ofSource]
    exact Token.map_tokenize_eq_iff.mp h
  -- both runs are the one over the plainest layout
  obtain ⟨hsts, herrs⟩ := T.relocated_numbered.run config
  obtain ⟨hsts', herrs'⟩ := T'.relocated_numbered.run config
  rw [← hnum] at hsts' herrs'
  change (parse config source).1.statements = _ at hsts
  change (parse config source').1.statements = _ at hsts'
  change (parse config source).2.errors.toList = _ at herrs
  change (parse config source').2.errors.toList = _ at herrs'
  have hplaces : ∀ e ∈ (T.numbered.run config).2.errors.toList, _ := fun e he =>
    Token.Stream.exists_position_eq config
      (Token.Stream.lexed_of_mem_numbered fun t ht => Token.Stream.lexed_of_mem_ofSource ht) he
  refine ⟨?_, ?_, ?_, ?_⟩
  · simp only [hsts, hsts', List.map_map, Function.comp_def,
      Statement.unplaced_mapTokens_relocate]
  · rw [herrs, herrs', List.forall₂_map_left_iff, List.forall₂_map_right_iff, List.forall₂_same]
    exact fun e he => ParseError.alike_relocate hnum (hplaces e he)
  · simp only [Program.code, hsts, hsts', List.map_map, Function.comp_def,
      Statement.code_mapTokens (Token.literal_relocate _)]
  · simp only [herrs, herrs', List.map_map]
    rfl

/-- A source with two errors. -/
def tightSource : Source :=
  ⟨"let x=;)!y", "tight"⟩

/-- The same tokens on several lines of another file. -/
def spreadSource : Source :=
  ⟨"let\tx\n  = ;\r\n\n) ! y ", "spread"⟩

/-- The two sources of the sample have their two errors at the same tokens. -/
theorem parse_layout_tightSource :
    (tokenize tightSource).map (fun t => (t.kind, t.literal)) =
        (tokenize spreadSource).map (fun t => (t.kind, t.literal)) ∧
      (parse ⟨.parse, .semicolon⟩ tightSource).2.errors.toList.map ParseError.position =
        [⟨6, "tight"⟩, ⟨7, "tight"⟩] ∧
      (parse ⟨.parse, .semicolon⟩ spreadSource).2.errors.toList.map ParseError.position =
        [⟨10, "spread"⟩, ⟨14, "spread"⟩] ∧
      (parse ⟨.parse, .semicolon⟩ tightSource).1.statements.map Statement.unplaced =
        (parse ⟨.parse, .semicolon⟩ spreadSource).1.statements.map Statement.unplaced ∧
      List.Forall₂ (ParseError.Alike (tokenize tightSource) (tokenize spreadSource))
        (parse ⟨.parse, .semicolon⟩ tightSource).2.errors.toList
        (parse ⟨.parse, .semicolon⟩ spreadSource).2.errors.toList := by
  have htokens : (tokenize tightSource).map (fun t => (t.kind, t.literal)) =
      (tokenize spreadSource).map (fun t => (t.kind, t.literal)) := by
    decide +kernel
  obtain ⟨hsts, herrs, -⟩ := parse_layout ⟨.parse, .semicolon⟩ htokens
  exact ⟨htokens, by decide +kernel, by decide +kernel, hsts, herrs⟩

end PrattFrontend
