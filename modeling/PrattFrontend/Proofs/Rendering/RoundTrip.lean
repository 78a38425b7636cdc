import PrattFrontend.Proofs.Rendering.Legible
import PrattFrontend.Proofs.Tree.Relocation

/-!
# Reading a rendered program

The text of a program that was parsed without an error, with or without parentheses in its source,
is itself parsed without an error once parentheses can be read, and it gives the same program but
for the tokens.

* **`Expr.bare`**, `Statement.bare`, `Program.bare`: what is left of a tree without its tokens;
* `Expr.Readable.exists_forms`: an expression is formed from its lexemes;
* `Statement.Readable.exists_completes`: so is a statement, and what comes behind it stays;
* `exists_finishes`: whole runs;
* **`parseGrouping_code`**: sources.
-/

namespace PrattFrontend

open Grammar (standard standardPower? Forms Fills Completes Finishes)
open Token (Lexeme)

/-! ## Trees without their tokens -/

/-- The token in place of any other. -/
def Token.blank : Token :=
  .unplaced .illegal ""

/-- **An expression without its tokens**: its shape, its names, numbers and operators. -/
def Expr.bare (e : Expr) : Expr :=
  e.mapTokens fun _ => .blank

/-- **A statement without its tokens**: its sort, its name and its value. -/
def Statement.bare (st : Statement) : Statement :=
  st.mapTokens fun _ => .blank

/-- **A program without its tokens.** -/
def Program.bare (P : Program) : Program :=
  ⟨P.statements.map Statement.bare⟩

namespace Expr

@[simp] theorem bare_identifier (i : Identifier) :
    (identifier i).bare = identifier ⟨.blank, i.name⟩ := rfl

@[simp] theorem bare_integer (t : Token) (v : Int) : (integer t v).bare = integer .blank v := rfl

@[simp] theorem bare_unary (t : Token) (o : String) (r : Option Expr) :
    (unary t o r).bare = unary .blank o (r.map bare) :=
  mapTokens_unary _ t o r

@[simp] theorem bare_binary (t : Token) (d : Expr) (o : String) (r : Option Expr) :
    (binary t d o r).bare = binary .blank d.bare o (r.map bare) :=
  mapTokens_binary _ t d o r

theorem codeOf_map_bare (v : Option Expr) : codeOf (v.map bare) = codeOf v := by
  cases v with
  | none => rfl
  | some e => exact e.code_mapTokens _

end Expr

namespace Statement

@[simp] theorem bare_letValue (t : Token) (name : Identifier) (v : Option Expr) :
    (letValue t name v).bare = letValue .blank ⟨.blank, name.name⟩ (v.map Expr.bare) := rfl

@[simp] theorem bare_returnValue (t : Token) (v : Option Expr) :
    (returnValue t v).bare = returnValue .blank (v.map Expr.bare) := rfl

@[simp] theorem bare_expression (t : Token) (v : Option Expr) :
    (expression t v).bare = expression .blank (v.map Expr.bare) := rfl

end Statement

variable {config : Config} {s t : State}

theorem Expr.codeOf_eq_of_bare {v v' : Option Expr} (h : v'.map bare = v.map bare) :
    codeOf v' = codeOf v := by
  rw [← codeOf_map_bare, h, codeOf_map_bare]

theorem Statement.Readable.code_eq {st st' : Statement} (h : st.Readable config)
    (h' : st'.Readable config) (hbare : st'.bare = st.bare) : st'.code = st.code := by
  cases st with
  | letValue t name v =>
    cases st' with
    | letValue t' name' v' =>
      simp only [bare_letValue, letValue.injEq, Identifier.mk.injEq, true_and] at hbare
      rw [code, code, h.1, h'.1, hbare.1, Expr.codeOf_eq_of_bare hbare.2]
    | _ => cases hbare
  | returnValue t v =>
    cases st' with
    | returnValue t' v' =>
      simp only [bare_returnValue, returnValue.injEq, true_and] at hbare
      rw [code, code, h.1, h'.1, Expr.codeOf_eq_of_bare hbare]
    | _ => cases hbare
  | expression t v =>
    cases st' with
    | expression t' v' =>
      simp only [bare_expression, expression.injEq, true_and] at hbare
      exact Expr.codeOf_eq_of_bare hbare
    | _ => cases hbare

theorem Statement.map_code_eq {sts sts' : List Statement} (h : ∀ st ∈ sts, st.Readable config)
    (h' : ∀ st ∈ sts', st.Readable config) (hbare : sts'.map bare = sts.map bare) :
    sts'.map code = sts.map code := by
  induction sts generalizing sts' with
  | nil => rw [List.map_eq_nil_iff.mp hbare]
  | cons st sts ih =>
    obtain ⟨st', sts', rfl, hst, hsts⟩ := List.map_eq_cons_iff.mp hbare
    obtain ⟨hr, hrs⟩ := List.forall_mem_cons.mp h
    obtain ⟨hr', hrs'⟩ := List.forall_mem_cons.mp h'
    rw [List.map_cons, List.map_cons, hr.code_eq hr' hst, ih hrs hrs' hsts]

/-! ## States and their lexemes -/

/-- The lexemes of the tokens that are left. -/
def State.lexemes (s : State) : List Lexeme :=
  s.tokens.ahead.map Token.lexeme

namespace State

variable {l : Lexeme} {ls : List Lexeme}

theorem lexeme_current (h : s.lexemes = l :: ls) : s.current.lexeme = l := by
  obtain ⟨x, xs, hx, rfl, -⟩ := List.map_eq_cons_iff.mp h
  rw [current_of_ahead hx]

theorem lexemes_advance (h : s.lexemes = l :: ls) : s.advance.lexemes = ls := by
  obtain ⟨x, xs, hx, -, rfl⟩ := List.map_eq_cons_iff.mp h
  rw [lexemes, ahead_advance_of_ahead hx]

theorem kind_current (h : s.lexemes = l :: ls) : s.current.kind = l.kind :=
  congrArg Lexeme.kind (lexeme_current h)

theorem literal_current (h : s.lexemes = l :: ls) : s.current.literal.toList = l.text :=
  congrArg Lexeme.text (lexeme_current h)

theorem kind_next (h : s.advance.lexemes = l :: ls) : s.next.kind = l.kind := by
  rw [← current_advance]
  exact kind_current h

theorem kind_next_of_nil (h : s.advance.lexemes = []) : s.next.kind = .endOfInput := by
  rw [← current_advance]
  exact kind_get_of_length_le (by rw [List.map_eq_nil_iff.mp h]; exact Nat.le_refl _)

theorem ahead_skipToSemicolon_of_next (hsemi : s.current.kind ≠ .semicolon)
    (hend : s.current.kind ≠ .endOfInput) (hnext : s.next.kind = .semicolon) :
    s.skipToSemicolon.tokens.ahead = s.advance.tokens.ahead := by
  rw [ahead_skipToSemicolon, ahead_eq_cons hend, ahead_advance_eq_cons (by simp [hnext]),
    List.dropWhile_cons_of_pos (by simp [hsemi, hend]),
    List.dropWhile_cons_of_neg (by simp [hnext])]

end State

/-! ## Expressions -/

/-- **A readable expression is formed from its lexemes.** -/
theorem Expr.Readable.exists_forms {e : Expr} (h : e.Readable) {ls : List Lexeme}
    (hs : s.lexemes = e.lexemes ++ ls) :
    ∃ e' t, (∀ p, Forms p s e' t) ∧ e'.bare = e.bare ∧ t.advance.lexemes = ls := by
  induction e generalizing s ls with
  | identifier i =>
    have hproper := readable_identifier_iff.mp h
    rw [lexemes, Token.lexemes_text hproper] at hs
    refine ⟨_, s, fun p => .identifier (State.kind_current hs), ?_, State.lexemes_advance hs⟩
    have hname : s.current.literal = i.name := String.toList_inj.mp (State.literal_current hs)
    simp [Identifier.ofToken, hname]
  | integer t v =>
    obtain ⟨n, rfl, hlt⟩ := readable_integer_iff.mp h
    rw [lexemes, Text.toList_toString, Token.lexemes_text (Token.Lexeme.proper_toDigits n)] at hs
    have hlit := State.literal_current hs
    have hread : Text.readInteger? s.current.literal = some (n : Int) := by
      refine Text.readInteger?_eq_some_iff.mpr ?_
      rw [hlit, Text.decimalValue_toDigits]
      exact ⟨Nat.toDigits_ne_nil, fun c hc =>
        Nat.isDigit_of_mem_toDigits (by decide) (by decide) hc, hlt, rfl⟩
    exact ⟨_, s, fun p => .integer (State.kind_current hs) hread, rfl, State.lexemes_advance hs⟩
  | unary t o r ih =>
    obtain ⟨⟨k, hk, hop⟩, e, rfl, he⟩ := readable_unary_iff.mp h
    rw [lexemes, Token.lexemes_text hop] at hs
    simp only [List.cons_append, List.append_assoc, List.nil_append] at hs
    have h₁ := State.lexemes_advance hs
    obtain ⟨e', u, hforms, hbare, hu⟩ := ih e rfl he (State.lexemes_advance h₁)
    have hlit : s.advance.current.literal = o := String.toList_inj.mp (State.literal_current h₁)
    rw [State.current_advance] at hlit
    refine ⟨_, u.advance, fun p => .grouped (State.kind_current hs)
      (.unary (by rwa [State.kind_current h₁]) (hforms _)) (State.kind_next hu), ?_,
      State.lexemes_advance hu⟩
    simp [hlit, hbare]
  | binary t d o r ihd ih =>
    obtain ⟨⟨k, q, hq, hop⟩, hd, e, rfl, he⟩ := readable_binary_iff.mp h
    rw [lexemes, Token.lexemes_text hop] at hs
    simp only [List.cons_append, List.append_assoc, List.nil_append] at hs
    obtain ⟨d', t, hformsd, hbared, ht⟩ := ihd hd (State.lexemes_advance hs)
    obtain ⟨e', u, hforms, hbare, hu⟩ := ih e rfl he (State.lexemes_advance ht)
    have hlit : t.next.literal = o := by
      rw [← State.current_advance]
      exact String.toList_inj.mp (State.literal_current ht)
    have hnext : standardPower? t.next.kind = some q := by rwa [State.kind_next ht]
    have hnextop : standard.nextOperator? .lowest t = some ⟨q, Rule.binary⟩ :=
      Grammar.nextOperator?_standard_eq_some_iff.mpr
        ⟨q, hnext, Grammar.lowest_lt_of_standardPower? hnext, rfl⟩
    have hstops : standard.nextOperator? q u = none := by
      refine Grammar.nextOperator?_standard_eq_none_iff.mpr ?_
      rw [State.kind_next hu]
      simp [standardPower?]
    refine ⟨_, u.advance, fun p => .grouped (State.kind_current hs)
      (.binary (hformsd _) hnextop (hforms _) hstops) (State.kind_next hu), ?_,
      State.lexemes_advance hu⟩
    simp [hlit, hbare, hbared]

/-! ## Statements -/

/-- With a lexeme of this kind before it, a statement ends: it is no semicolon and no operator
between two operands. It is not the end of the input either. -/
def Token.Lexeme.Opens (l : Lexeme) : Prop :=
  l.kind ≠ .semicolon ∧ l.kind ≠ .endOfInput ∧ standardPower? l.kind = none

theorem Statement.Readable.exists_lexemes_eq_cons {st : Statement} (h : st.Readable config) :
    ∃ l ls, st.lexemes = l :: ls ∧ l.Opens := by
  cases st with
  | letValue t name v => exact ⟨_, _, rfl, by simp [Lexeme.Opens, standardPower?]⟩
  | returnValue t v => exact ⟨_, _, rfl, by simp [Lexeme.Opens, standardPower?]⟩
  | expression t v =>
    obtain ⟨e, rfl, he⟩ := h
    obtain ⟨l, ls, hl, hk⟩ := he.exists_lexemes_eq_cons
    refine ⟨l, ls, hl, ?_⟩
    rcases hk with hk | hk | hk <;> simp [Lexeme.Opens, hk, standardPower?]

theorem exists_fills_of_lexemes {v : Option Expr} (hv : ∀ e ∈ v, e.Readable)
    (hmode : v.isSome ↔ config.values = .parse) {ls : List Lexeme}
    (hk : s.current.kind ≠ .semicolon ∧ s.current.kind ≠ .endOfInput)
    (hs : s.advance.lexemes = Expr.lexemesOf v ++ ⟨.semicolon, [';']⟩ :: ls) :
    ∃ v' t, Fills config s v' t ∧ v'.map Expr.bare = v.map Expr.bare ∧ t.advance.lexemes = ls := by
  cases v with
  | none =>
    have hskip : config.values = .skip := by
      cases hc : config.values with
      | skip => rfl
      | parse => simp [hc] at hmode
    have hstop := State.ahead_skipToSemicolon_of_next hk.1 hk.2 (State.kind_next hs)
    rw [State.lexemes, ← hstop] at hs
    exact ⟨none, _, .skipped hskip, rfl, State.lexemes_advance hs⟩
  | some e =>
    obtain ⟨e', t, hforms, hbare, ht⟩ := (hv e rfl).exists_forms hs
    have hnext : t.next.kind = .semicolon := State.kind_next ht
    have hpass : t.passSemicolon = t.advance := if_pos hnext
    refine ⟨some e', _, .formed (hmode.mp rfl) (hforms _) ?_, by simp [hbare], ?_⟩
    · exact Grammar.nextOperator?_lowest_standard_eq_none_iff.mpr (by rw [hnext]; rfl)
    · rw [hpass]
      exact State.lexemes_advance ht

/-- **A readable statement is completed from its lexemes.** -/
theorem Statement.Readable.exists_completes {st : Statement} (h : st.Readable config)
    {ls : List Lexeme} (hs : s.lexemes = st.lexemes ++ ls) (hls : ∀ l ∈ ls.head?, l.Opens) :
    ∃ st' t, Completes config s st' t ∧ st'.bare = st.bare ∧ t.advance.lexemes = ls := by
  cases st with
  | letValue t name v =>
    obtain ⟨hlet, hname, hv, hmode⟩ := h
    rw [lexemes, Token.lexemes_text hname] at hs
    simp only [List.cons_append, List.append_assoc, List.nil_append] at hs
    have h₁ := State.lexemes_advance hs
    have h₂ := State.lexemes_advance h₁
    have hsign : s.advance.advance.current.kind = .assign := State.kind_current h₂
    obtain ⟨v', u, hfills, hbare, hu⟩ :=
      exists_fills_of_lexemes hv hmode (by rw [hsign]; decide) (State.lexemes_advance h₂)
    have hlit : s.next.literal = name.name := by
      rw [← State.current_advance]
      exact String.toList_inj.mp (State.literal_current h₁)
    refine ⟨_, u, .letValue (State.kind_current hs) (State.kind_next h₁) (State.kind_next h₂)
      hfills, ?_, hu⟩
    simp [Identifier.ofToken, hlit, hbare]
  | returnValue t v =>
    obtain ⟨hreturn, hv, hmode⟩ := h
    rw [lexemes] at hs
    simp only [List.cons_append, List.append_assoc, List.nil_append] at hs
    have h₁ := State.lexemes_advance hs
    have hk : s.current.kind = .returnWord := State.kind_current hs
    cases v with
    | none =>
      exact ⟨_, _, .returnNothing hk (State.kind_next h₁), rfl, State.lexemes_advance h₁⟩
    | some e =>
      obtain ⟨l, ls', hl, hkind⟩ := (hv e rfl).exists_lexemes_eq_cons
      have hnext : s.next.kind = l.kind := by
        rw [Expr.lexemesOf, hl] at h₁
        exact State.kind_next h₁
      obtain ⟨v', u, hfills, hbare, hu⟩ :=
        exists_fills_of_lexemes hv (iff_of_true rfl (hmode rfl)) (by simp [hk]) h₁
      refine ⟨_, u, .returnValue hk ?_ hfills, by simpa using hbare, hu⟩
      rw [hnext]
      rcases hkind with hkind | hkind | hkind <;> simp [hkind]
  | expression t v =>
    obtain ⟨e, rfl, he⟩ := h
    obtain ⟨e', u, hforms, hbare, hu⟩ := he.exists_forms hs
    obtain ⟨l, ls', hl, hkind⟩ := he.exists_lexemes_eq_cons
    have hk : s.current.kind = l.kind := by
      rw [lexemes, Expr.lexemesOf, hl] at hs
      exact State.kind_current hs
    have hnext : u.next.kind ≠ .semicolon ∧ standardPower? u.next.kind = none := by
      cases ls with
      | nil => simp [State.kind_next_of_nil hu, standardPower?]
      | cons l' ls =>
        rw [State.kind_next hu]
        exact ⟨(hls l' rfl).1, (hls l' rfl).2.2⟩
    have hpass : u.passSemicolon = u := if_neg hnext.1
    refine ⟨_, _, .expression ?_ (hforms _)
      (Grammar.nextOperator?_lowest_standard_eq_none_iff.mpr hnext.2), by simp [hbare], ?_⟩
    · rw [hk]
      rcases hkind with hkind | hkind | hkind <;> simp [hkind]
    · rwa [hpass]

/-! ## Whole runs -/

/-- **Readable statements are completed one after another from their lexemes.** -/
theorem exists_finishes (config : Config) {sts : List Statement}
    (h : ∀ st ∈ sts, st.Readable config) (hs : s.lexemes = sts.flatMap Statement.lexemes) :
    ∃ sts' t, Finishes config s sts' t ∧ sts'.map Statement.bare = sts.map Statement.bare := by
  induction sts generalizing s with
  | nil =>
    refine ⟨[], s, .nil (State.kind_get_of_length_le ?_), rfl⟩
    rw [List.map_eq_nil_iff.mp hs]
    exact Nat.le_refl _
  | cons st sts ih =>
    obtain ⟨hst, hsts⟩ := List.forall_mem_cons.mp h
    obtain ⟨l, ls, hl, hopens⟩ := hst.exists_lexemes_eq_cons
    rw [List.flatMap_cons] at hs
    have hk : s.current.kind ≠ .endOfInput := by
      rw [hl] at hs
      rw [State.kind_current hs]
      exact hopens.2.1
    have hnext : ∀ l ∈ (sts.flatMap Statement.lexemes).head?, l.Opens := by
      cases sts with
      | nil => simp
      | cons st' sts =>
        obtain ⟨l', ls', hl', hopens'⟩ := (hsts st' List.mem_cons_self).exists_lexemes_eq_cons
        rw [List.flatMap_cons, hl']
        rintro _ ⟨⟩
        exact hopens'
    obtain ⟨st', t, hcompletes, hbare, ht⟩ :=
      hst.exists_completes (s := s.note (.statement s.current.kind)) hs hnext
    obtain ⟨sts', u, hfinishes, hbares⟩ := ih hsts ht
    exact ⟨st' :: sts', u, .cons hk hcompletes hfinishes, by simp [hbare, hbares]⟩

/-! ## Sources -/

theorem Token.Stream.proper_begin (source : Source) : (ofSource source).begin.Proper := by
  intro x hx
  have hmem : x.lexeme ∈ lexemes source.text.toList := by
    rw [← map_lexeme_ofSource]
    exact List.mem_map_of_mem hx
  exact proper_of_mem_lexemes hmem

/-- **Rendered programs are read back**, up to their tokens. -/
theorem parseGrouping_code (config : Config) (source : Source) (file : String)
    (h : (parseGrouping config source).2.errors = #[]) :
    let P := (parseGrouping config source).1
    let again := parseGrouping config ⟨P.code, file⟩
    again.2.errors = #[] ∧ again.1.bare = P.bare ∧ again.1.code = P.code := by
  intro P again
  obtain ⟨t, hfinishes⟩ := parseGrouping_iff.mp ⟨rfl, h⟩
  have hreadable := hfinishes.readable (Token.Stream.proper_begin source)
  obtain ⟨sts', t', hfinishes', hbare⟩ := exists_finishes config
    (s := (Token.Stream.ofSource ⟨P.code, file⟩).begin) hreadable
    ((Token.Stream.map_lexeme_ofSource _).trans (Program.lexemes_code hreadable))
  have hreadable' := hfinishes'.readable (Token.Stream.proper_begin _)
  obtain ⟨hsts, herrs⟩ := parseGrouping_iff.mpr ⟨t', hfinishes'⟩
  refine ⟨herrs, ?_, ?_⟩
  · rw [Program.bare, hsts, hbare]
    rfl
  · rw [Program.code, hsts, Statement.map_code_eq hreadable hreadable' hbare]
    rfl

/-- A source with parentheses, some of which are needed, and an operator before another. -/
def groupedSource : Source :=
  .ofText "let a = (1 + 02) * -3; (a) - (b == c)\n!!a; return (a);" none

theorem parseGrouping_code_groupedSource :
    let config : Config := ⟨.parse, .advance⟩
    let P := (parseGrouping config groupedSource).1
    let again := parseGrouping config ⟨P.code, "rendered"⟩
    (parseGrouping config groupedSource).2.errors = #[] ∧
      P.code = "let a = ((1 + 2) * (-3));\n(a - (b == c))\n(!(!a))\nreturn a;" ∧
      again.2.errors = #[] ∧ again.1.bare = P.bare ∧ again.1.code = P.code := by
  intro config P again
  have h : (parseGrouping config groupedSource).2.errors = #[] := by decide +kernel
  exact ⟨h, by decide +kernel, parseGrouping_code config groupedSource "rendered" h⟩

end PrattFrontend
