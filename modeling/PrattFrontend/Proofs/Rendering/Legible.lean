import PrattFrontend.Proofs.Rendering.Completion
import PrattFrontend.Proofs.Token.Lexemes
import PrattFrontend.Proofs.Tree.Nodes

/-!
# The text of a tree in lexemes

The text of a tree that was parsed without an error is read in lexemes as one would expect: names,
numbers and operators one by one, and a pair of parentheses for every operator. Nothing in it runs
together.

* **`Expr.Readable`**, **`Statement.Readable`**: the trees of which this is so, and
  `Grammar.Forms.readable`, `Grammar.Completes.readable`: trees that were parsed are such;
* `Expr.lexemes`, `Statement.lexemes`: the lexemes of a tree;
* **`Expr.lexemes_code`**, **`Program.lexemes_code`**: they are the lexemes of its text.
-/

namespace PrattFrontend

open Grammar (standard standardPower?)
open Token (Lexeme Kind isBlank isWordPart isWordStart lexemes)

/-! ## Trees that can be read back -/

/-- What a node has to say for its text to be read back: a name is an identifier, a number is not
negative and in range, an operator is spelled like one of its sort, and no operand is missing. -/
def Expr.Legible : Expr → Prop
  | .identifier i => (Lexeme.mk .identifier i.name.toList).Proper
  | .integer _ v => ∃ n : Nat, v = n ∧ n < Text.integerBound
  | .unary _ o r => r ≠ none ∧
      ∃ k, (k = Kind.bang ∨ k = Kind.minus) ∧ (Lexeme.mk k o.toList).Proper
  | .binary _ _ o r => r ≠ none ∧
      ∃ k q, standardPower? k = some q ∧ (Lexeme.mk k o.toList).Proper

/-- **A readable expression**: all its nodes can be read back. -/
def Expr.Readable (e : Expr) : Prop :=
  ∀ n ∈ e.nodes, n.Legible

theorem Expr.readable_identifier_iff {i : Identifier} :
    (identifier i).Readable ↔ (Lexeme.mk .identifier i.name.toList).Proper := by
  simp [Readable, nodes, Legible]

theorem Expr.readable_integer_iff {t : Token} {v : Int} :
    (integer t v).Readable ↔ ∃ n : Nat, v = n ∧ n < Text.integerBound := by
  simp [Readable, nodes, Legible]

theorem Expr.readable_unary_iff {t : Token} {o : String} {r : Option Expr} :
    (unary t o r).Readable ↔ (∃ k, (k = Kind.bang ∨ k = Kind.minus) ∧
      (Lexeme.mk k o.toList).Proper) ∧ ∃ e, r = some e ∧ e.Readable := by
  unfold Readable
  rw [forall_mem_nodes_unary]
  cases r <;> simp [Legible]

theorem Expr.readable_binary_iff {t : Token} {d : Expr} {o : String} {r : Option Expr} :
    (binary t d o r).Readable ↔ (∃ k q, standardPower? k = some q ∧
      (Lexeme.mk k o.toList).Proper) ∧ d.Readable ∧ ∃ e, r = some e ∧ e.Readable := by
  unfold Readable
  rw [forall_mem_nodes_binary]
  cases r <;> simp [Legible]

/-- **A readable statement**, in a mode for values: a binding has a value if values are parsed, and
no other statement has one that is passed over. -/
def Statement.Readable (config : Config) : Statement → Prop
  | letValue t name v => t.literal = "let" ∧ (Lexeme.mk .identifier name.name.toList).Proper ∧
      (∀ e ∈ v, e.Readable) ∧ (v.isSome ↔ config.values = .parse)
  | returnValue t v => t.literal = "return" ∧
      (∀ e ∈ v, e.Readable) ∧ (v.isSome → config.values = .parse)
  | expression _ v => ∃ e, v = some e ∧ e.Readable

/-! ## What was parsed is readable -/

/-- The tokens that are left consist of proper lexemes. -/
def State.Proper (s : State) : Prop :=
  ∀ x ∈ s.tokens.ahead, x.lexeme.Proper

section Parsed

variable {config : Config} {p : Power} {s t : State} {e : Expr} {st : Statement}

theorem State.Precedes.proper (h : s.Precedes t) (hs : s.Proper) : t.Proper := by
  obtain ⟨n, hn⟩ := h.tokens
  intro x hx
  rw [hn, Token.Stream.ahead_drop] at hx
  exact hs x (List.mem_of_mem_drop hx)

theorem State.Proper.current (hs : s.Proper) (hk : s.current.kind ≠ .endOfInput) :
    s.current.lexeme.Proper :=
  hs _ (by rw [ahead_eq_cons hk]; exact List.mem_cons_self)

theorem State.Proper.next (hs : s.Proper) (hk : s.next.kind ≠ .endOfInput) :
    s.next.lexeme.Proper := by
  rw [← current_advance] at hk ⊢
  exact ((Precedes.advance s).proper hs).current hk

/-- **What is formed is readable.** -/
theorem Grammar.Forms.readable (h : Forms p s e t) (hs : s.Proper) : e.Readable := by
  induction h with
  | @identifier p s hk =>
    have hproper := hs.current (by simp [hk])
    rw [Token.lexeme, hk] at hproper
    exact Expr.readable_identifier_iff.mpr hproper
  | @integer p s v hk hv =>
    obtain ⟨-, -, hlt, rfl⟩ := Text.readInteger?_eq_some_iff.mp hv
    exact Expr.readable_integer_iff.mpr ⟨_, rfl, hlt⟩
  | @unary p s e t hk right ih =>
    have hne : s.current.kind ≠ .endOfInput := by rcases hk with hk | hk <;> simp [hk]
    exact Expr.readable_unary_iff.mpr ⟨⟨_, hk, hs.current hne⟩, e, rfl,
      ih ((State.Precedes.advance s).proper hs)⟩
  | @grouped p s e t _ _ _ ih => exact ih ((State.Precedes.advance s).proper hs)
  | @binary p s l t op e u left hop right _ ihl ih =>
    obtain ⟨q, hq, -⟩ := nextOperator?_standard_eq_some_iff.mp hop
    have hne : t.next.kind ≠ .endOfInput := by
      intro hk
      rw [hk] at hq
      cases hq
    have ht := left.precedes.proper hs
    have hadv : t.Precedes t.advance.advance := (State.Precedes.advance t).trans (.advance _)
    exact Expr.readable_binary_iff.mpr ⟨⟨_, q, hq, ht.next hne⟩, ihl hs, e, rfl,
      ih (hadv.proper ht)⟩

theorem Grammar.Fills.readable {v : Option Expr} (h : Fills config s v t) (hs : s.Proper) :
    (∀ e ∈ v, e.Readable) ∧ (v.isSome ↔ config.values = .parse) := by
  cases h with
  | skipped hv => simp [hv]
  | formed hv h =>
    refine ⟨?_, by simp [hv]⟩
    rintro _ ⟨⟩
    exact h.readable ((State.Precedes.advance s).proper hs)

theorem State.Proper.literal_current {word : String} {k : Token.Kind} (hs : s.Proper)
    (hmem : (word, k) ∈ Token.reservedWords) (hk : s.current.kind = k)
    (hne : k ≠ .endOfInput) : s.current.literal = word := by
  have hproper := hs.current (hk ▸ hne)
  exact String.toList_inj.mp (hproper.text_of_reserved hmem hk)

/-- **What is completed is readable.** -/
theorem Grammar.Completes.readable (h : Completes config s st t) (hs : s.Proper) :
    st.Readable config := by
  cases h with
  | letValue hk hn ha h =>
    have hadv : s.Precedes s.advance.advance := (State.Precedes.advance s).trans (.advance _)
    have hname := hs.next (by simp [hn])
    rw [Token.lexeme, hn] at hname
    obtain ⟨he, hv⟩ := h.readable (hadv.proper hs)
    exact ⟨hs.literal_current (by decide) hk (by decide), hname, he, hv⟩
  | returnNothing hk =>
    exact ⟨hs.literal_current (by decide) hk (by decide), by simp, by simp⟩
  | returnValue hk _ h =>
    obtain ⟨he, hv⟩ := h.readable hs
    exact ⟨hs.literal_current (by decide) hk (by decide), he, hv.mp⟩
  | expression _ h => exact ⟨_, rfl, h.readable hs⟩

theorem Grammar.Finishes.readable {sts : List Statement} (h : Finishes config s sts t)
    (hs : s.Proper) : ∀ st ∈ sts, st.Readable config := by
  induction h with
  | nil => simp
  | @cons s t u st sts hk h _ ih =>
    have hprec : s.Precedes t.advance :=
      ((State.Precedes.note s _).trans h.precedes).trans (.advance t)
    exact List.forall_mem_cons.mpr ⟨h.readable hs, ih (hprec.proper hs)⟩

end Parsed

/-! ## The lexemes of a tree -/

/-- The lexemes of an expression, with a pair of parentheses for each operator. -/
def Expr.lexemes : Expr → List Lexeme
  | .identifier i => Token.lexemes i.name.toList
  | .integer _ v => Token.lexemes (toString v).toList
  | .unary _ o none =>
    ⟨.leftParen, ['(']⟩ :: Token.lexemes o.toList ++ [⟨.rightParen, [')']⟩]
  | .unary _ o (some e) =>
    ⟨.leftParen, ['(']⟩ :: Token.lexemes o.toList ++ e.lexemes ++ [⟨.rightParen, [')']⟩]
  | .binary _ d o none =>
    ⟨.leftParen, ['(']⟩ :: d.lexemes ++ Token.lexemes o.toList ++ [⟨.rightParen, [')']⟩]
  | .binary _ d o (some e) =>
    ⟨.leftParen, ['(']⟩ :: d.lexemes ++ Token.lexemes o.toList ++ e.lexemes ++
      [⟨.rightParen, [')']⟩]
termination_by structural e => e

/-- The lexemes of an expression that may be missing. -/
def Expr.lexemesOf : Option Expr → List Lexeme
  | none => []
  | some e => e.lexemes

/-- The lexemes of a statement. -/
def Statement.lexemes : Statement → List Lexeme
  | letValue _ name v =>
    ⟨.letWord, "let".toList⟩ :: Token.lexemes name.name.toList ++ ⟨.assign, ['=']⟩ ::
      Expr.lexemesOf v ++ [⟨.semicolon, [';']⟩]
  | returnValue _ v =>
    ⟨.returnWord, "return".toList⟩ :: Expr.lexemesOf v ++ [⟨.semicolon, [';']⟩]
  | expression _ v => Expr.lexemesOf v

/-! ## The lexemes of its text -/

theorem Text.decimalValue_toDigits (n : Nat) : decimalValue (Nat.toDigits 10 n) = n := by
  have h := Nat.ofDigitChars_ten_toDigits (n := n)
  rwa [Nat.ofDigitChars_eq_foldl] at h

theorem Text.toList_toString (n : Nat) : (toString (n : Int)).toList = Nat.toDigits 10 n :=
  Nat.toList_repr

theorem Token.Lexeme.proper_toDigits (n : Nat) :
    (Lexeme.mk .integer (Nat.toDigits 10 n)).Proper := by
  have hdigit : ∀ c ∈ Nat.toDigits 10 n, c.isDigit := fun c hc =>
    Nat.isDigit_of_mem_toDigits (by decide) (by decide) hc
  cases h : Nat.toDigits 10 n with
  | nil => exact absurd h Nat.toDigits_ne_nil
  | cons c cs =>
    rw [h] at hdigit
    exact .number (hdigit c List.mem_cons_self) fun d hd => hdigit d (List.mem_cons_of_mem c hd)

namespace Token

/-- A text **parts** from whatever comes before it if no lexeme goes on with its first character. -/
def Parts (cs : List Char) : Prop :=
  ∀ d ∈ cs.head?, isWordPart d = false ∧ d ≠ '='

theorem Parts.goesOn_eq_false {cs : List Char} (h : Parts cs) (l : Lexeme) :
    ∀ d ∈ cs.head?, l.goesOn d = false := by
  intro d hd
  obtain ⟨hword, hne⟩ := h d hd
  by_contra hgo
  rcases Lexeme.eq_or_isWordPart_of_goesOn (Bool.not_eq_false _ ▸ hgo) with heq | hpart
  · exact hne heq
  · rw [hword] at hpart
    cases hpart

theorem Parts.cons {c : Char} (h : isWordPart c = false ∧ c ≠ '=') (cs : List Char) :
    Parts (c :: cs) := by
  rintro _ ⟨⟩
  exact h

end Token

namespace Expr

theorem Readable.exists_code_eq_cons {e : Expr} (h : e.Readable) :
    ∃ c cs, e.code.toList = c :: cs ∧ (isWordPart c ∨ c = '(') := by
  cases e with
  | identifier i =>
    have hproper := readable_identifier_iff.mp h
    obtain ⟨c, cs, hcs⟩ := List.exists_cons_of_ne_nil hproper.text_ne_nil
    simp only at hcs
    refine ⟨c, cs, hcs, .inl (Token.isWordPart_of_isWordStart ?_)⟩
    exact hproper.isWordStart_head rfl c (by simp [hcs])
  | integer t v =>
    obtain ⟨n, rfl, -⟩ := readable_integer_iff.mp h
    obtain ⟨c, cs, hcs⟩ := List.exists_cons_of_ne_nil (Nat.toDigits_ne_nil (b := 10) (n := n))
    refine ⟨c, cs, by rw [code_integer, Text.toList_toString, hcs], .inl ?_⟩
    exact Token.isWordPart_of_isDigit
      (Nat.isDigit_of_mem_toDigits (b := 10) (n := n) (by decide) (by decide) (by simp [hcs]))
  | unary t o r =>
    refine ⟨'(', o.toList ++ ((codeOf r).toList ++ [')']), ?_, .inr rfl⟩
    simp [code_unary]
  | binary t d o r =>
    refine ⟨'(', d.code.toList ++ ' ' :: (o.toList ++ ' ' :: ((codeOf r).toList ++ [')'])), ?_,
      .inr rfl⟩
    simp [code_binary]

theorem Readable.exists_lexemes_eq_cons {e : Expr} (h : e.Readable) :
    ∃ l ls, e.lexemes = l :: ls ∧
      (l.kind = .identifier ∨ l.kind = .integer ∨ l.kind = .leftParen) := by
  cases e with
  | identifier i =>
    have hproper := readable_identifier_iff.mp h
    exact ⟨_, [], Token.lexemes_text hproper, .inl rfl⟩
  | integer t v =>
    obtain ⟨n, rfl, -⟩ := readable_integer_iff.mp h
    have hlex := Token.lexemes_text (Token.Lexeme.proper_toDigits n)
    exact ⟨_, [], by rwa [lexemes, Text.toList_toString], .inr (.inl rfl)⟩
  | unary t o r => cases r <;> exact ⟨_, _, rfl, .inr (.inr rfl)⟩
  | binary t d o r => cases r <;> exact ⟨_, _, rfl, .inr (.inr rfl)⟩

theorem lexemes_leftParen (cs : List Char) :
    Token.lexemes ('(' :: cs) = ⟨.leftParen, ['(']⟩ :: Token.lexemes cs :=
  Token.lexemes_mark (by decide) cs

theorem lexemes_rightParen (cs : List Char) :
    Token.lexemes (')' :: cs) = ⟨.rightParen, [')']⟩ :: Token.lexemes cs :=
  Token.lexemes_mark (by decide) cs

theorem lexemes_space (cs : List Char) : Token.lexemes (' ' :: cs) = Token.lexemes cs :=
  Token.lexemes_blank (by decide) cs

/-- **The text of what is readable is read as its lexemes.** -/
theorem Readable.lexemes_code {e : Expr} (h : e.Readable) {rest : List Char}
    (hrest : Token.Parts rest) :
    Token.lexemes (e.code.toList ++ rest) = e.lexemes ++ Token.lexemes rest := by
  induction e generalizing rest with
  | identifier i =>
    have hproper := readable_identifier_iff.mp h
    rw [code_identifier, lexemes, Token.lexemes_text hproper]
    exact Token.lexemes_append hproper (hrest.goesOn_eq_false _)
  | integer t v =>
    obtain ⟨n, rfl, -⟩ := readable_integer_iff.mp h
    have hproper := Token.Lexeme.proper_toDigits n
    rw [code_integer, lexemes, Text.toList_toString, Token.lexemes_text hproper]
    exact Token.lexemes_append hproper (hrest.goesOn_eq_false _)
  | unary t o r ih =>
    obtain ⟨⟨k, hk, hop⟩, e, rfl, he⟩ := readable_unary_iff.mp h
    obtain ⟨c, cs, hcs, hc⟩ := he.exists_code_eq_cons
    have hcode : (unary t o (some e)).code.toList ++ rest =
        '(' :: (o.toList ++ (e.code.toList ++ ')' :: rest)) := by
      simp [code_unary, codeOf]
    -- behind the operator comes no equals sign, so that the two are not read as one
    have hgo : ∀ d ∈ (e.code.toList ++ ')' :: rest).head?,
        (Lexeme.mk k o.toList).goesOn d = false := by
      rw [hcs]
      rintro _ ⟨⟩
      by_contra hgo
      have heq := hop.eq_of_goesOn hk (Bool.not_eq_false _ ▸ hgo)
      subst heq
      exact absurd hc (by decide)
    rw [hcode, lexemes_leftParen, Token.lexemes_append hop hgo,
      ih e rfl he (Token.Parts.cons (by decide) rest), lexemes_rightParen, lexemes,
      Token.lexemes_text hop]
    simp
  | binary t d o r ihd ih =>
    obtain ⟨⟨k, q, -, hop⟩, hd, e, rfl, he⟩ := readable_binary_iff.mp h
    have hcode : (binary t d o (some e)).code.toList ++ rest =
        '(' :: (d.code.toList ++ ' ' :: (o.toList ++ ' ' :: (e.code.toList ++ ')' :: rest))) := by
      simp [code_binary, codeOf]
    have hspace : ∀ cs, Token.Parts (' ' :: cs) := Token.Parts.cons (by decide)
    rw [hcode, lexemes_leftParen, ihd hd (hspace _), lexemes_space,
      Token.lexemes_append hop ((hspace _).goesOn_eq_false _), lexemes_space,
      ih e rfl he (Token.Parts.cons (by decide) rest), lexemes_rightParen, lexemes,
      Token.lexemes_text hop]
    simp

theorem lexemes_codeOf {v : Option Expr} (h : ∀ e ∈ v, e.Readable) {rest : List Char}
    (hrest : Token.Parts rest) :
    Token.lexemes ((codeOf v).toList ++ rest) = lexemesOf v ++ Token.lexemes rest := by
  cases v with
  | none => rfl
  | some e => exact (h e rfl).lexemes_code hrest

end Expr

namespace Statement

variable {config : Config}

theorem lexemes_semicolon (cs : List Char) :
    Token.lexemes (';' :: cs) = ⟨.semicolon, [';']⟩ :: Token.lexemes cs :=
  Token.lexemes_mark (by decide) cs

/-- **The text of what is readable is read as its lexemes.** -/
theorem Readable.lexemes_code {st : Statement} (h : st.Readable config) {rest : List Char}
    (hrest : Token.Parts rest) :
    Token.lexemes (st.code.toList ++ rest) = st.lexemes ++ Token.lexemes rest := by
  have hspace : ∀ cs, Token.Parts (' ' :: cs) := Token.Parts.cons (by decide)
  cases st with
  | letValue t name v =>
    obtain ⟨hlet, hname, hv, -⟩ := h
    have hcode : (letValue t name v).code.toList ++ rest =
        "let".toList ++ ' ' :: (name.name.toList ++ ' ' :: (['='] ++ ' ' ::
          ((Expr.codeOf v).toList ++ ';' :: rest))) := by
      simp [code, hlet]
    rw [hcode,
      Token.lexemes_append (l := ⟨.letWord, "let".toList⟩) (by decide)
        ((hspace _).goesOn_eq_false _),
      Expr.lexemes_space, Token.lexemes_append hname ((hspace _).goesOn_eq_false _),
      Expr.lexemes_space,
      Token.lexemes_append (l := ⟨.assign, ['=']⟩) (by decide) ((hspace _).goesOn_eq_false _),
      Expr.lexemes_space, Expr.lexemes_codeOf hv (Token.Parts.cons (by decide) rest),
      lexemes_semicolon, lexemes, Token.lexemes_text hname]
    simp
  | returnValue t v =>
    obtain ⟨hreturn, hv, -⟩ := h
    have hcode : (returnValue t v).code.toList ++ rest =
        "return".toList ++ ' ' :: ((Expr.codeOf v).toList ++ ';' :: rest) := by
      simp [code, hreturn]
    rw [hcode,
      Token.lexemes_append (l := ⟨.returnWord, "return".toList⟩) (by decide)
        ((hspace _).goesOn_eq_false _),
      Expr.lexemes_space, Expr.lexemes_codeOf hv (Token.Parts.cons (by decide) rest),
      lexemes_semicolon, lexemes]
    simp
  | expression t v =>
    obtain ⟨e, rfl, he⟩ := h
    exact he.lexemes_code hrest

end Statement

/-- **The text of a program is read as the lexemes of its statements.** -/
theorem Program.lexemes_code {config : Config} {P : Program}
    (h : ∀ st ∈ P.statements, st.Readable config) :
    Token.lexemes P.code.toList = P.statements.flatMap Statement.lexemes := by
  obtain ⟨sts⟩ := P
  simp only [code, String.toList_intercalate]
  induction sts with
  | nil => exact Token.lexemes_of_blanks (by simp)
  | cons st sts ih =>
    obtain ⟨hst, hsts⟩ := List.forall_mem_cons.mp h
    cases sts with
    | nil =>
      have hnil : Token.Parts [] := by simp [Token.Parts]
      have hcode := hst.lexemes_code hnil
      rw [List.append_nil, Token.lexemes_nil] at hcode
      simpa using hcode
    | cons st' sts =>
      have hblank : ∀ cs, Token.lexemes ('\n' :: cs) = Token.lexemes cs :=
        Token.lexemes_blank (by decide)
      have hcode := fun cs => hst.lexemes_code (Token.Parts.cons (c := '\n') (by decide) cs)
      have hrest := ih hsts
      rw [List.map_cons, List.map_cons, List.map_cons, List.map_cons, List.intercalate_cons_cons,
        List.append_assoc]
      change Token.lexemes (st.code.toList ++ '\n' :: _) = _
      rw [hcode, hblank, List.flatMap_cons]
      exact congrArg _ hrest

end PrattFrontend
