import PrattFrontend.Proofs.Rendering.Proper
import PrattFrontend.Proofs.Rendering.RoundTrip
import PrattFrontend.Proofs.Token.Spacing

/-!
# The text of a tree tells the tree

Two trees with the same text are the same but for their tokens, also where operands are missing.
What sort of expression a text is of is told by its first characters, and, where a minus sign could
stand before an operand or before a number, by what comes behind the name or the number that
follows.

* `Text.Atomic`, `Text.Stops`: names and numbers, and what comes behind them;
* `Expr.Proper.shape_code`: the sort of an expression is told by its text;
* `Expr.Proper.bare_eq`: so is the expression, and where its text ends;
* `Statement.Proper.bare_eq`: statements;
* **`bare_eq_of_code_eq`**: expressions, statements and programs, with any holes;
* `parse_bare_eq_of_code_eq`: the programs of two sources.
-/

namespace PrattFrontend

open Token (Lexeme isWordPart isWordStart)

variable {e e' : Expr} {c : Char} {cs ds rest rest' : List Char}

/-! ## Names and numbers -/

namespace Text

/-- The characters of names and numbers. -/
def isAtomPart (c : Char) : Bool :=
  isWordPart c || c = '-'

/-- An **atomic** text: one character or more, all of them such as names and numbers have. -/
def Atomic (cs : List Char) : Prop :=
  cs ≠ [] ∧ ∀ c ∈ cs, isAtomPart c

/-- An atomic text **stops** before another text that does not start with such a character. -/
def Stops (cs : List Char) : Prop :=
  ∀ c ∈ cs.head?, isAtomPart c = false

theorem Stops.cons (h : isAtomPart c = false) (cs : List Char) : Stops (c :: cs) := by
  rintro _ ⟨⟩
  exact h

theorem stops_nil : Stops [] := by
  simp [Stops]

theorem Atomic.append_inj (h : Atomic cs) (h' : Atomic ds) (hrest : Stops rest)
    (hrest' : Stops rest') (heq : cs ++ rest = ds ++ rest') : cs = ds ∧ rest = rest' :=
  Lexeme.append_inj_of_head? h.2 h'.2 hrest hrest' heq

theorem atomic_of_proper (h : (Lexeme.mk .identifier cs).Proper) : Atomic cs := by
  refine ⟨h.text_ne_nil, ?_⟩
  have hword : Token.Kind.isWord .identifier := by decide
  obtain ⟨c, ds, rfl, hc, hds⟩ := h.isWord_iff.mpr hword
  intro d hd
  have hpart : isWordPart d := by
    rcases List.mem_cons.mp hd with rfl | hd
    · exact Token.isWordPart_of_isWordStart (Token.isWordStart_iff.mpr hc)
    · exact Token.isWordPart_iff.mpr (hds d hd)
  simp [isAtomPart, hpart]

theorem toList_toString_int (v : Int) :
    (toString v).toList = (if v < 0 then ['-'] else []) ++ Nat.toDigits 10 v.natAbs := by
  cases v with
  | ofNat n => exact toList_toString n
  | negSucc n =>
    have hcode : toString (Int.negSucc n) = "-" ++ toString (Int.ofNat (n + 1)) := rfl
    rw [hcode, String.toList_append, if_pos (Int.negSucc_lt_zero n)]
    exact congrArg _ (toList_toString (n + 1))

theorem isDigit_of_mem_toDigits {n : Nat} (h : c ∈ Nat.toDigits 10 n) : c.isDigit :=
  Nat.isDigit_of_mem_toDigits (by decide) (by decide) h

theorem atomic_toDigits (n : Nat) : Atomic (Nat.toDigits 10 n) :=
  ⟨Nat.toDigits_ne_nil, fun c hc => by
    simp [isAtomPart, Token.isWordPart_of_isDigit (isDigit_of_mem_toDigits hc)]⟩

theorem atomic_toString_int (v : Int) : Atomic (toString v).toList := by
  obtain ⟨hne, hpart⟩ := atomic_toDigits v.natAbs
  rw [toList_toString_int]
  refine ⟨by simp [hne], List.forall_mem_append.mpr ⟨?_, hpart⟩⟩
  split <;> simp [isAtomPart]

theorem isWordStart_head_toString_int (v : Int) :
    ∀ c ∈ (toString v).toList.head?, isWordStart c = false := by
  rw [toList_toString_int]
  split
  · rintro _ ⟨⟩
    decide
  · intro c hc
    exact Token.isWordStart_eq_false_of_isDigit
      (isDigit_of_mem_toDigits (List.mem_of_head? hc))

/-- **Numbers with one text are one number.** -/
theorem toString_int_injective {v w : Int} (h : (toString v).toList = (toString w).toList) :
    v = w := by
  have hnat : ∀ m n, Nat.toDigits 10 m = Nat.toDigits 10 n → m = n := by
    intro m n h
    rw [← decimalValue_toDigits m, h, decimalValue_toDigits]
  have hsign : ∀ m n, Nat.toDigits 10 m ≠ '-' :: Nat.toDigits 10 n := by
    intro m n h
    have := isDigit_of_mem_toDigits (n := m) (by rw [h]; exact List.mem_cons_self)
    exact absurd this (by decide)
  rw [toList_toString_int, toList_toString_int] at h
  by_cases hv : v < 0 <;> by_cases hw : w < 0
  · simp only [hv, hw, if_true, List.append_cancel_left_eq] at h
    have := hnat _ _ h
    omega
  · simp only [hv, hw, if_true, if_false, List.singleton_append, List.nil_append] at h
    exact absurd h.symm (hsign _ _)
  · simp only [hv, hw, if_true, if_false, List.singleton_append, List.nil_append] at h
    exact absurd h (hsign _ _)
  · simp only [hv, hw, if_false, List.nil_append] at h
    have := hnat _ _ h
    omega

end Text

/-! ## The sort of an expression -/

/-- The sorts of expressions. -/
inductive Expr.Shape where
  | name
  | number
  | unary
  | binary

/-- The sort of an expression. -/
def Expr.shape : Expr → Shape
  | .identifier _ => .name
  | .integer _ _ => .number
  | .unary _ _ _ => .unary
  | .binary _ _ _ _ => .binary

/-- The sort of the expression that a text starts with. A minus sign behind a parenthesis belongs to
a number if a blank follows that, and otherwise it is an operator. -/
def Text.shape : List Char → Expr.Shape
  | '(' :: '!' :: _ => .unary
  | '(' :: '-' :: cs => if (cs.dropWhile isAtomPart).head? = some ' ' then .binary else .unary
  | '(' :: _ => .binary
  | c :: _ => if isWordStart c then .name else .number
  | [] => .number

theorem Text.shape_cons (h : c ≠ '(') (cs : List Char) :
    shape (c :: cs) = if isWordStart c then .name else .number := by
  simp [shape, h]

namespace Expr

open Text (isAtomPart Atomic Stops)

theorem Proper.code_cases (h : e.Proper) :
    Atomic e.code.toList ∨ ∃ cs, e.code.toList = '(' :: cs := by
  cases e with
  | identifier i => exact .inl (Text.atomic_of_proper (proper_identifier_iff.mp h))
  | integer t v => exact .inl (Text.atomic_toString_int v)
  | unary t o r => exact .inr ⟨_, by rw [code_unary]; simp; rfl⟩
  | binary t d o r => exact .inr ⟨_, by rw [code_binary]; simp; rfl⟩

theorem toList_code_unary (t : Token) (o : String) (r : Option Expr) (rest : List Char) :
    (unary t o r).code.toList ++ rest = '(' :: (o.toList ++ ((codeOf r).toList ++ ')' :: rest)) := by
  simp [code_unary]

theorem toList_code_binary (t : Token) (d : Expr) (o : String) (r : Option Expr)
    (rest : List Char) :
    (binary t d o r).code.toList ++ rest = '(' :: (d.code.toList ++
      ' ' :: (o.toList ++ ' ' :: ((codeOf r).toList ++ ')' :: rest))) := by
  simp [code_binary]

theorem head?_dropWhile_codeOf_ne {r : Option Expr} (hr : ∀ e ∈ r, e.Proper) (rest : List Char) :
    (((codeOf r).toList ++ ')' :: rest).dropWhile isAtomPart).head? ≠ some ' ' := by
  have hstop : isAtomPart ')' = false := by decide
  have hparen : isAtomPart '(' = false := by decide
  cases r with
  | none => simp [codeOf, hstop]
  | some e =>
    rw [codeOf]
    rcases (hr e rfl).code_cases with ⟨-, hatom⟩ | ⟨cs, hcs⟩
    · rw [Token.Lexeme.dropWhile_append_of_head? hatom (by simp [hstop])]
      simp
    · simp [hcs, hparen]

/-- **The sort of an expression is told by its text.** -/
theorem Proper.shape_code (h : e.Proper) (rest : List Char) :
    Text.shape (e.code.toList ++ rest) = e.shape := by
  cases e with
  | identifier i =>
    have hname := proper_identifier_iff.mp h
    obtain ⟨c, cs, hcs⟩ := List.exists_cons_of_ne_nil hname.text_ne_nil
    have hstart := hname.isWordStart_head rfl c (by rw [hcs]; rfl)
    have hparen : c ≠ '(' := by
      rintro rfl
      exact absurd hstart (by decide)
    simp only at hcs
    rw [code_identifier, hcs, List.cons_append, Text.shape_cons hparen, if_pos hstart]
    rfl
  | integer t v =>
    obtain ⟨hne, hatom⟩ := Text.atomic_toString_int v
    obtain ⟨c, cs, hcs⟩ := List.exists_cons_of_ne_nil hne
    have hstart := Text.isWordStart_head_toString_int v c (by rw [hcs]; rfl)
    have hparen : c ≠ '(' := by
      rintro rfl
      exact absurd (hatom '(' (hcs ▸ List.mem_cons_self)) (by decide)
    rw [code_integer, hcs, List.cons_append, Text.shape_cons hparen, hstart]
    rfl
  | unary t o r =>
    obtain ⟨ho, hr⟩ := proper_unary_iff.mp h
    rw [toList_code_unary]
    simp only [unaryOperators, List.mem_cons, List.not_mem_nil, or_false] at ho
    rcases ho with rfl | rfl
    · rfl
    · exact if_neg (head?_dropWhile_codeOf_ne hr rest)
  | binary t d o r =>
    obtain ⟨-, hd, -⟩ := proper_binary_iff.mp h
    rw [toList_code_binary]
    rcases hd.code_cases with ⟨hne, hatom⟩ | ⟨cs, hcs⟩
    · obtain ⟨c, cs, hcs⟩ := List.exists_cons_of_ne_nil hne
      rw [hcs] at hatom ⊢
      obtain ⟨hc, hatoms⟩ := List.forall_mem_cons.mp hatom
      by_cases hminus : c = '-'
      · subst hminus
        refine if_pos ?_
        change ((cs ++ ' ' :: _).dropWhile isAtomPart).head? = some ' '
        rw [Token.Lexeme.dropWhile_append_of_head? hatoms (by rintro _ ⟨⟩; decide)]
        rfl
      · have hbang : c ≠ '!' := by
          rintro rfl
          exact absurd hc (by decide)
        simp [Text.shape, hminus, hbang, shape]
    · rw [hcs]
      rfl

/-! ## Expressions -/

theorem codeOf_inj {r r' : Option Expr} (hr : ∀ e ∈ r, e.Proper) (hr' : ∀ e ∈ r', e.Proper)
    (hc : isAtomPart c = false ∧ c ≠ '(')
    (htold : ∀ e ∈ r, ∀ e' ∈ r', e.code.toList ++ c :: rest = e'.code.toList ++ c :: rest' →
      e.bare = e'.bare ∧ c :: rest = c :: rest')
    (h : (codeOf r).toList ++ c :: rest = (codeOf r').toList ++ c :: rest') :
    r.map bare = r'.map bare ∧ rest = rest' := by
  -- an operand starts with another character
  have hne : ∀ {e : Expr} {cs ds}, e.Proper → e.code.toList ++ cs ≠ c :: ds := by
    intro e cs ds he heq
    rcases he.code_cases with ⟨hnil, hatom⟩ | ⟨xs, hxs⟩
    · obtain ⟨x, xs, hxs⟩ := List.exists_cons_of_ne_nil hnil
      rw [hxs] at hatom heq
      obtain rfl : x = c := (List.cons.inj heq).1
      rw [hatom x List.mem_cons_self] at hc
      exact absurd hc.1 (by decide)
    · rw [hxs] at heq
      exact hc.2 (List.cons.inj heq).1.symm
  cases r with
  | none =>
    cases r' with
    | none => exact ⟨rfl, (List.cons.inj h).2⟩
    | some e' => exact absurd h.symm (hne (hr' e' rfl))
  | some e =>
    cases r' with
    | none => exact absurd h (hne (hr e rfl))
    | some e' =>
      obtain ⟨hbare, hrest⟩ := htold e rfl e' rfl h
      exact ⟨congrArg some hbare, (List.cons.inj hrest).2⟩

/-- **An expression is told by its text**, and so is where the text ends. -/
theorem Proper.bare_eq (h : e.Proper) (h' : e'.Proper) (hrest : Stops rest) (hrest' : Stops rest')
    (heq : e.code.toList ++ rest = e'.code.toList ++ rest') :
    e.bare = e'.bare ∧ rest = rest' := by
  have hparen : isAtomPart ')' = false ∧ ')' ≠ '(' := by decide
  have hblank : isAtomPart ' ' = false := by decide
  induction e generalizing e' rest rest' with
  | identifier i =>
    have hshape := congrArg Text.shape heq
    rw [h.shape_code, h'.shape_code] at hshape
    cases e' with
    | identifier i' =>
      obtain ⟨hname, rfl⟩ := Text.Atomic.append_inj
        (Text.atomic_of_proper (proper_identifier_iff.mp h))
        (Text.atomic_of_proper (proper_identifier_iff.mp h')) hrest hrest' heq
      simp [String.toList_inj.mp hname]
    | _ => cases hshape
  | integer t v =>
    have hshape := congrArg Text.shape heq
    rw [h.shape_code, h'.shape_code] at hshape
    cases e' with
    | integer t' v' =>
      obtain ⟨hvalue, rfl⟩ := (Text.atomic_toString_int v).append_inj (Text.atomic_toString_int v')
        hrest hrest' heq
      simp [Text.toString_int_injective hvalue]
    | _ => cases hshape
  | unary t o r ih =>
    have hshape := congrArg Text.shape heq
    rw [h.shape_code, h'.shape_code] at hshape
    cases e' with
    | unary t' o' r' =>
      obtain ⟨ho, hr⟩ := proper_unary_iff.mp h
      obtain ⟨ho', hr'⟩ := proper_unary_iff.mp h'
      rw [toList_code_unary, toList_code_unary, List.cons.injEq] at heq
      have hlen : ∀ o ∈ unaryOperators, o.toList.length = 1 := by decide
      obtain ⟨hop, heq⟩ := List.append_inj heq.2 ((hlen o ho).trans (hlen o' ho').symm)
      obtain ⟨hbare, rfl⟩ := codeOf_inj hr hr' hparen (fun e he e' he' =>
        ih e he (hr e he) (hr' e' he') (.cons hparen.1 _) (.cons hparen.1 _)) heq
      simp [String.toList_inj.mp hop, hbare]
    | _ => cases hshape
  | binary t d o r ihd ih =>
    have hshape := congrArg Text.shape heq
    rw [h.shape_code, h'.shape_code] at hshape
    cases e' with
    | binary t' d' o' r' =>
      obtain ⟨ho, hd, hr⟩ := proper_binary_iff.mp h
      obtain ⟨ho', hd', hr'⟩ := proper_binary_iff.mp h'
      rw [toList_code_binary, toList_code_binary, List.cons.injEq] at heq
      obtain ⟨hleft, heq⟩ := ihd hd hd' (.cons hblank _) (.cons hblank _) heq.2
      have hfree : ∀ o ∈ binaryOperators, o.toList.all (· != ' ') := by decide
      obtain ⟨hop, heq⟩ := Lexeme.append_inj_of_head? (List.all_eq_true.mp (hfree o ho))
        (List.all_eq_true.mp (hfree o' ho')) (by rintro _ ⟨⟩; rfl) (by rintro _ ⟨⟩; rfl)
        (List.cons.inj heq).2
      replace heq := (List.cons.inj heq).2
      obtain ⟨hbare, rfl⟩ := codeOf_inj hr hr' hparen (fun e he e' he' =>
        ih e he (hr e he) (hr' e' he') (.cons hparen.1 _) (.cons hparen.1 _)) heq
      simp [String.toList_inj.mp hop, hleft, hbare]
    | _ => cases hshape

theorem map_bare_eq {v v' : Option Expr} (hv : ∀ e ∈ v, e.Proper) (hv' : ∀ e ∈ v', e.Proper)
    (h : codeOf v = codeOf v') : v.map bare = v'.map bare := by
  have hsemicolon : isAtomPart ';' = false ∧ ';' ≠ '(' := by decide
  have htext : (codeOf v).toList ++ ';' :: [] = (codeOf v').toList ++ ';' :: [] := by rw [h]
  exact (codeOf_inj hv hv' hsemicolon (fun e he e' he' =>
    (hv e he).bare_eq (hv' e' he') (.cons hsemicolon.1 _) (.cons hsemicolon.1 _)) htext).1

theorem toList_codeOf_ne {v : Option Expr} (hv : ∀ e ∈ v, e.Proper) {word : List Char}
    (hword : Atomic word) (cs : List Char) : (codeOf v).toList ≠ word ++ ' ' :: cs := by
  have hblank : Stops (' ' :: cs) := .cons (by decide) cs
  intro h
  cases v with
  | none => simp [codeOf] at h
  | some e =>
    rcases (hv e rfl).code_cases with hatom | ⟨xs, hxs⟩
    · rw [codeOf, ← List.append_nil e.code.toList] at h
      exact absurd (hatom.append_inj hword Text.stops_nil hblank h).2.symm (List.cons_ne_nil _ _)
    · obtain ⟨c, ds, rfl⟩ := List.exists_cons_of_ne_nil hword.1
      rw [codeOf, hxs] at h
      have hc := hword.2 c List.mem_cons_self
      rw [← (List.cons.inj h).1] at hc
      exact absurd hc (by decide)

theorem Proper.newline_not_mem (h : e.Proper) : '\n' ∉ e.code.toList := by
  have hatom : ∀ {cs}, Atomic cs → '\n' ∉ cs := fun hcs hmem =>
    absurd (hcs.2 _ hmem) (by decide)
  induction e with
  | identifier i => exact hatom (Text.atomic_of_proper (proper_identifier_iff.mp h))
  | integer t v => exact hatom (Text.atomic_toString_int v)
  | unary t o r ih =>
    obtain ⟨ho, hr⟩ := proper_unary_iff.mp h
    have hop : ∀ o ∈ unaryOperators, '\n' ∉ o.toList := by decide
    cases r with
    | none => simp [code_unary, codeOf, hop o ho]
    | some e => simp [code_unary, codeOf, hop o ho, ih e rfl (hr e rfl)]
  | binary t d o r ihd ih =>
    obtain ⟨ho, hd, hr⟩ := proper_binary_iff.mp h
    have hop : ∀ o ∈ binaryOperators, '\n' ∉ o.toList := by decide
    cases r with
    | none => simp [code_binary, codeOf, hop o ho, ihd hd]
    | some e => simp [code_binary, codeOf, hop o ho, ihd hd, ih e rfl (hr e rfl)]

theorem newline_not_mem_codeOf {v : Option Expr} (hv : ∀ e ∈ v, e.Proper) :
    '\n' ∉ (codeOf v).toList := by
  cases v with
  | none => simp [codeOf]
  | some e => exact (hv e rfl).newline_not_mem

end Expr

/-! ## Statements and programs -/

namespace Statement

open Text (Atomic Stops)

variable {st st' : Statement}

theorem toList_code_letValue {t : Token} (h : t.literal = "let") (name : Identifier)
    (v : Option Expr) :
    (letValue t name v).code.toList = "let".toList ++ ' ' :: (name.name.toList ++
      ' ' :: ('=' :: ' ' :: ((Expr.codeOf v).toList ++ [';']))) := by
  simp [code, h]

theorem toList_code_returnValue {t : Token} (h : t.literal = "return") (v : Option Expr) :
    (returnValue t v).code.toList =
      "return".toList ++ ' ' :: ((Expr.codeOf v).toList ++ [';']) := by
  simp [code, h]

/-- **A statement is told by its text.** -/
theorem Proper.bare_eq (h : st.Proper) (h' : st'.Proper) (heq : st.code = st'.code) :
    st.bare = st'.bare := by
  have hlet : Atomic "let".toList := ⟨by decide, List.all_eq_true.mp (by decide)⟩
  have hreturn : Atomic "return".toList := ⟨by decide, List.all_eq_true.mp (by decide)⟩
  have hblank : ∀ cs, Stops (' ' :: cs) := .cons (by decide)
  replace heq := congrArg String.toList heq
  cases st with
  | letValue t name v =>
    obtain ⟨ht, hname, hv⟩ := h
    rw [toList_code_letValue ht] at heq
    cases st' with
    | letValue t' name' v' =>
      obtain ⟨ht', hname', hv'⟩ := h'
      rw [toList_code_letValue ht', List.append_cancel_left_eq, List.cons.injEq] at heq
      obtain ⟨hnames, heq⟩ := (Text.atomic_of_proper hname).append_inj
        (Text.atomic_of_proper hname') (hblank _) (hblank _) heq.2
      simp only [List.cons.injEq, true_and, List.append_cancel_right_eq] at heq
      simp [String.toList_inj.mp hnames, Expr.map_bare_eq hv hv' (String.toList_inj.mp heq)]
    | returnValue t' v' =>
      rw [toList_code_returnValue h'.1] at heq
      have hwords := (hlet.append_inj hreturn (hblank _) (hblank _) heq).1
      exact absurd hwords (by decide)
    | expression t' v' => exact absurd heq.symm (Expr.toList_codeOf_ne h' hlet _)
  | returnValue t v =>
    obtain ⟨ht, hv⟩ := h
    rw [toList_code_returnValue ht] at heq
    cases st' with
    | letValue t' name' v' =>
      rw [toList_code_letValue h'.1] at heq
      have hwords := (hreturn.append_inj hlet (hblank _) (hblank _) heq).1
      exact absurd hwords (by decide)
    | returnValue t' v' =>
      obtain ⟨ht', hv'⟩ := h'
      rw [toList_code_returnValue ht'] at heq
      simp only [List.append_cancel_left_eq, List.cons.injEq, true_and,
        List.append_cancel_right_eq] at heq
      simp [Expr.map_bare_eq hv hv' (String.toList_inj.mp heq)]
    | expression t' v' => exact absurd heq.symm (Expr.toList_codeOf_ne h' hreturn _)
  | expression t v =>
    cases st' with
    | letValue t' name' v' =>
      rw [toList_code_letValue h'.1] at heq
      exact absurd heq (Expr.toList_codeOf_ne h hlet _)
    | returnValue t' v' =>
      rw [toList_code_returnValue h'.1] at heq
      exact absurd heq (Expr.toList_codeOf_ne h hreturn _)
    | expression t' v' => simp [Expr.map_bare_eq h h' (String.toList_inj.mp heq)]

theorem Proper.newline_not_mem (h : st.Proper) : '\n' ∉ st.code.toList := by
  cases st with
  | letValue t name v =>
    obtain ⟨ht, hname, hv⟩ := h
    have hfree : '\n' ∉ name.name.toList := fun hmem =>
      absurd ((Text.atomic_of_proper hname).2 _ hmem) (by decide)
    rw [toList_code_letValue ht]
    simp [hfree, Expr.newline_not_mem_codeOf hv]
  | returnValue t v =>
    rw [toList_code_returnValue h.1]
    simp [Expr.newline_not_mem_codeOf h.2]
  | expression t v => exact Expr.newline_not_mem_codeOf h

theorem map_bare_eq {sts sts' : List Statement} (h : ∀ st ∈ sts, st.Proper)
    (h' : ∀ st ∈ sts', st.Proper) (heq : sts.map code = sts'.map code) :
    sts.map bare = sts'.map bare := by
  induction sts generalizing sts' with
  | nil => rw [List.map_eq_nil_iff.mp heq.symm]
  | cons st sts ih =>
    obtain ⟨st', sts', rfl, hst, hsts⟩ := List.map_eq_cons_iff.mp heq.symm
    obtain ⟨hproper, hrest⟩ := List.forall_mem_cons.mp h
    obtain ⟨hproper', hrest'⟩ := List.forall_mem_cons.mp h'
    rw [List.map_cons, List.map_cons, hproper.bare_eq hproper' hst.symm,
      ih hrest hrest' hsts.symm]

end Statement

/-- **The lines of a program are told by its text**, if it has one at least. -/
theorem Program.map_code_eq {P P' : Program} (hne : P.statements ≠ []) (hne' : P'.statements ≠ [])
    (h : ∀ st ∈ P.statements, st.Proper) (h' : ∀ st ∈ P'.statements, st.Proper)
    (heq : P.code = P'.code) :
    P.statements.map Statement.code = P'.statements.map Statement.code := by
  have hsplit : ∀ {P : Program}, P.statements ≠ [] → (∀ st ∈ P.statements, st.Proper) →
      P.code.toList.splitOn '\n' = (P.statements.map Statement.code).map String.toList := by
    intro P hne h
    rw [code, String.toList_intercalate]
    refine List.splitOn_intercalate '\n' ?_ (by simpa using hne)
    simp only [List.map_map, List.forall_mem_map]
    exact fun st hst => (h st hst).newline_not_mem
  have hlines := congrArg (fun text => text.toList.splitOn '\n') heq
  simp only [hsplit hne h, hsplit hne' h'] at hlines
  exact List.map_injective_iff.mpr (fun _ _ => String.toList_inj.mp) hlines

/-- **Text tells trees**, up to their tokens. -/
theorem bare_eq_of_code_eq :
    (∀ e e' : Expr, e.Proper → e'.Proper → e.code = e'.code → e.bare = e'.bare) ∧
      (∀ st st' : Statement, st.Proper → st'.Proper → st.code = st'.code → st.bare = st'.bare) ∧
      ∀ P P' : Program, P.statements ≠ [] → P'.statements ≠ [] →
        (∀ st ∈ P.statements, st.Proper) → (∀ st ∈ P'.statements, st.Proper) →
        P.code = P'.code → P.statements.map Statement.bare = P'.statements.map Statement.bare := by
  refine ⟨fun e e' h h' heq => ?_, fun st st' h h' heq => h.bare_eq h' heq,
    fun P P' hne hne' h h' heq => ?_⟩
  · have htext : e.code.toList ++ [] = e'.code.toList ++ [] := by rw [heq]
    exact (h.bare_eq h' Text.stops_nil Text.stops_nil htext).1
  · exact Statement.map_bare_eq h h' (Program.map_code_eq hne hne' h h' heq)

/-- **What was parsed is told by its text**, errors or not. -/
theorem parse_bare_eq_of_code_eq {config config' : Config} {source source' : Source}
    (hne : (parse config source).1.statements ≠ [])
    (hne' : (parse config' source').1.statements ≠ [])
    (h : (parse config source).1.code = (parse config' source').1.code) :
    (parse config source).1.statements.map Statement.bare =
      (parse config' source').1.statements.map Statement.bare :=
  Statement.map_bare_eq proper_of_mem_parse proper_of_mem_parse
    (Program.map_code_eq hne hne' proper_of_mem_parse proper_of_mem_parse h)

/-- A program without statements has the text of one with nothing but a hole. -/
example : Program.code ⟨[]⟩ = Program.code ⟨[.expression .blank none]⟩ := rfl

/-- A negative number with one more minus sign before it, and a hole subtracted from it. All tokens
of the expression are the same. -/
def holedExpr (t : Token) : Expr :=
  .binary t (.unary t "-" (some (.integer t (-5)))) "-" none

/-- A program with two holes. -/
def holedProgram (t : Token) : Program :=
  ⟨[.letValue (.unplaced .letWord "let") ⟨t, "x"⟩ none, .expression t (some (holedExpr t))]⟩

theorem bare_eq_holedProgram :
    let t := Token.unplaced .minus "-"
    let u := Token.unplaced .illegal "?"
    ((holedExpr t).Proper ∧ (holedExpr u).Proper ∧ (holedExpr t).code = "((--5) - )" ∧
        (holedExpr u).code = "((--5) - )" ∧ (holedExpr t).bare = (holedExpr u).bare) ∧
      ((Statement.expression t (some (holedExpr t))).Proper ∧
        (Statement.expression t (some (holedExpr t))).bare =
          (Statement.expression u (some (holedExpr u))).bare) ∧
      (∀ st ∈ (holedProgram t).statements, st.Proper) ∧
        (∀ st ∈ (holedProgram u).statements, st.Proper) ∧
        (holedProgram t).code = (holedProgram u).code ∧
        (holedProgram t).statements.map Statement.bare =
          (holedProgram u).statements.map Statement.bare := by
  intro t u
  have ht : (holedExpr t).Proper := by decide
  have hu : (holedExpr u).Proper := by decide
  have hcode : (holedExpr t).code = "((--5) - )" := by decide
  have hcode' : (holedExpr u).code = "((--5) - )" := by decide
  have hsts : ∀ st ∈ (holedProgram t).statements, st.Proper := by decide
  have hsts' : ∀ st ∈ (holedProgram u).statements, st.Proper := by decide
  have hprogram : (holedProgram t).code = (holedProgram u).code := rfl
  obtain ⟨hexpr, hst, hall⟩ := bare_eq_of_code_eq
  exact ⟨⟨ht, hu, hcode, hcode', hexpr _ _ ht hu (hcode.trans hcode'.symm)⟩,
    ⟨by decide, hst _ _ (by decide) (by decide) rfl⟩, hsts, hsts', hprogram,
    hall _ _ nofun nofun hsts hsts' hprogram⟩

end PrattFrontend
