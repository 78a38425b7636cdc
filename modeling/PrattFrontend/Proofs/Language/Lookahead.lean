import Mathlib.Tactic.Common
import PrattFrontend.Proofs.Language.Sentences

/-!
# Sentences from left to right

The grammar of the language is ambiguous, but whoever reads a program from left to right need not
choose: the next token settles what may come behind it.

* `Language.Rest`, `Language.OperandAhead`, `Language.ValueAhead`: what may stand behind an operand,
  where an operand is due, and where a value is due;
* `Language.operandAhead_cons_iff`, **`Language.Rest.operandAhead`**: the operators;
* **`Language.sentences_cons_iff`**: the statements;
* `Language.valueAhead_parse_iff`, `Language.valueAhead_skip_iff`: the values.
-/

namespace PrattFrontend.Language

/-- What may stand behind an operand: an operator and one more operand, or the end of the
statement. -/
inductive Rest (values : ValueMode) : List Token → Prop
  | operation {t us vs} (ht : t.kind ∈ infixKinds) (h : Operand us) (h' : Rest values vs) :
      Rest values (t :: (us ++ vs))
  | semicolon {c us} (hc : c.kind = .semicolon) (h : Sentences values us) : Rest values (c :: us)
  | sentences {us} (h : Sentences values us) : Rest values us

/-- What may stand where an operand is due. -/
def OperandAhead (values : ValueMode) (ts : List Token) : Prop :=
  ∃ us vs, ts = us ++ vs ∧ Operand us ∧ Rest values vs

/-- What may stand where a value is due. -/
def ValueAhead (values : ValueMode) (ts : List Token) : Prop :=
  ∃ us vs, ts = us ++ vs ∧ Value values us vs ∧ Sentences values vs

variable {values : ValueMode} {t : Token} {ts us : List Token}

/-! ## Operands -/

/-- **Where an operand is due, the next token settles what comes behind it.** -/
theorem operandAhead_cons_iff :
    OperandAhead values (t :: ts) ↔
      Atom t ∧ Rest values ts ∨ t.kind ∈ prefixKinds ∧ OperandAhead values ts := by
  constructor
  · rintro ⟨us, vs, heq, h, h'⟩
    cases h with
    | atom h =>
      cases heq
      exact .inl ⟨h, h'⟩
    | unary ht h =>
      cases heq
      exact .inr ⟨ht, _, vs, rfl, h, h'⟩
  · rintro (⟨h, h'⟩ | ⟨ht, us, vs, rfl, h, h'⟩)
    · exact ⟨[t], ts, rfl, .atom h, h'⟩
    · exact ⟨t :: us, vs, rfl, .unary ht h, h'⟩

theorem OperandAhead.exists_head (h : OperandAhead values ts) :
    ∃ t us, ts = t :: us ∧ t.kind ∈ startKinds := by
  obtain ⟨us, vs, rfl, h, -⟩ := h
  obtain ⟨t, us, rfl, ht⟩ := h.exists_head
  exact ⟨t, us ++ vs, rfl, ht⟩

theorem not_operandAhead_cons (ht : t.kind ∉ startKinds) : ¬OperandAhead values (t :: ts) := by
  intro h
  obtain ⟨u, us, heq, hu⟩ := h.exists_head
  cases heq
  exact ht hu

theorem Closing.rest (hc : Closing ts) (h : Sentences values us) : Rest values (ts ++ us) := by
  cases hc with
  | none => exact .sentences h
  | semicolon hc => exact .semicolon hc h

theorem Rest.exists_expression (h : Rest values us) (h' : Expression ts) :
    ∃ vs cs ws, ts ++ us = vs ++ (cs ++ ws) ∧ Expression vs ∧ Closing cs ∧ Sentences values ws := by
  induction h generalizing ts with
  | @operation t us vs ht hu _ ih =>
    obtain ⟨ws, cs, xs, heq, hws⟩ := ih (h'.operation ht hu)
    exact ⟨ws, cs, xs, by rw [← heq]; simp, hws⟩
  | @semicolon c us hc hs => exact ⟨ts, [c], us, rfl, h', .semicolon hc, hs⟩
  | @sentences us hs => exact ⟨ts, [], us, rfl, h', .none, hs⟩

theorem Expression.operandAhead (h : Expression ts) (h' : Rest values us) :
    OperandAhead values (ts ++ us) := by
  induction h generalizing us with
  | @operand ts h => exact ⟨ts, us, rfl, h, h'⟩
  | @operation ts t vs _ ht hv ih =>
    rw [List.append_assoc]
    exact ih (.operation ht hv h')

theorem operandAhead_iff :
    OperandAhead values ts ↔
      ∃ us cs vs, ts = us ++ (cs ++ vs) ∧ Expression us ∧ Closing cs ∧ Sentences values vs := by
  constructor
  · rintro ⟨us, vs, rfl, h, h'⟩
    exact h'.exists_expression (.operand h)
  · rintro ⟨us, cs, vs, rfl, h, hc, h'⟩
    exact h.operandAhead (hc.rest h')

/-! ## Statements -/

/-- **A program that is not empty starts with a binding, a return or an operand.** -/
theorem sentences_cons_iff :
    Sentences values (t :: ts) ↔
      (t.kind = .letWord ∧ ∃ n a us, ts = n :: a :: us ∧ n.kind = .identifier ∧
        a.kind = .assign ∧ ValueAhead values us) ∨
      (t.kind = .returnWord ∧ ((∃ c us, ts = c :: us ∧ c.kind = .semicolon ∧
        Sentences values us) ∨ ValueAhead values ts)) ∨
      OperandAhead values (t :: ts) := by
  constructor
  · intro h
    generalize heq : t :: ts = us at h
    cases h with
    | nil => cases heq
    | @cons us vs h h' =>
      cases h with
      | @binding l n a us _ hl hn ha h =>
        cases heq
        exact .inl ⟨hl, n, a, us ++ vs, rfl, hn, ha, us, vs, rfl, h, h'⟩
      | @returnNothing r c _ hr hc =>
        cases heq
        exact .inr (.inl ⟨hr, .inl ⟨c, vs, rfl, hc, h'⟩⟩)
      | @returnValue r us _ hr h =>
        cases heq
        exact .inr (.inl ⟨hr, .inr ⟨us, vs, rfl, h, h'⟩⟩)
      | @expression us cs _ h hc =>
        rw [List.append_assoc]
        exact .inr (.inr (h.operandAhead (hc.rest h')))
  · rintro (⟨ht, n, a, us, rfl, hn, ha, us, vs, rfl, h, h'⟩ |
      ⟨ht, ⟨c, us, rfl, hc, h⟩ | ⟨us, vs, rfl, h, h'⟩⟩ | h)
    · exact .cons (.binding ht hn ha h) h'
    · exact .cons (.returnNothing ht hc) h
    · exact .cons (.returnValue ht h) h'
    · obtain ⟨us, cs, vs, heq, h, hc, h'⟩ := operandAhead_iff.mp h
      rw [heq, ← List.append_assoc]
      exact .cons (.expression h hc) h'

theorem sentences_let_iff (ht : t.kind = .letWord) :
    Sentences values (t :: ts) ↔ ∃ n a us, ts = n :: a :: us ∧ n.kind = .identifier ∧
      a.kind = .assign ∧ ValueAhead values us := by
  have hno : ¬OperandAhead values (t :: ts) := not_operandAhead_cons (by simp [ht, startKinds])
  simp only [sentences_cons_iff, ht, hno, true_and, reduceCtorEq, false_and, or_false]

theorem sentences_expression_iff (ht : t.kind ≠ .letWord) (ht' : t.kind ≠ .returnWord) :
    Sentences values (t :: ts) ↔ OperandAhead values (t :: ts) := by
  simp only [sentences_cons_iff, ht, ht', false_and, false_or]

theorem not_sentences_of_semicolon (ht : t.kind = .semicolon) : ¬Sentences values (t :: ts) := by
  rw [sentences_expression_iff (by simp [ht]) (by simp [ht])]
  exact not_operandAhead_cons (by simp [ht, startKinds])

/-! ## Behind an operand -/

/-- **Behind an operand, an operator may always be taken to stand between two.** -/
theorem Rest.operandAhead (h : Rest values (t :: ts)) (ht : t.kind ∈ infixKinds) :
    OperandAhead values ts := by
  cases h with
  | operation _ h h' => exact ⟨_, _, rfl, h, h'⟩
  | semicolon hc => simp [hc, infixKinds] at ht
  | sentences h =>
    have hlet : t.kind ≠ .letWord := fun hk => by simp [hk, infixKinds] at ht
    have hreturn : t.kind ≠ .returnWord := fun hk => by simp [hk, infixKinds] at ht
    rw [sentences_expression_iff hlet hreturn] at h
    rcases operandAhead_cons_iff.mp h with ⟨hk | ⟨hk, -⟩, -⟩ | ⟨-, h⟩
    · simp [hk, infixKinds] at ht
    · simp [hk, infixKinds] at ht
    · exact h

theorem Rest.sentences_of_semicolon (h : Rest values (t :: ts)) (ht : t.kind = .semicolon) :
    Sentences values ts := by
  cases h with
  | operation hk => simp [ht, infixKinds] at hk
  | semicolon _ h => exact h
  | sentences h => exact absurd h (not_sentences_of_semicolon ht)

theorem Rest.sentences_of_head (h : Rest values ts)
    (ht : ∀ t ∈ ts.head?, t.kind ∉ infixKinds ∧ t.kind ≠ .semicolon) : Sentences values ts := by
  cases h with
  | operation hk => exact absurd hk (ht _ rfl).1
  | semicolon hc => exact absurd hc (ht _ rfl).2
  | sentences h => exact h

/-! ## Values -/

theorem valueAhead_parse_iff : ValueAhead .parse ts ↔ OperandAhead .parse ts := by
  rw [operandAhead_iff]
  constructor
  · rintro ⟨us, vs, rfl, h, h'⟩
    cases h with
    | @read us cs _ _ h hc => exact ⟨us, cs, vs, List.append_assoc _ _ _, h, hc, h'⟩
    | skipped hv => cases hv
    | skippedToEnd hv => cases hv
  · rintro ⟨us, cs, vs, rfl, h, hc, h'⟩
    exact ⟨us ++ cs, vs, (List.append_assoc _ _ _).symm, .read rfl h hc, h'⟩

theorem valueAhead_skip_iff :
    ValueAhead .skip ts ↔
      Sentences .skip (ts.dropWhile fun t => t.kind ≠ .semicolon).tail := by
  set p : Token → Bool := fun t => t.kind ≠ .semicolon
  constructor
  · rintro ⟨us, vs, rfl, h, h'⟩
    cases h with
    | read hv => cases hv
    | @skipped us c _ _ h hc =>
      have hd : (us ++ [c] ++ vs).dropWhile p = c :: vs := by
        rw [List.append_assoc, List.dropWhile_append_of_pos fun t ht => by simp [p, h t ht]]
        exact List.dropWhile_cons_of_neg (by simp [p, hc])
      rwa [hd]
    | skippedToEnd _ h =>
      rw [List.dropWhile_append_of_pos fun t ht => by simp [p, h t ht]]
      exact h'
  · intro h
    have hsplit : ts = ts.takeWhile p ++ ts.dropWhile p := List.takeWhile_append_dropWhile.symm
    have htake : ∀ t ∈ ts.takeWhile p, t.kind ≠ .semicolon := fun t ht => by
      simpa [p] using List.all_eq_true.mp List.all_takeWhile t ht
    cases hd : ts.dropWhile p with
    | nil =>
      rw [hd, List.append_nil] at hsplit
      exact ⟨ts, [], by simp, .skippedToEnd rfl (hsplit ▸ htake), .nil⟩
    | cons c us =>
      have hc : c.kind = .semicolon := by
        have hnot := List.head?_dropWhile_not p ts
        rw [hd] at hnot
        simpa [p] using hnot
      rw [hd] at hsplit h
      exact ⟨ts.takeWhile p ++ [c], us, by simpa using hsplit, .skipped rfl htake hc, h⟩

/-! ## Returns -/

theorem sentences_return_semicolon_iff (ht : t.kind = .returnWord) {c : Token}
    (hc : c.kind = .semicolon) : Sentences values (t :: c :: ts) ↔ Sentences values ts := by
  constructor
  · intro h
    rcases sentences_cons_iff.mp h with ⟨hk, -⟩ | ⟨-, ⟨_, _, ⟨⟩, -, h⟩ | h⟩ | h
    · simp [ht] at hk
    · exact h
    · cases values with
      | parse =>
        exact absurd (valueAhead_parse_iff.mp h) (not_operandAhead_cons (by simp [hc, startKinds]))
      | skip =>
        rw [valueAhead_skip_iff, List.dropWhile_cons_of_neg (by simp [hc])] at h
        exact h
    · exact absurd h (not_operandAhead_cons (by simp [ht, startKinds]))
  · intro h
    exact .cons (.returnNothing ht hc) h

theorem sentences_return_value_iff (ht : t.kind = .returnWord)
    (hts : ∀ c ∈ ts.head?, c.kind ≠ .semicolon) :
    Sentences values (t :: ts) ↔ ValueAhead values ts := by
  have hno : ¬OperandAhead values (t :: ts) := not_operandAhead_cons (by simp [ht, startKinds])
  simp only [sentences_cons_iff, ht, hno, true_and, reduceCtorEq, false_and, false_or, or_false]
  refine or_iff_right ?_
  rintro ⟨c, us, rfl, hc, -⟩
  exact hts c rfl hc

end PrattFrontend.Language
