import PrattFrontend.Proofs.Token.Munch

/-!
# What a text prescribes

Which texts are tokens, of which kind, and with which characters behind them they would be longer,
is said here by classes of characters and tables, without reading anything.

* `Letter`, `Digit`, `blanks`: the classes of characters, by their ranges;
* `marks`: the operators and the punctuation;
* **`Prescribes`**: the kind that a text has as a token;
* `Lexeme.Continues`: a character that would make a token longer;
* `prescribes_iff`, `Lexeme.Proper.goesOn_iff`: lexemes are read by these rules;
* `Lexeme.Proper.text_of_mark`: what operators and punctuation have to be.
-/

namespace PrattFrontend.Token

variable {c d : Char} {cs : List Char} {k : Kind} {l : Lexeme}

/-! ## Classes of characters -/

/-- A letter from `a` to `z` or from `A` to `Z`, or an underscore. -/
def Letter (c : Char) : Prop :=
  'a' ≤ c ∧ c ≤ 'z' ∨ 'A' ≤ c ∧ c ≤ 'Z' ∨ c = '_'

/-- A digit from `0` to `9`. -/
def Digit (c : Char) : Prop :=
  '0' ≤ c ∧ c ≤ '9'

instance : DecidablePred Letter := fun c =>
  inferInstanceAs (Decidable ('a' ≤ c ∧ c ≤ 'z' ∨ 'A' ≤ c ∧ c ≤ 'Z' ∨ c = '_'))

instance : DecidablePred Digit := fun c => inferInstanceAs (Decidable ('0' ≤ c ∧ c ≤ '9'))

/-- The characters that stand between tokens. -/
def blanks : List Char :=
  [' ', '\t', '\n', '\r']

theorem isWordStart_iff : isWordStart c ↔ Letter c := by
  have halpha : c.isAlpha = (decide (c.val ≥ 'A'.val ∧ c.val ≤ 'Z'.val) ||
      (decide (c.val ≥ 'a'.val) && decide (c.val ≤ 'z'.val))) := rfl
  simp only [isWordStart, halpha, Letter, Bool.or_eq_true, Bool.and_eq_true, decide_eq_true_eq,
    Char.le_def, ge_iff_le]
  tauto

theorem isDigit_iff : c.isDigit ↔ Digit c := by
  simp only [Char.isDigit, Digit, Bool.and_eq_true, decide_eq_true_eq, Char.le_def, ge_iff_le]

theorem isWordPart_iff : isWordPart c ↔ Letter c ∨ Digit c := by
  rw [← isWordStart_iff, ← isDigit_iff]
  simp only [isWordPart, isWordStart, Char.isAlphanum, Bool.or_eq_true, decide_eq_true_eq]
  tauto

theorem isBlank_iff : isBlank c ↔ c ∈ blanks := by
  simp only [isBlank, Char.isWhitespace, blanks, Bool.or_eq_true, decide_eq_true_eq,
    List.mem_cons, List.not_mem_nil, or_false]
  tauto

/-! ## Kinds of texts -/

/-- A word: a letter or an underscore, and behind it letters, digits and underscores. -/
def IsWord (cs : List Char) : Prop :=
  ∃ c ds, cs = c :: ds ∧ Letter c ∧ ∀ d ∈ ds, Letter d ∨ Digit d

/-- The operators and the punctuation marks, with their kinds. -/
def marks : List (String × Kind) :=
  [("=", .assign), ("+", .plus), ("-", .minus), ("*", .asterisk), ("/", .slash), (",", .comma),
    (";", .semicolon), ("(", .leftParen), (")", .rightParen), ("\x7b", .leftBrace),
    ("\x7d", .rightBrace), ("==", .equal), ("!=", .notEqual), (">", .greaterThan),
    ("<", .lessThan), ("!", .bang)]

/-- **The kind that a text prescribes.** -/
inductive Prescribes : List Char → Kind → Prop
  | reserved {word : String} {k : Kind} (h : (word, k) ∈ reservedWords) : Prescribes word.toList k
  | identifier {cs : List Char} (h : IsWord cs)
      (hfree : ∀ k, (String.ofList cs, k) ∉ reservedWords) : Prescribes cs .identifier
  | integer {cs : List Char} (hne : cs ≠ []) (h : ∀ c ∈ cs, Digit c) : Prescribes cs .integer
  | mark {text : String} {k : Kind} (h : (text, k) ∈ marks) : Prescribes text.toList k
  | illegal {c : Char} (hblank : c ∉ blanks) (hletter : ¬Letter c) (hdigit : ¬Digit c)
      (hmark : ∀ k, (String.ofList [c], k) ∉ marks) : Prescribes [c] .illegal

theorem Prescribes.kind_ne (h : Prescribes cs k) : k ≠ .endOfInput := by
  have hwords : ∀ r ∈ reservedWords, r.2 ≠ .endOfInput := by decide
  have hmarks : ∀ r ∈ marks, r.2 ≠ .endOfInput := by decide
  cases h with
  | reserved h => exact hwords _ h
  | identifier => decide
  | integer => decide
  | mark h => exact hmarks _ h
  | illegal => decide

theorem Kind.ofWord_of_mem {word : String} (h : (word, k) ∈ reservedWords) : ofWord word = k := by
  have hall : ∀ r ∈ reservedWords, ofWord r.1 = r.2 := by decide
  exact hall _ h

theorem Kind.ofWord_of_free {word : String} (h : ∀ k, (word, k) ∉ reservedWords) :
    ofWord word = .identifier :=
  (ofWord_cases word).resolve_right (h _)

/-- The characters that are marks by themselves. -/
def markCharacters : List Char :=
  ['=', '!', '+', '-', '*', '/', '<', '>', '(', ')', '\x7b', '\x7d', ',', ';']

theorem Kind.mem_marks_or_ofSymbol (c : Char) :
    (String.ofList [c], ofSymbol c) ∈ marks ∨
      ofSymbol c = .illegal ∧ ∀ k, (String.ofList [c], k) ∉ marks := by
  by_cases hc : c ∈ markCharacters
  · have hall : markCharacters.all fun c => (String.ofList [c], ofSymbol c) ∈ marks := by decide
    exact .inl (of_decide_eq_true (List.all_eq_true.mp hall c hc))
  · refine .inr ⟨?_, fun k hk => hc ?_⟩
    · simp only [markCharacters, List.mem_cons, List.not_mem_nil, or_false, not_or] at hc
      unfold ofSymbol
      split <;> simp_all
    · have hall : ∀ r ∈ marks, ∀ a, r.1.toList = [a] → a ∈ markCharacters := by
        simp [marks, markCharacters]
      exact hall _ hk c String.toList_ofList

/-- **The lexemes of a text are those whose text prescribes their kind.** -/
theorem prescribes_iff : Prescribes l.text l.kind ↔ l.Proper := by
  obtain ⟨k, cs⟩ := l
  constructor
  · have hwords : ∀ r ∈ reservedWords, (Lexeme.mk r.2 r.1.toList).Proper := by decide
    have hmarks : ∀ r ∈ marks, (Lexeme.mk r.2 r.1.toList).Proper := by decide
    intro h
    cases h with
    | reserved h => exact hwords _ h
    | identifier h hfree =>
      obtain ⟨c, ds, rfl, hc, hds⟩ := h
      rw [← Kind.ofWord_of_free hfree]
      exact .word (isWordStart_iff.mpr hc) fun d hd => isWordPart_iff.mpr (hds d hd)
    | integer hne h =>
      obtain ⟨c, ds, rfl⟩ := List.exists_cons_of_ne_nil hne
      obtain ⟨hc, hds⟩ := List.forall_mem_cons.mp h
      exact .number (isDigit_iff.mpr hc) fun d hd => isDigit_iff.mpr (hds d hd)
    | mark h => exact hmarks _ h
    | @illegal c hblank hletter hdigit hmark =>
      rw [← ((Kind.mem_marks_or_ofSymbol c).resolve_left (hmark _)).1]
      rw [← isBlank_iff, Bool.not_eq_true] at hblank
      rw [← isWordStart_iff, Bool.not_eq_true] at hletter
      rw [← isDigit_iff, Bool.not_eq_true] at hdigit
      exact .symbol hblank hletter hdigit
  · intro h
    cases h with
    | @word c cs hc hcs =>
      have hword : IsWord (c :: cs) :=
        ⟨c, cs, rfl, isWordStart_iff.mp hc, fun d hd => isWordPart_iff.mp (hcs d hd)⟩
      by_cases hfree : ∀ k, (String.ofList (c :: cs), k) ∉ reservedWords
      · rw [Kind.ofWord_of_free hfree]
        exact .identifier hword hfree
      · push Not at hfree
        obtain ⟨k, hk⟩ := hfree
        have h := Prescribes.reserved hk
        rwa [String.toList_ofList, ← Kind.ofWord_of_mem hk] at h
    | number hc hcs =>
      exact .integer (by simp) (List.forall_mem_cons.mpr
        ⟨isDigit_iff.mp hc, fun d hd => isDigit_iff.mp (hcs d hd)⟩)
    | @symbol c hb hw hd =>
      rcases Kind.mem_marks_or_ofSymbol c with hmark | ⟨hk, hmark⟩
      · have h := Prescribes.mark hmark
        rwa [String.toList_ofList] at h
      · rw [← Bool.not_eq_true, isBlank_iff] at hb
        rw [← Bool.not_eq_true, isWordStart_iff] at hw
        rw [← Bool.not_eq_true, isDigit_iff] at hd
        simp only [hk]
        exact .illegal hb hw hd hmark
    | symbols h =>
      obtain ⟨rfl, ⟨rfl, rfl⟩ | ⟨rfl, rfl⟩⟩ := Kind.ofSymbols?_eq_some_iff.mp h
      · have h : ("==", Kind.equal) ∈ marks := by decide
        exact .mark h
      · have h : ("!=", Kind.notEqual) ∈ marks := by decide
        exact .mark h

theorem Lexeme.Proper.text_of_mark {text : String} (h : l.Proper) (hmem : (text, k) ∈ marks)
    (hk : l.kind = k) : l.text = text.toList := by
  have hall : ∀ m ∈ marks, m.2 ≠ .identifier ∧ m.2 ≠ .integer ∧ m.2 ≠ .illegal ∧
      (∀ r ∈ reservedWords, r.2 ≠ m.2) ∧ ∀ m' ∈ marks, m'.2 = m.2 → m'.1 = m.1 := by
    decide
  obtain ⟨hident, hint, hill, hword, huniq⟩ := hall _ hmem
  obtain ⟨k', cs⟩ := l
  obtain rfl : k' = k := hk
  cases prescribes_iff.mpr h with
  | reserved hw => exact (hword _ hw rfl).elim
  | identifier => exact absurd rfl hident
  | integer => exact absurd rfl hint
  | mark hm => exact congrArg String.toList (huniq _ hm rfl)
  | illegal => exact absurd rfl hill

/-! ## Longer tokens -/

/-- A character **continues** a token if the token would be longer with it: a word goes on with
letters, digits and underscores, a number with digits, and two marks with an equals sign. -/
def Lexeme.Continues (l : Lexeme) (d : Char) : Prop :=
  IsWord l.text ∧ (Letter d ∨ Digit d) ∨ l.kind = .integer ∧ Digit d ∨
    (l.kind = .assign ∨ l.kind = .bang) ∧ d = '='

theorem Kind.ofSymbol_eq_assign_or_bang_iff :
    ofSymbol c = .assign ∨ ofSymbol c = .bang ↔ c = '=' ∨ c = '!' := by
  constructor
  · unfold ofSymbol
    split <;> simp
  · rintro (rfl | rfl) <;> decide

theorem Kind.isSome_ofSymbols?_iff : (ofSymbols? c d).isSome ↔ (c = '=' ∨ c = '!') ∧ d = '=' := by
  rw [Option.isSome_iff_exists]
  constructor
  · rintro ⟨k, h⟩
    obtain ⟨hd, ⟨hc, -⟩ | ⟨hc, -⟩⟩ := ofSymbols?_eq_some_iff.mp h
    · exact ⟨.inl hc, hd⟩
    · exact ⟨.inr hc, hd⟩
  · rintro ⟨rfl | rfl, rfl⟩
    · exact ⟨.equal, rfl⟩
    · exact ⟨.notEqual, rfl⟩

theorem not_isWord_of_not_letter (h : ¬Letter c) : ¬IsWord (c :: cs) := by
  rintro ⟨_, _, heq, hc, -⟩
  cases heq
  exact h hc

/-- **A lexeme goes on with the characters that continue it.** -/
theorem Lexeme.Proper.goesOn_iff (h : l.Proper) : l.goesOn d ↔ l.Continues d := by
  have hall : ∀ r ∈ reservedWords, r.2 ≠ .assign ∧ r.2 ≠ .bang := by decide
  cases h with
  | @word c cs hc hcs =>
    have hword : IsWord (c :: cs) :=
      ⟨c, cs, rfl, isWordStart_iff.mp hc, fun d hd => isWordPart_iff.mp (hcs d hd)⟩
    have hcases := Kind.ofWord_cases (String.ofList (c :: cs))
    have hint := (Kind.ofWord_ne (String.ofList (c :: cs))).2
    generalize Kind.ofWord (String.ofList (c :: cs)) = k at hcases hint ⊢
    have hmark : k ≠ .assign ∧ k ≠ .bang := by
      rcases hcases with rfl | h
      · decide
      · exact hall _ h
    simp [goesOn, Continues, hc, hword, hmark, isWordPart_iff, hint]
  | @number c cs hc hcs =>
    have hw := isWordStart_eq_false_of_isDigit hc
    have hword : ¬IsWord (c :: cs) := not_isWord_of_not_letter (by simp [← isWordStart_iff, hw])
    simp [goesOn, Continues, hc, hw, hword, isDigit_iff]
  | @symbol c hb hw hd =>
    have hword : ¬IsWord [c] := not_isWord_of_not_letter (by simp [← isWordStart_iff, hw])
    simp [goesOn, Continues, hw, hd, hword, (Kind.ofSymbol_ne c).2, Kind.isSome_ofSymbols?_iff,
      Kind.ofSymbol_eq_assign_or_bang_iff]
  | symbols h =>
    obtain ⟨rfl, ⟨rfl, rfl⟩ | ⟨rfl, rfl⟩⟩ := Kind.ofSymbols?_eq_some_iff.mp h
    · have hword : ¬IsWord ['=', '='] := not_isWord_of_not_letter (by decide)
      simp [goesOn, Continues, hword, isWordStart]
    · have hword : ¬IsWord ['!', '='] := not_isWord_of_not_letter (by decide)
      simp [goesOn, Continues, hword, isWordStart]

end PrattFrontend.Token
