import PrattFrontend.Text.Characters

/-!
# Texts

A text is a list of characters, and a place in it is counted in the bytes of its UTF-8 form. A line
of a text ends with its newline, or with the text; a newline at the very end opens no further line.

* `byteLength`: the number of bytes of a text;
* **`dropBytes?`**: what is left of a text from a byte offset on, and `none` for an offset past the
  end or inside a character (`dropBytes?_eq_some_iff`);
* `decimalValue`, **`readInteger?`**: a run of digits as a number that fits into 64 bits with a sign;
* `lines`, `unlines`: the lines of a text, which together are the text (`flatten_lines`);
* `LinePlace`, **`lineAt?`**: the line at a byte offset.
-/

namespace PrattFrontend.Text

/-! ## Bytes -/

/-- The number of bytes of a text in UTF-8. -/
def byteLength : List Char → Nat
  | [] => 0
  | c :: cs => c.utf8Size + byteLength cs

@[simp] theorem byteLength_nil : byteLength [] = 0 := rfl

@[simp] theorem byteLength_cons (c : Char) (cs : List Char) :
    byteLength (c :: cs) = c.utf8Size + byteLength cs := rfl

@[simp] theorem byteLength_append (cs ds : List Char) :
    byteLength (cs ++ ds) = byteLength cs + byteLength ds := by
  induction cs with
  | nil => simp
  | cons c cs ih => rw [List.cons_append, byteLength_cons, byteLength_cons, ih, Nat.add_assoc]

theorem byteLength_replicate (n : Nat) (c : Char) :
    byteLength (List.replicate n c) = n * c.utf8Size := by
  induction n with
  | zero => simp
  | succ n ih => rw [List.replicate_succ, byteLength_cons, ih, Nat.succ_mul, Nat.add_comm]

theorem length_le_byteLength (cs : List Char) : cs.length ≤ byteLength cs := by
  induction cs with
  | nil => exact Nat.le_refl 0
  | cons c cs ih =>
    have := c.utf8Size_pos
    rw [List.length_cons, byteLength_cons]
    omega

theorem byteLength_eq_zero_iff {cs : List Char} : byteLength cs = 0 ↔ cs = [] := by
  cases cs with
  | nil => simp
  | cons c cs =>
    have := c.utf8Size_pos
    simp only [byteLength_cons, reduceCtorEq, iff_false]
    omega

/-- What is left of a text after its first `n` bytes, if they end where a character ends. -/
def dropBytes? : Nat → List Char → Option (List Char)
  | 0, cs => some cs
  | _ + 1, [] => none
  | n + 1, c :: cs => if c.utf8Size ≤ n + 1 then dropBytes? (n + 1 - c.utf8Size) cs else none

@[simp] theorem dropBytes?_zero (cs : List Char) : dropBytes? 0 cs = some cs := by
  simp [dropBytes?]

theorem dropBytes?_append (cs ds : List Char) :
    dropBytes? (byteLength cs) (cs ++ ds) = some ds := by
  induction cs with
  | nil => simp
  | cons c cs ih =>
    obtain ⟨n, hn⟩ : ∃ n, c.utf8Size + byteLength cs = n + 1 :=
      ⟨c.utf8Size + byteLength cs - 1, by have := c.utf8Size_pos; omega⟩
    rw [byteLength_cons, List.cons_append, hn, dropBytes?, if_pos (by omega), ← ih]
    congr 1
    omega

theorem exists_of_dropBytes?_eq_some {n : Nat} {cs ds : List Char} (h : dropBytes? n cs = some ds) :
    ∃ before, cs = before ++ ds ∧ byteLength before = n := by
  fun_induction dropBytes? n cs with
  | case1 cs => exact ⟨[], by simpa using h⟩
  | case2 => simp at h
  | case3 n c cs hc ih =>
    obtain ⟨before, rfl, hb⟩ := ih h
    exact ⟨c :: before, rfl, by rw [byteLength_cons]; omega⟩
  | case4 => simp at h

/-- An offset leaves what is behind that many bytes. -/
theorem dropBytes?_eq_some_iff {n : Nat} {cs ds : List Char} :
    dropBytes? n cs = some ds ↔ ∃ before, cs = before ++ ds ∧ byteLength before = n :=
  ⟨exists_of_dropBytes?_eq_some, fun ⟨before, h, hn⟩ => h ▸ hn ▸ dropBytes?_append before ds⟩

/-- Inside a character of two bytes there is no place to read on from. -/
example : dropBytes? 3 ['é', 'a', 'b'] = some ['b'] ∧ dropBytes? 1 ['é', 'a', 'b'] = none := by
  decide

/-! ## Decimal numbers -/

/-- The number that a row of decimal digits stands for. -/
def decimalValue (digits : List Char) : Nat :=
  digits.foldl (fun n c => 10 * n + (c.toNat - '0'.toNat)) 0

@[simp] theorem decimalValue_nil : decimalValue [] = 0 := rfl

/-- The least number too large for 64 bits with a sign. -/
def integerBound : Nat := Nat.pow 2 63

/-- Reads one or more digits, with zeros in front or without, as a number below the bound. -/
def readInteger? (literal : String) : Option Int :=
  let digits := literal.toList
  if digits ≠ [] ∧ digits.all Char.isDigit = true ∧ decimalValue digits < integerBound then
    some (decimalValue digits)
  else none

theorem readInteger?_eq_some_iff {literal : String} {value : Int} :
    readInteger? literal = some value ↔
      literal.toList ≠ [] ∧ (∀ c ∈ literal.toList, c.isDigit = true) ∧
        decimalValue literal.toList < integerBound ∧ value = decimalValue literal.toList := by
  simp only [readInteger?, List.all_eq_true]
  split
  · next h =>
    rw [Option.some.injEq]
    exact ⟨fun hv => ⟨h.1, h.2.1, h.2.2, hv.symm⟩, fun hv => hv.2.2.2.symm⟩
  · next h =>
    simp only [reduceCtorEq, false_iff]
    rintro ⟨h₁, h₂, h₃, -⟩
    exact h ⟨h₁, h₂, h₃⟩

/-- The bound itself is refused, and the number before it is read. -/
example : readInteger? "9223372036854775808" = none ∧
    readInteger? "009223372036854775807" = some 9223372036854775807 := by decide

/-! ## Lines -/

/-- The lines of a text, each with the newline that ends it. -/
def lines (cs : List Char) : List (List Char) :=
  cs.foldr extend []
where
  /-- Puts a character before the first line, or, if it is a newline, makes it a line of its own. -/
  extend (c : Char) : List (List Char) → List (List Char)
    | [] => [[c]]
    | line :: rest => if c = '\n' then [c] :: line :: rest else (c :: line) :: rest

@[simp] theorem lines_nil : lines [] = [] := rfl

theorem lines_cons (c : Char) (cs : List Char) : lines (c :: cs) = lines.extend c (lines cs) := rfl

@[simp] theorem flatten_extend (c : Char) (ls : List (List Char)) :
    (lines.extend c ls).flatten = c :: ls.flatten := by
  cases ls with
  | nil => rfl
  | cons line rest => by_cases h : c = '\n' <;> simp [lines.extend, h]

@[simp] theorem flatten_lines (cs : List Char) : (lines cs).flatten = cs := by
  induction cs with
  | nil => rfl
  | cons c cs ih => rw [lines_cons, flatten_extend, ih]

/-- The text of some lines, each with a newline behind it. -/
def unlines (ls : List String) : String :=
  String.join (ls.map (· ++ "\n"))

theorem unlines_append (as bs : List String) : unlines (as ++ bs) = unlines as ++ unlines bs := by
  rw [unlines, List.map_append, String.join_append]
  rfl

/-- A place of a text: the number of a line, counted from one, the line itself, and an offset in
bytes from its start. -/
structure LinePlace where
  number : Nat
  text : List Char
  column : Nat
deriving DecidableEq, Repr

/-- The place at a byte offset in a list of lines of which the first has the given number. An offset
past the last line falls behind that line's last character that is not white space. -/
def placeInLines? (number offset : Nat) : List (List Char) → Option LinePlace
  | [] => none
  | [line] =>
    some ⟨number, line, if offset < byteLength line then offset else byteLength (trimEnd line)⟩
  | line :: next :: rest =>
    if offset < byteLength line then some ⟨number, line, offset⟩
    else placeInLines? (number + 1) (offset - byteLength line) (next :: rest)

/-- The place at a byte offset of a text, which is `none` only for the empty text. -/
def lineAt? (text : String) (offset : Nat) : Option LinePlace :=
  placeInLines? 1 offset (lines text.toList)

example : lineAt? "ab\n cd\n" 5 = some ⟨2, [' ', 'c', 'd', '\n'], 2⟩ := by decide

example : lineAt? "ab\n cd\n" 99 = some ⟨2, [' ', 'c', 'd', '\n'], 3⟩ := by decide

end PrattFrontend.Text
