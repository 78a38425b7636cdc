import Mathlib.Data.List.DropRight
import PrattFrontend.Proofs.Text.Lines
import PrattFrontend.Token.Lexeme

/-!
# Texts that can be shown as they are

* `isWhiteSpace_head_trim`, `isWhiteSpace_getLast_trim`, `trimEnd_append_of_mem`: trimming;
* **`Showable`**: texts of printable characters, with line ends of either form;
* `Showable.byteLength_eq`, `Showable.isWhiteSpace_eq`: their bytes and their white space;
* **`Showable.exists_lineAt?`**: the line and the column of a character.
-/

namespace PrattFrontend.Text

open Token (isBlank)

variable {cs ds : List Char}

/-! ## Trimming -/

theorem trimEnd_eq_nil_iff : trimEnd cs = [] ↔ ∀ c ∈ cs, isWhiteSpace c = true :=
  List.rdropWhile_eq_nil_iff

theorem trim_eq_nil (h : ∀ c ∈ cs, isWhiteSpace c = true) : trim cs = [] := by
  rw [trim, trimStart, List.dropWhile_eq_nil_iff.mpr h]
  rfl

theorem isWhiteSpace_head_trim : ∀ c ∈ (trim cs).head?, isWhiteSpace c = false := by
  intro c hc
  obtain ⟨cut, hcut, -⟩ := exists_eq_trimEnd_append (trimStart cs)
  have hhead : (trimStart cs).head? = some c := by
    rw [hcut, List.head?_append]
    exact Option.or_eq_some_iff.mpr (.inl hc)
  have hnot := List.head?_dropWhile_not isWhiteSpace cs
  rw [← trimStart, hhead] at hnot
  simpa using hnot

theorem isWhiteSpace_getLast_trim : ∀ c ∈ (trim cs).getLast?, isWhiteSpace c = false := by
  intro c hc
  obtain ⟨hne, rfl⟩ := List.mem_getLast?_eq_getLast hc
  exact Bool.eq_false_iff.mpr (List.rdropWhile_last_not isWhiteSpace (trimStart cs) hne)

theorem trimEnd_append_of_mem {c : Char} (hc : c ∈ ds) (h : isWhiteSpace c = false) :
    trimEnd (cs ++ ds) = cs ++ trimEnd ds := by
  have hne : ds.reverse.dropWhile isWhiteSpace ≠ [] := by
    intro hnil
    rw [List.dropWhile_eq_nil_iff.mp hnil c (List.mem_reverse.mpr hc)] at h
    cases h
  rw [trimEnd, List.reverse_append, List.dropWhile_append, if_neg (by simpa using hne),
    List.reverse_append, List.reverse_reverse]
  rfl

/-! ## Showable texts -/

/-- A text is **showable** if it is made of printable ASCII characters, spaces, tabs and newlines,
and of carriage returns that stand right before a newline. -/
def Showable : List Char → Prop
  | [] => True
  | c :: cs =>
    (' ' ≤ c ∧ c ≤ '~' ∨ c = '\t' ∨ c = '\n' ∨ c = '\r' ∧ cs.head? = some '\n') ∧ Showable cs

instance decidableShowable : (cs : List Char) → Decidable (Showable cs)
  | [] => .isTrue trivial
  | _ :: cs => have := decidableShowable cs; inferInstanceAs (Decidable (_ ∧ _))

theorem Showable.of_append_right (h : Showable (cs ++ ds)) : Showable ds := by
  induction cs with
  | nil => exact h
  | cons c cs ih => exact ih h.2

theorem Showable.of_append_left (h : Showable (cs ++ ds))
    (hcut : ds = [] ∨ cs.getLast? = some '\n') : Showable cs := by
  induction cs with
  | nil => exact trivial
  | cons c cs ih =>
    cases cs with
    | nil =>
      rcases hcut with rfl | hlast
      · exact h
      · obtain rfl : c = '\n' := Option.some.inj hlast
        exact ⟨by simp, trivial⟩
    | cons d cs =>
      rw [List.getLast?_cons_cons] at hcut
      exact ⟨h.1, ih h.2 hcut⟩

theorem Showable.cases_of_mem (h : Showable cs) {c : Char} (hc : c ∈ cs) :
    ' ' ≤ c ∧ c ≤ '~' ∨ c = '\t' ∨ c = '\n' ∨ c = '\r' := by
  induction cs with
  | nil => cases hc
  | cons d cs ih =>
    rcases List.mem_cons.mp hc with rfl | hc
    · rcases h.1 with h | h | h | h
      · exact .inl h
      · exact .inr (.inl h)
      · exact .inr (.inr (.inl h))
      · exact .inr (.inr (.inr h.1))
    · exact ih h.2 hc

theorem Showable.utf8Size_eq (h : Showable cs) : ∀ c ∈ cs, c.utf8Size = 1 := by
  intro c hc
  rcases h.cases_of_mem hc with ⟨-, hle⟩ | rfl | rfl | rfl
  · exact Char.utf8Size_eq_one_iff.mpr (UInt32.le_trans hle (by decide))
  all_goals rfl

theorem Showable.byteLength_eq (h : Showable cs) (hsub : ds ⊆ cs) : byteLength ds = ds.length := by
  induction ds with
  | nil => rfl
  | cons d ds ih =>
    obtain ⟨hd, hds⟩ := List.cons_subset.mp hsub
    rw [byteLength_cons, h.utf8Size_eq d hd, ih hds, List.length_cons, Nat.add_comm]

theorem Showable.isWhiteSpace_eq (h : Showable cs) {c : Char} (hc : c ∈ cs) :
    isWhiteSpace c = isBlank c := by
  rcases h.cases_of_mem hc with ⟨hge, hle⟩ | rfl | rfl | rfl
  · refine Bool.eq_iff_iff.mpr ⟨fun hwhite => ?_, isWhiteSpace_of_isWhitespace⟩
    -- a space is the only white space among the printable characters
    obtain ⟨range, hrange, hlow, hhigh⟩ := CharSet.contains_iff.mp hwhite
    have hge : 32 ≤ c.toNat := hge
    have hle : c.toNat ≤ 126 := hle
    simp only [whiteSpace, List.mem_cons, List.not_mem_nil, or_false] at hrange
    have hspace : c.toNat = 32 := by
      rcases hrange with rfl | rfl | rfl | rfl | rfl | rfl | rfl | rfl | rfl | rfl <;>
        simp only at hlow hhigh <;> omega
    obtain rfl : c = ' ' := Char.toNat_inj.mp hspace
    rfl
  all_goals decide

/-! ## Places -/

theorem LinePlace.StandsIn.showable {place : LinePlace} {before behind : List Char}
    (h : place.StandsIn cs before behind) (hs : Showable cs) : Showable place.text := by
  rw [h.text_eq, List.append_assoc] at hs
  exact hs.of_append_right.of_append_left h.stop

/-- **A place that is told by the characters before it.** -/
theorem LinePlace.StandsIn.at_length {place : LinePlace} {before behind front rest : List Char}
    (h : place.StandsIn cs before behind) (hcs : cs = front ++ rest) {column : Nat}
    (hfront : front.length = before.length + column) (hlt : column < place.text.length) :
    place.number = front.count '\n' + 1 ∧ place.text[column]? = rest.head? := by
  have hsplit : front ++ rest =
      (before ++ place.text.take column) ++ (place.text.drop column ++ behind) := by
    rw [List.append_assoc, ← List.append_assoc (place.text.take column), List.take_append_drop,
      ← List.append_assoc, ← h.text_eq, hcs]
  obtain ⟨rfl, rfl⟩ := List.append_inj hsplit (by simp [hfront, Nat.le_of_lt hlt])
  have hinside : '\n' ∉ place.text.take column := by
    intro hmem
    refine h.inside ?_
    rw [List.dropLast_eq_take]
    exact (List.take_prefix_take_left (Nat.le_sub_one_of_lt hlt)).subset hmem
  constructor
  · rw [h.number_eq, List.count_append, List.count_eq_zero_of_not_mem hinside, Nat.add_zero]
  · rw [List.head?_append, List.head?_drop, List.getElem?_eq_getElem hlt, Option.some_or]

/-- **The place of a character** of a showable text. -/
theorem Showable.exists_lineAt? {text : String} (hs : Showable text.toList) {front rest : List Char}
    {c : Char} (htext : text.toList = front ++ c :: rest) : ∃ place before behind,
      lineAt? text (byteLength front) = some place ∧ place.StandsIn text.toList before behind ∧
        place.number = front.count '\n' + 1 ∧ place.text[place.column]? = some c := by
  have hlt : byteLength front < byteLength text.toList := by
    have := c.utf8Size_pos
    rw [htext, byteLength_append, byteLength_cons]
    omega
  obtain ⟨place, before, behind, hplace, hstands, hoffset, hcolumn⟩ := exists_lineAt?_of_lt hlt
  have hfront : byteLength front = front.length :=
    hs.byteLength_eq (htext ▸ List.subset_append_left front _)
  have hbefore : byteLength before = before.length :=
    hs.byteLength_eq fun d hd => by simp [hstands.text_eq, hd]
  rw [(hstands.showable hs).byteLength_eq (List.Subset.refl _)] at hcolumn
  rw [hfront, hbefore] at hoffset
  exact ⟨place, before, behind, hplace, hstands, hstands.at_length htext hoffset.symm hcolumn⟩

end PrattFrontend.Text
