import Mathlib.Data.List.Basic
import Mathlib.Tactic.Common
import PrattFrontend.Text.Basic

/-!
# Offsets and lines

Looking up the line at an offset takes a text apart at that line. Nothing is lost by it: the line
and the column give the offset back, and they are in the order of the offsets.

* `Rows`, `rows_lines`: what the lines of a text look like;
* `LinePlace.StandsIn`: a line in a text, with what is before it and behind it, and its number;
* `exists_placeInLines?_of_lt`, `placeInLines?_of_le`, `placeInLines?_ordered`: the walk along a row
  of lines;
* `exists_lineAt?_of_lt`, `exists_lineAt?_of_le`: offsets in a text and behind it;
* `lineAt?_of_notMem`: a text of one line;
* **`lineAt?_cases`**: all of it.
-/

namespace PrattFrontend.Text

variable {cs : List Char} {line : List Char} {ls pre post : List (List Char)} {number offset : Nat}

/-! ## Rows of lines -/

/-- **A row of lines.** Each has one newline, which ends it, but for the last, which may have none
instead of that. No line is empty. -/
inductive Rows : List (List Char) → Prop
  | nil : Rows []
  | last {line : List Char} (hne : line ≠ []) (h : '\n' ∉ line) : Rows [line]
  | cons (body : List Char) {ls : List (List Char)} (h : '\n' ∉ body) (rest : Rows ls) :
      Rows ((body ++ ['\n']) :: ls)

theorem Rows.extend (h : Rows ls) (c : Char) : Rows (lines.extend c ls) := by
  by_cases hc : c = '\n'
  · -- a newline is a line of its own
    subst hc
    cases h with
    | nil => exact .cons [] (by simp) .nil
    | last hne hl => exact .cons [] (by simp) (.last hne hl)
    | cons body hb rest => exact .cons [] (by simp) (.cons body hb rest)
  · cases h with
    | nil => exact .last (by simp) (by simpa using Ne.symm hc)
    | last hne hl =>
      rw [lines.extend, if_neg hc]
      exact .last (by simp) (by simp [Ne.symm hc, hl])
    | cons body hb rest =>
      rw [lines.extend, if_neg hc]
      exact .cons (c :: body) (by simp [Ne.symm hc, hb]) rest

theorem rows_lines (cs : List Char) : Rows (lines cs) := by
  induction cs with
  | nil => exact .nil
  | cons c cs ih => exact ih.extend c

theorem lines_eq_nil_iff : lines cs = [] ↔ cs = [] := by
  constructor
  · intro h
    rw [← flatten_lines cs, h, List.flatten_nil]
  · rintro rfl
    rfl

/-! ## A line in a text -/

/-- A place **stands in** a text between what is before its line and what is behind it.

* The line starts where the text does or behind a newline.
* It is not empty, and has no newline but at its end. There it has one, unless the text ends with
  it.
* Its number is one more than the number of newlines before it. -/
structure LinePlace.StandsIn (place : LinePlace) (cs before behind : List Char) : Prop where
  text_eq : cs = before ++ place.text ++ behind
  start : before = [] ∨ before.getLast? = some '\n'
  ne_nil : place.text ≠ []
  inside : '\n' ∉ place.text.dropLast
  stop : behind = [] ∨ place.text.getLast? = some '\n'
  number_eq : place.number = before.count '\n' + 1

theorem Rows.exists_body (h : Rows (line :: ls)) (hls : ls ≠ []) :
    ∃ body, line = body ++ ['\n'] ∧ '\n' ∉ body := by
  cases h with
  | last => exact absurd rfl hls
  | cons body hb => exact ⟨body, rfl, hb⟩

theorem Rows.tail (h : Rows (line :: ls)) : Rows ls := by
  cases h with
  | last => exact .nil
  | cons _ _ rest => exact rest

theorem Rows.of_append (h : Rows (pre ++ ls)) : Rows ls := by
  induction pre with
  | nil => exact h
  | cons first pre ih => exact ih h.tail

theorem Rows.before (h : Rows (pre ++ line :: post)) :
    (pre.flatten = [] ∨ pre.flatten.getLast? = some '\n') ∧
      pre.flatten.count '\n' = pre.length := by
  induction pre with
  | nil => exact ⟨.inl rfl, rfl⟩
  | cons first pre ih =>
    obtain ⟨body, rfl, hbody⟩ := h.exists_body (by simp)
    obtain ⟨hlast, hcount⟩ := ih h.tail
    refine ⟨.inr ?_, ?_⟩
    · rw [List.flatten_cons, List.getLast?_append]
      rcases hlast with hnil | hlast
      · simp [hnil]
      · simp [hlast]
    · rw [List.flatten_cons, List.count_append, List.count_append, hcount,
        List.count_eq_zero_of_not_mem hbody, List.count_singleton_self, List.length_cons]
      omega

/-- **A line of a row stands in the text** that the row makes up. -/
theorem Rows.standsIn (h : Rows (pre ++ line :: post)) (column : Nat) :
    LinePlace.StandsIn ⟨1 + pre.length, line, column⟩ (pre ++ line :: post).flatten pre.flatten
      post.flatten := by
  obtain ⟨hstart, hcount⟩ := h.before
  have hline : line ≠ [] ∧ '\n' ∉ line.dropLast ∧
      (post.flatten = [] ∨ line.getLast? = some '\n') := by
    cases h.of_append with
    | last hne hl => exact ⟨hne, fun hmem => hl (List.dropLast_subset _ hmem), .inl rfl⟩
    | cons body hb rest => simp [hb]
  refine ⟨by simp, hstart, hline.1, hline.2.1, hline.2.2, ?_⟩
  rw [hcount, Nat.add_comm]

/-! ## Walking along a row of lines -/

theorem placeInLines?_cons (h : ls ≠ []) :
    placeInLines? number offset (line :: ls) =
      if offset < byteLength line then some ⟨number, line, offset⟩
      else placeInLines? (number + 1) (offset - byteLength line) ls := by
  cases ls with
  | nil => exact absurd rfl h
  | cons next rest => rfl

theorem placeInLines?_eq_none_iff : placeInLines? number offset ls = none ↔ ls = [] := by
  induction ls generalizing number offset with
  | nil => simp [placeInLines?]
  | cons line ls ih =>
    by_cases hls : ls = []
    · simp [hls, placeInLines?]
    · rw [placeInLines?_cons hls]
      split
      · simp
      · simp [ih, hls]

/-- **An offset that lies within the lines** lies in one of them. -/
theorem exists_placeInLines?_of_lt (number : Nat) (h : offset < byteLength ls.flatten) :
    ∃ pre line post column, ls = pre ++ line :: post ∧
      placeInLines? number offset ls = some ⟨number + pre.length, line, column⟩ ∧
      byteLength pre.flatten + column = offset ∧ column < byteLength line := by
  induction ls generalizing number offset with
  | nil => exact absurd h (Nat.not_lt_zero _)
  | cons line ls ih =>
    by_cases hlt : offset < byteLength line
    · refine ⟨[], line, ls, offset, rfl, ?_, Nat.zero_add _, hlt⟩
      by_cases hls : ls = []
      · simp [hls, placeInLines?, hlt]
      · rw [placeInLines?_cons hls, if_pos hlt]
        rfl
    · rw [List.flatten_cons, byteLength_append] at h
      have hls : ls ≠ [] := by
        rintro rfl
        exact hlt (by simpa using h)
      obtain ⟨pre, found, post, column, rfl, hplace, hoffset, hcolumn⟩ :=
        ih (number + 1) (show offset - byteLength line < byteLength ls.flatten by omega)
      refine ⟨line :: pre, found, post, column, rfl, ?_, ?_, hcolumn⟩
      · rw [placeInLines?_cons hls, if_neg hlt, hplace, List.length_cons, Nat.add_assoc,
          Nat.add_comm 1]
      · rw [List.flatten_cons, byteLength_append]
        omega

/-- **An offset behind all lines** falls behind what the last of them shows. -/
theorem placeInLines?_of_le (h : byteLength (pre ++ [line]).flatten ≤ offset) :
    placeInLines? number offset (pre ++ [line]) =
      some ⟨number + pre.length, line, byteLength (trimEnd line)⟩ := by
  induction pre generalizing number offset with
  | nil =>
    have hle : ¬offset < byteLength line := by simpa using h
    simp [placeInLines?, hle]
  | cons first pre ih =>
    rw [List.cons_append, List.flatten_cons, byteLength_append] at h
    rw [List.cons_append, placeInLines?_cons (by simp), if_neg (by omega), ih (by omega),
      List.length_cons, Nat.add_assoc, Nat.add_comm 1]

/-- A place comes **before** another if it is in an earlier line, or in the same line and further to
the left. -/
def LinePlace.Before (p q : LinePlace) : Prop :=
  p.number < q.number ∨ p.number = q.number ∧ p.column < q.column

/-- **Places are in the order of the offsets.** -/
theorem placeInLines?_ordered {i j : Nat} (hij : i < j) (hj : j < byteLength ls.flatten) :
    ∀ p ∈ placeInLines? number i ls, ∀ q ∈ placeInLines? number j ls, p.Before q := by
  induction ls generalizing number i j with
  | nil => exact absurd hj (Nat.not_lt_zero _)
  | cons line ls ih =>
    by_cases hls : ls = []
    · subst hls
      rw [List.flatten_cons, List.flatten_nil, List.append_nil] at hj
      have hi : i < byteLength line := Nat.lt_trans hij hj
      simp only [placeInLines?, if_pos hi, if_pos hj]
      rintro _ ⟨⟩ _ ⟨⟩
      exact .inr ⟨rfl, hij⟩
    · rw [List.flatten_cons, byteLength_append] at hj
      rw [placeInLines?_cons hls, placeInLines?_cons hls]
      by_cases hi : i < byteLength line
      · rw [if_pos hi]
        rintro _ ⟨⟩ q hq
        by_cases hj' : j < byteLength line
        · rw [if_pos hj'] at hq
          cases hq
          exact .inr ⟨rfl, hij⟩
        · -- the later offset is in a line behind this one
          rw [if_neg hj'] at hq
          obtain ⟨pre, found, post, column, -, hplace, -⟩ :=
            exists_placeInLines?_of_lt (number + 1)
              (show j - byteLength line < byteLength ls.flatten by omega)
          rw [hplace] at hq
          cases hq
          exact .inl (by simp only; omega)
      · rw [if_neg hi, if_neg (show ¬j < byteLength line by omega)]
        exact ih (by omega) (by omega)

/-! ## Offsets of a text -/

variable {text : String}

theorem lineAt?_eq_none_iff : lineAt? text offset = none ↔ text = "" := by
  rw [lineAt?, placeInLines?_eq_none_iff, lines_eq_nil_iff, String.toList_eq_nil_iff]

/-- **An offset in a text** is that of a column of one of its lines. -/
theorem exists_lineAt?_of_lt (h : offset < byteLength text.toList) :
    ∃ place before behind, lineAt? text offset = some place ∧
      place.StandsIn text.toList before behind ∧ byteLength before + place.column = offset ∧
      place.column < byteLength place.text := by
  rw [← flatten_lines text.toList] at h
  obtain ⟨pre, line, post, column, hls, hplace, hoffset, hcolumn⟩ :=
    exists_placeInLines?_of_lt 1 h
  have hrows := rows_lines text.toList
  rw [hls] at hrows
  have hstands := hrows.standsIn column
  rw [← hls, flatten_lines] at hstands
  exact ⟨_, pre.flatten, post.flatten, hplace, hstands, hoffset, hcolumn⟩

/-- **An offset behind a text** is that behind what its last line shows. -/
theorem exists_lineAt?_of_le (hne : text ≠ "") (h : byteLength text.toList ≤ offset) :
    ∃ place before, lineAt? text offset = some place ∧ place.StandsIn text.toList before [] ∧
      place.column = byteLength (trimEnd place.text) := by
  obtain ⟨pre, line, hls⟩ : ∃ pre line, lines text.toList = pre ++ [line] := by
    have hlines : lines text.toList ≠ [] := by
      rwa [ne_eq, lines_eq_nil_iff, String.toList_eq_nil_iff]
    exact ⟨_, _, (List.dropLast_append_getLast hlines).symm⟩
  have hrows := rows_lines text.toList
  rw [hls] at hrows
  have hstands := hrows.standsIn (byteLength (trimEnd line))
  rw [← hls, flatten_lines] at hstands
  rw [← flatten_lines text.toList, hls] at h
  refine ⟨_, pre.flatten, ?_, hstands, rfl⟩
  rw [lineAt?, hls, placeInLines?_of_le h]

/-- **Looking up the line at an offset**, in a text or behind it. -/
theorem lineAt?_cases (text : String) :
    (∀ offset, lineAt? text offset = none ↔ text = "") ∧
    (∀ offset < byteLength text.toList, ∃ place before behind,
      lineAt? text offset = some place ∧ place.StandsIn text.toList before behind ∧
        byteLength before + place.column = offset ∧ place.column < byteLength place.text) ∧
    (∀ i j, i < j → j < byteLength text.toList →
      ∀ p ∈ lineAt? text i, ∀ q ∈ lineAt? text j, p.Before q) ∧
    ∀ offset, byteLength text.toList ≤ offset → text ≠ "" → ∃ place before,
      lineAt? text offset = some place ∧ place.StandsIn text.toList before [] ∧
        place.column = byteLength (trimEnd place.text) := by
  refine ⟨fun offset => lineAt?_eq_none_iff, fun offset h => exists_lineAt?_of_lt h,
    fun i j hij hj => ?_, fun offset h hne => exists_lineAt?_of_le hne h⟩
  rw [← flatten_lines text.toList] at hj
  exact placeInLines?_ordered hij hj

end PrattFrontend.Text
