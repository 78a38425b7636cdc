import Mathlib.Data.List.TakeWhile
import Mathlib.Data.Nat.Digits.Defs
import PrattFrontend.Proofs.Text.Lines
import PrattFrontend.Report

/-!
# How far reports are printed

Lines are printed one after another, up to the first that is too wide. In a report that can only be
the line with the caret, unless the number of the line has more digits than any file has.

* `print_append_of_fits`, `print_append_of_not_fits`: rows of lines one behind another;
* `print_lines_of_fits`, **`fits_iff`**: reports that are printed whole;
* `print_lines_of_lt`: what is printed of a report that is not;
* `fits_of_column_lt`: reports on places that are not too far to the right.
-/

namespace PrattFrontend.Report

open Text (byteLength lineAt? unlines)

variable {ls ms : List Line} {e : ParseError} {text : String} {place : Text.LinePlace}

/-! ## Rows of lines -/

theorem print_append_of_fits (h : ls.all Line.fits = true) :
    print (ls ++ ms) = ⟨unlines (ls.map Line.text) ++ (print ms).text, (print ms).whole⟩ := by
  simp only [print, List.takeWhile_append_of_pos (List.all_eq_true.mp h), List.map_append,
    Text.unlines_append, List.all_append, h, Bool.true_and]

theorem print_of_fits (h : ls.all Line.fits = true) :
    print ls = ⟨unlines (ls.map Line.text), true⟩ := by
  rw [← List.append_nil ls, print_append_of_fits h, List.append_nil]
  exact congrArg (Printed.mk · true) (String.append_empty)

theorem print_lines_of_fits (h : Fits e text) : print (lines e text) = ⟨render e text, true⟩ :=
  print_of_fits h

/-- **A report is printed whole** if nothing in it is too far to the right. -/
theorem fits_iff : Fits e text ↔ ∀ place ∈ lineAt? text e.position.offset,
    barWidth place.number ≤ maxWidth ∧ caretColumn place < maxWidth := by
  rw [Fits, lines]
  cases lineAt? text e.position.offset with
  | none => simp [Line.fits]
  | some place =>
    simp only [Option.map_some, Option.getD_some, excerpt, List.all_append, List.all_cons,
      List.all_nil, Line.fits, Bool.and_eq_true, decide_eq_true_eq, Option.mem_some_iff,
      forall_eq', Nat.zero_le, Nat.max_le, true_and, and_true, and_self_left]
    rfl

theorem barWidth_le {number digits : Nat} (hpos : 0 < digits) (h : number < 10 ^ digits) :
    barWidth number ≤ digits + 2 := by
  have hlen := Nat.toDigits_length 10 number digits hpos h
  have hdigits : (toString number).length = (Nat.toDigits 10 number).length := by
    rw [← String.length_toList]
    simp
  rw [barWidth, hdigits]
  omega

theorem number_le {offset : Nat} (h : lineAt? text offset = some place) :
    place.number ≤ text.toList.length := by
  have hne : text ≠ "" := by
    rintro rfl
    cases h
  obtain ⟨before, behind, hstands⟩ : ∃ before behind,
      place.StandsIn text.toList before behind := by
    rcases Nat.lt_or_ge offset (byteLength text.toList) with hlt | hge
    · obtain ⟨found, before, behind, hfound, hstands, -⟩ := Text.exists_lineAt?_of_lt hlt
      obtain rfl : found = place := Option.some.inj (hfound.symm.trans h)
      exact ⟨before, behind, hstands⟩
    · obtain ⟨found, before, hfound, hstands, -⟩ := Text.exists_lineAt?_of_le hne hge
      obtain rfl : found = place := Option.some.inj (hfound.symm.trans h)
      exact ⟨before, [], hstands⟩
  have hcount : before.count '\n' ≤ before.length := List.count_le_length
  have hpos := List.length_pos_iff.mpr hstands.ne_nil
  rw [hstands.number_eq, hstands.text_eq, List.length_append, List.length_append]
  omega

/-- **A report fits** if its place is in one of the first 60,000 columns. -/
theorem fits_of_column_lt (hlen : byteLength text.toList ≤ Position.maxOffset)
    (hcolumn : ∀ place ∈ lineAt? text e.position.offset, place.column < 60000) : Fits e text := by
  refine fits_iff.mpr fun place hplace => ?_
  have hnumber : place.number ≤ 4294967295 :=
    (number_le hplace).trans ((Text.length_le_byteLength _).trans hlen)
  have hbar : barWidth place.number ≤ 10 + 2 :=
    barWidth_le (by decide) (hnumber.trans_lt (by decide))
  have hcaret : caretColumn place ≤ place.column := Nat.sub_le _ _
  have hplace := hcolumn place hplace
  exact ⟨hbar.trans (by decide), hcaret.trans_lt (hplace.trans (by decide))⟩

end PrattFrontend.Report
