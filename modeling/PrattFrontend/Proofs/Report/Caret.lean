import PrattFrontend.Proofs.Report.Printing
import PrattFrontend.Proofs.Statement.ErrorPlaces
import PrattFrontend.Proofs.Text.Showable

/-!
# The caret of a report

If a text can be shown as it is, the report on an error of its parse has the caret below the first
character of the token that the error is about.

* `trimEnd_eq_append_shown`: a line without the white space at its end is its indentation and what
  is shown of it;
* `StripsTo`, `stripsTo_shown`: what is shown is the line without the blanks at its ends;
* `length_shown`, `getElem?_shown`: so the caret is behind what is shown or below one of its
  characters;
* `PointsAt`, `pointsAt_render`: the lines of a report, their bars and the caret;
* `PointsTo`: what a report says of a token;
* **`caret_under_token`**: errors of a parse.
-/

namespace PrattFrontend.Report

open Text (Showable byteLength isWhiteSpace trim trimEnd trimStart)
open Token (isBlank)

variable {line : List Char}

/-! ## What is shown of a line -/

theorem isBlank_of_mem_indentation : ∀ c ∈ indentation line, isBlank c := by
  intro c hc
  have := List.mem_takeWhile_imp hc
  simp only [Bool.or_eq_true, decide_eq_true_eq] at this
  rcases this with rfl | rfl <;> rfl

theorem exists_eq_indentation_append (line : List Char) : ∃ rest,
    line = indentation line ++ rest ∧ (∀ c ∈ rest.head?, c ≠ ' ' ∧ c ≠ '\t') ∧
      shown line = trim rest := by
  have hline : indentation line ++ line.dropWhile (fun c => c = ' ' || c = '\t') = line :=
    List.takeWhile_append_dropWhile
  refine ⟨_, hline.symm, fun c hc => ?_, ?_⟩
  · have hnot := List.head?_dropWhile_not (fun c => c = ' ' || c = '\t') line
    rw [Option.mem_def.mp hc] at hnot
    simpa using hnot
  · exact congrArg trim
      ((congrArg (List.drop (indentation line).length) hline).symm.trans List.drop_left)

theorem eq_nil_of_newline (body : List Char) {after : List Char}
    (h : '\n' ∉ (body ++ '\n' :: after).dropLast) : after = [] := by
  by_contra hne
  rw [List.dropLast_append_of_ne_nil (by simp), List.dropLast_cons_of_ne_nil hne] at h
  exact h (by simp)

theorem trimStart_eq_self (hs : Showable line) (hn : '\n' ∉ line.dropLast)
    (hhead : ∀ c ∈ line.head?, c ≠ ' ' ∧ c ≠ '\t') (hb : ∃ c ∈ line, isBlank c = false) :
    trimStart line = line := by
  obtain ⟨b, hb, hbb⟩ := hb
  cases line with
  | nil => rfl
  | cons c cs =>
    refine List.dropWhile_cons_of_neg fun hwhite => ?_
    rw [hs.isWhiteSpace_eq List.mem_cons_self] at hwhite
    have hc := Token.isBlank_iff.mp hwhite
    simp only [Token.blanks, List.mem_cons, hhead c rfl, List.not_mem_nil, or_false, false_or] at hc
    rcases hc with rfl | rfl
    · -- a newline is all of the line
      obtain rfl := eq_nil_of_newline [] hn
      rw [List.mem_singleton.mp hb] at hbb
      cases hbb
    · -- a carriage return stands before the newline
      obtain ⟨after, rfl⟩ : ∃ after, cs = '\n' :: after := by
        have hnext : cs.head? = some '\n' := by simpa using hs.1
        exact ⟨_, List.eq_cons_of_mem_head? hnext⟩
      obtain rfl := eq_nil_of_newline ['\r'] hn
      simp only [List.mem_cons, List.not_mem_nil, or_false] at hb
      rcases hb with rfl | rfl <;> cases hbb

/-- **A line without the white space at its end**, taken apart at its indentation. -/
theorem trimEnd_eq_append_shown (hs : Showable line) (hn : '\n' ∉ line.dropLast)
    (hb : ∃ c ∈ line, isBlank c = false) : trimEnd line = indentation line ++ shown line := by
  obtain ⟨rest, heq, hhead, hshown⟩ := exists_eq_indentation_append line
  obtain ⟨b, hb, hbb⟩ := hb
  have hb : b ∈ rest := by
    rw [heq] at hb
    refine (List.mem_append.mp hb).resolve_left fun hmem => ?_
    rw [isBlank_of_mem_indentation b hmem] at hbb
    cases hbb
  have hs : Showable rest := by
    rw [heq] at hs
    exact hs.of_append_right
  have hn : '\n' ∉ rest.dropLast := by
    rw [heq, List.dropLast_append_of_ne_nil (List.ne_nil_of_mem hb)] at hn
    exact fun hmem => hn (List.mem_append_right _ hmem)
  rw [hshown, trim, trimStart_eq_self hs hn hhead ⟨b, hb, hbb⟩]
  conv_lhs => rw [heq]
  exact Text.trimEnd_append_of_mem hb ((hs.isWhiteSpace_eq hb).trans hbb)

theorem shown_eq_nil (h : ∀ c ∈ line, isBlank c) : shown line = [] :=
  Text.trim_eq_nil fun c hc => Text.isWhiteSpace_of_isWhitespace (h c (List.mem_of_mem_drop hc))

/-- A line **strips to** a text if only blanks are left out of the line, before the text and behind
it, and the text neither starts nor ends with one. -/
structure StripsTo (line text : List Char) : Prop where
  split : ∃ left right, line = left ++ text ++ right ∧ ∀ c ∈ left ++ right, isBlank c
  head : ∀ c ∈ text.head?, isBlank c = false
  last : ∀ c ∈ text.getLast?, isBlank c = false

theorem isBlank_eq_false {c : Char} (h : isWhiteSpace c = false) : isBlank c = false := by
  by_contra hb
  rw [Text.isWhiteSpace_of_isWhitespace (by simpa [isBlank] using hb)] at h
  cases h

/-- **What is shown of a line** is the line without the blanks at its ends. -/
theorem stripsTo_shown (hs : Showable line) (hn : '\n' ∉ line.dropLast) :
    StripsTo line (shown line) := by
  refine ⟨?_, fun c hc => isBlank_eq_false (Text.isWhiteSpace_head_trim c hc),
    fun c hc => isBlank_eq_false (Text.isWhiteSpace_getLast_trim c hc)⟩
  by_cases hb : ∃ c ∈ line, isBlank c = false
  · obtain ⟨cut, hcut, hwhite⟩ := Text.exists_eq_trimEnd_append line
    rw [trimEnd_eq_append_shown hs hn hb] at hcut
    refine ⟨indentation line, cut, hcut, List.forall_mem_append.mpr
      ⟨isBlank_of_mem_indentation, fun c hc => ?_⟩⟩
    have hmem : c ∈ line := hcut ▸ List.mem_append_right _ hc
    exact hs.isWhiteSpace_eq hmem ▸ hwhite c hc
  · have hall : ∀ c ∈ line, isBlank c := by simpa using hb
    exact ⟨line, [], by simp [shown_eq_nil hall], by simpa using hall⟩

/-- **The end of a line**: a caret there is behind all that is shown. -/
theorem length_shown (hs : Showable line) (hn : '\n' ∉ line.dropLast) :
    byteLength (trimEnd line) - (indentation line).length = (shown line).length := by
  by_cases hb : ∃ c ∈ line, isBlank c = false
  · have hsub : trimEnd line ⊆ line := by
      obtain ⟨cut, hcut, -⟩ := Text.exists_eq_trimEnd_append line
      exact fun c hc => hcut ▸ List.mem_append_left cut hc
    rw [hs.byteLength_eq hsub, trimEnd_eq_append_shown hs hn hb, List.length_append,
      Nat.add_sub_cancel_left]
  · have hall : ∀ c ∈ line, isBlank c := by simpa using hb
    have htrim : trimEnd line = [] :=
      Text.trimEnd_eq_nil_iff.mpr fun c hc => Text.isWhiteSpace_of_isWhitespace (hall c hc)
    rw [shown_eq_nil hall, htrim]
    exact Nat.zero_sub _

/-- **A character of a line** is shown further to the left by the indentation. -/
theorem getElem?_shown {cs : List Char} (hs : Showable cs) (hn : '\n' ∉ cs.dropLast) {c : Char}
    {k : Nat} (hc : cs[k]? = some c) (hb : isBlank c = false) :
    (shown cs)[k - (indentation cs).length]? = some c := by
  have hmem := List.mem_of_getElem? hc
  obtain ⟨cut, hcut, hwhite⟩ := Text.exists_eq_trimEnd_append cs
  rw [trimEnd_eq_append_shown hs hn ⟨c, hmem, hb⟩, List.append_assoc] at hcut
  have hk : (indentation cs ++ (shown cs ++ cut))[k]? = some c :=
    (congrArg (fun ds => ds[k]?) hcut).symm.trans hc
  have hnot : isBlank c ≠ true := by simp [hb]
  rcases Nat.lt_or_ge k (indentation cs).length with hlt | hge
  · rw [List.getElem?_append_left hlt] at hk
    exact absurd (isBlank_of_mem_indentation c (List.mem_of_getElem? hk)) hnot
  rw [List.getElem?_append_right hge] at hk
  rcases Nat.lt_or_ge (k - (indentation cs).length) (shown cs).length with hlt | hge
  · rwa [List.getElem?_append_left hlt] at hk
  · rw [List.getElem?_append_right hge] at hk
    have hw := hwhite c (List.mem_of_getElem? hk)
    rw [hs.isWhiteSpace_eq hmem] at hw
    exact absurd hw hnot

/-! ## The lines of a report -/

/-- **A report points at a column** of a line if it has five lines: the head, the name of the file,
and three with a bar in one and the same column. The second of these has a number before its bar and
the line behind it, and the third has a caret below the column of the line. -/
def PointsAt (report head file : String) (number : Nat) (line : List Char) (column : Nat) : Prop :=
  ∃ top numbered below : String, ∃ bar : Nat,
    report = Text.unlines [head, file, top, numbered, below] ∧
      (∀ l ∈ [top, numbered, below], l.toList.idxOf? '|' = some bar) ∧
      numbered = toString number ++ " | " ++ String.ofList line ∧
      numbered.toList.drop (bar + 2) = line ∧
      below.toList.idxOf? '^' = some (bar + 2 + column)

theorem idxOf?_append_cons {cs ds : List Char} {c : Char} (h : c ∉ cs) :
    (cs ++ c :: ds).idxOf? c = some cs.length := by
  rw [List.idxOf?_eq_some_iff]
  refine ⟨by simp, by simp, fun j hj heq => h ?_⟩
  rw [List.getElem_append_left hj] at heq
  exact heq ▸ List.getElem_mem hj

theorem bar_not_mem_toString (number : Nat) : '|' ∉ (toString number).toList := by
  intro hmem
  have hdigit : '|' ∈ Nat.toDigits 10 number := by simpa using hmem
  exact absurd (Nat.isDigit_of_mem_toDigits (by decide) (by decide) hdigit) (by decide)

/-- **A report points at** the column of its caret. -/
theorem pointsAt_render {e : ParseError} {text : String} {place : Text.LinePlace}
    (h : Text.lineAt? text e.position.offset = some place) :
    PointsAt (render e text) (heading e) ("-> " ++ e.position.file) place.number (shown place.text)
      (caretColumn place) := by
  have hdigits := bar_not_mem_toString place.number
  have hrender : render e text = Text.unlines
      [heading e, "-> " ++ e.position.file, bar place.number,
        toString place.number ++ " | " ++ String.ofList (shown place.text),
        bar place.number ++ " " ++ String.ofList (List.replicate (caretColumn place) '-') ++
          "^"] := by
    rw [render, lines, h]
    rfl
  rw [hrender]
  simp only [PointsAt, bar]
  generalize toString place.number = digits at hdigits ⊢
  -- each line is taken apart at its bar, and the last one at the caret
  have htop : (String.ofList (List.replicate (digits.length + 1) ' ') ++ "|").toList =
      List.replicate (digits.length + 1) ' ' ++ '|' :: [] := by
    simp
  have hnumbered : (digits ++ " | " ++ String.ofList (shown place.text)).toList =
      (digits.toList ++ [' ']) ++ '|' :: ' ' :: shown place.text := by
    simp
  have hbelow : (String.ofList (List.replicate (digits.length + 1) ' ') ++ "|" ++ " " ++
        String.ofList (List.replicate (caretColumn place) '-') ++ "^").toList =
      List.replicate (digits.length + 1) ' ' ++
        '|' :: ' ' :: (List.replicate (caretColumn place) '-' ++ ['^']) := by
    simp
  refine ⟨_, _, _, digits.length + 1, rfl, ?_, rfl, ?_, ?_⟩
  · simp only [List.forall_mem_cons]
    refine ⟨?_, ?_, ?_, List.forall_mem_nil _⟩
    · rw [htop, idxOf?_append_cons (by simp), List.length_replicate]
    · rw [hnumbered, idxOf?_append_cons (by simpa using hdigits), List.length_append,
        String.length_toList]
      rfl
    · rw [hbelow, idxOf?_append_cons (by simp), List.length_replicate]
  · rw [hnumbered, ← String.length_toList, Nat.add_assoc, List.append_assoc,
      List.drop_length_add_append]
    rfl
  · have hcaret := hbelow.trans (List.append_assoc _ ('|' :: ' ' :: _) ['^']).symm
    rw [hcaret, idxOf?_append_cons (by simp)]
    simp only [List.length_append, List.length_cons, List.length_replicate, Option.some.injEq]
    omega

example : render ⟨.unexpectedToken .identifier .assign, .atByte 9 "shell"⟩ "1;\n\t let = 5;\n" =
    "Error: UnexpectedToken (Insert a `Identifier` token here)\n" ++
      "-> shell\n" ++
      "  |\n" ++
      "2 | let = 5;\n" ++
      "  | ----^\n" := by
  decide +kernel

/-! ## Errors of a parse -/

/-- **The report on an error points to a token** of the source if it points at a column of a line of
the text, which it shows without the blanks at its ends.

* If the token is not the end of the input, the error stands where its literal starts. The number of
  the line is one more than the number of newlines before that, and the character above the caret is
  the first one of the literal.
* If it is the end of the input, the error stands behind the text. The line is the last one, and the
  caret is right behind what is shown of it, which is nothing if the line is blank. -/
def PointsTo (source : Source) (e : ParseError) (t : Token) : Prop :=
  ∃ (place : Text.LinePlace) (before behind text : List Char) (column : Nat),
    PointsAt (render e source.text) (heading e) ("-> " ++ source.file) place.number text column ∧
      place.StandsIn source.text.toList before behind ∧
      StripsTo place.text text ∧
      (t.kind ≠ .endOfInput → ∃ front back,
        source.text.toList = front ++ t.literal.toList ++ back ∧
          byteLength front = e.position.offset ∧
          place.number = front.count '\n' + 1 ∧
          ∃ c ∈ t.literal.toList.head?, text[column]? = some c) ∧
      (t.kind = .endOfInput → behind = [] ∧
        e.position.offset = byteLength source.text.toList ∧
        column = text.length ∧
        ((∀ c ∈ place.text, isBlank c) → column = 0))

/-- **The caret is under the token**, and in the first 60,000 columns it is printed. -/
theorem caret_under_token (config : Config) (source : Source)
    (hlen : byteLength source.text.toList ≤ Position.maxOffset)
    (hshow : Showable source.text.toList) (e : ParseError)
    (he : e ∈ (parse config source).2.errors.toList) :
    (∃ t ∈ tokenize source, e.IsAbout t ∧ PointsTo source e t) ∧
      ((∀ place ∈ Text.lineAt? source.text e.position.offset, place.column < 60000) →
        print (lines e source.text) = ⟨render e source.text, true⟩) := by
  refine ⟨?_, fun hcolumn => print_lines_of_fits (fits_of_column_lt hlen hcolumn)⟩
  obtain ⟨hne, t, ht, habout⟩ := exists_isAbout_of_mem_errors_parse he
  have hfile : e.position.file = source.file := by
    rw [habout.position_eq, file_start_of_mem_tokenize hlen ht]
  rcases List.mem_append.mp ht with hahead | hstop
  · obtain ⟨front, back, htext, hfront, c, hc, hb⟩ := Token.Stream.exists_text_eq hlen hahead
    rw [← habout.position_eq] at hfront
    have hlit := List.eq_cons_of_mem_head? hc
    obtain ⟨place, before, behind, hplace, hstands, hnumber, hchar⟩ := hshow.exists_lineAt?
      (show source.text.toList = front ++ c :: (t.literal.toList.tail ++ back) by
        rw [htext, List.append_assoc, ← List.cons_append, ← hlit])
    rw [hfront] at hplace
    have hpoints := pointsAt_render hplace
    rw [hfile] at hpoints
    have hline := hstands.showable hshow
    refine ⟨t, ht, habout, place, before, behind, _, _, hpoints, hstands,
      stripsTo_shown hline hstands.inside,
      fun _ => ⟨front, back, htext, hfront, hnumber, c, hc, ?_⟩, fun hk => ?_⟩
    · exact getElem?_shown hline hstands.inside hchar hb
    · exact absurd hk (Token.Stream.lexed_of_mem_ofSource hahead).kind_ne
  · obtain rfl := List.mem_singleton.mp hstop
    have hoffset : e.position.offset = byteLength source.text.toList := by
      rw [habout.position_eq]
      exact Position.offset_atByte_of_le hlen source.file
    obtain ⟨place, before, hplace, hstands, hcolumn⟩ :=
      Text.exists_lineAt?_of_le hne hoffset.ge
    have hpoints := pointsAt_render hplace
    rw [hfile] at hpoints
    have hline := hstands.showable hshow
    have hlength : caretColumn place = (shown place.text).length := by
      rw [caretColumn, hcolumn, length_shown hline hstands.inside]
    refine ⟨_, ht, habout, place, before, [], _, _, hpoints, hstands,
      stripsTo_shown hline hstands.inside, fun hk => absurd rfl hk,
      fun _ => ⟨rfl, hoffset, hlength, fun hblank => ?_⟩⟩
    rw [hlength, shown_eq_nil hblank]
    rfl

/-- A source with a line that is indented with a tab and a space, and with line ends of both forms.
A name is missing in that line, and an equals sign at the end of the input. -/
def indentedSource : Source :=
  .ofText "let a = 1;\r\n\t let = 5;\n  let b \r\n" none

/-- One error in an indented line, and one at the end. -/
theorem caret_under_token_indentedSource :
    let nameless : ParseError := ⟨.unexpectedToken .identifier .assign, .atByte 18 "shell"⟩
    let unfinished : ParseError := ⟨.unexpectedToken .assign .endOfInput, .atByte 33 "shell"⟩
    byteLength indentedSource.text.toList ≤ Position.maxOffset ∧
      Showable indentedSource.text.toList ∧
      nameless ∈ (parse {} indentedSource).2.errors.toList ∧
      unfinished ∈ (parse {} indentedSource).2.errors.toList ∧
      (∃ t ∈ tokenize indentedSource, nameless.IsAbout t ∧ PointsTo indentedSource nameless t) ∧
      (∃ t ∈ tokenize indentedSource, unfinished.IsAbout t ∧
        PointsTo indentedSource unfinished t) ∧
      print (lines nameless indentedSource.text) = ⟨render nameless indentedSource.text, true⟩ := by
  intro nameless unfinished
  have hlen : byteLength indentedSource.text.toList ≤ Position.maxOffset := by decide +kernel
  have hshow : Showable indentedSource.text.toList := by decide +kernel
  have hnameless : nameless ∈ (parse {} indentedSource).2.errors.toList := by decide +kernel
  have hunfinished : unfinished ∈ (parse {} indentedSource).2.errors.toList := by decide +kernel
  obtain ⟨hpoints, hprint⟩ := caret_under_token {} indentedSource hlen hshow nameless hnameless
  exact ⟨hlen, hshow, hnameless, hunfinished, hpoints,
    (caret_under_token {} indentedSource hlen hshow unfinished hunfinished).1,
    hprint (by decide +kernel)⟩

end PrattFrontend.Report
