import PrattFrontend.ParseError
import PrattFrontend.Text.Basic

/-!
# Error reports

A report names an error and the file, and shows the line that the error is in, without its
indentation, with a caret below the place:

    Error: UnexpectedToken (Insert a `Identifier` token here)
    -> shell
      |
    1 | let = 5;
      | ----^

Lines are padded, and no line is printed that would have to be padded too far.

* `Report.Line`, **`Report.print`**: lines, and what is printed of them;
* `Report.heading`, `Report.excerpt`, `Report.lines`: the lines of a report;
* **`Report.render`**: a whole report; `Report.Fits`: whether it can be printed.
-/

namespace PrattFrontend.Report

open Text (lineAt? trim unlines)

/-! ## Printing -/

/-- A line, and the greatest width that a part of it is padded to. -/
structure Line where
  text : String
  width : Nat := 0
deriving DecidableEq, Repr

/-- The greatest width that a part of a line can be padded to. -/
def maxWidth : Nat := 65535

/-- Whether a line can be printed. -/
def Line.fits (line : Line) : Bool :=
  line.width ≤ maxWidth

/-- What has been printed, and whether it is all that was to be printed. -/
structure Printed where
  text : String
  whole : Bool
deriving DecidableEq, Repr

/-- **Prints lines**, and breaks off before the first that cannot be printed. -/
def print (ls : List Line) : Printed where
  text := unlines ((ls.takeWhile Line.fits).map Line.text)
  whole := ls.all Line.fits

example : print [⟨"a", 1⟩, ⟨"b", 65536⟩, ⟨"c", 0⟩] = ⟨"a\n", false⟩ := by decide +kernel

/-! ## Reports -/

/-- The first line of a report. -/
def heading (e : ParseError) : String :=
  match e.tip? with
  | none => "Error: " ++ e.name
  | some tip => "Error: " ++ e.name ++ " (" ++ tip ++ ")"

/-- The width of the numbers at the left of an excerpt, with a blank and the bar behind them. -/
def barWidth (number : Nat) : Nat :=
  (toString number).length + 2

/-- The bar at the left of the lines of an excerpt, behind as many characters as `number` has digits
and one. -/
def bar (number : Nat) : String :=
  String.ofList (List.replicate ((toString number).length + 1) ' ') ++ "|"

/-- The spaces and tabs that a line starts with. -/
def indentation (line : List Char) : List Char :=
  line.takeWhile fun c => c = ' ' || c = '\t'

/-- A line as it is shown: without its indentation and without white space at either end. -/
def shown (line : List Char) : List Char :=
  trim (line.drop (indentation line).length)

/-- How far to the right of the first character shown the caret stands. -/
def caretColumn (place : Text.LinePlace) : Nat :=
  place.column - (indentation place.text).length

/-- The lines that show a place: a bar, the line with its number, and the caret. The dashes before
the caret are its padding. -/
def excerpt (place : Text.LinePlace) : List Line :=
  [⟨bar place.number, barWidth place.number⟩,
    ⟨toString place.number ++ " | " ++ String.ofList (shown place.text), 0⟩,
    ⟨bar place.number ++ " " ++ String.ofList (List.replicate (caretColumn place) '-') ++ "^",
      max (barWidth place.number) (caretColumn place + 1)⟩]

/-- The lines of a report on an error in a text. An empty text has no line to show. -/
def lines (e : ParseError) (text : String) : List Line :=
  [⟨heading e, 0⟩, ⟨"-> " ++ e.position.file, 0⟩] ++
    ((lineAt? text e.position.offset).map excerpt).getD []

/-- **A report** on an error in a text. -/
def render (e : ParseError) (text : String) : String :=
  unlines ((lines e text).map Line.text)

/-- A report **fits** if all its lines can be printed. -/
def Fits (e : ParseError) (text : String) : Prop :=
  (lines e text).all Line.fits = true

instance (e : ParseError) (text : String) : Decidable (Fits e text) :=
  inferInstanceAs (Decidable (_ = true))

end PrattFrontend.Report
