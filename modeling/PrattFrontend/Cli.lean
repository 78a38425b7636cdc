import PrattFrontend.Parser.Program
import PrattFrontend.Report

/-!
# The command line

The words of a command line are read from left to right. A call for help or an unknown option
settles the command at once; otherwise the options add up, and the last path counts.

* `Cli.Options`, **`Cli.Command`**, `Cli.Command.ofArgs`: what the words ask for;
* `Cli.Answer`, `Cli.Answer.ofSource`: what is written, and the status;
* `Cli.Reader`, **`Cli.answer`**: the answer to a command, by a way to read bytes;
* `Cli.fileName?`: the name of a file by its path.
-/

namespace PrattFrontend.Cli

/-! ## Commands -/

/-- What is to be done with a source. -/
structure Options where
  /-- Whether the tokens are listed first. -/
  showTokens : Bool := false
  config : Config := {}
  /-- The path of the source, if it is not to be read from the standard input. -/
  path? : Option String := none
deriving DecidableEq, Repr

/-- **A command.** -/
inductive Command where
  /-- Show how the program is called. -/
  | usage
  /-- Complain about a word that looks like an option and is none. -/
  | unknownOption (word : String)
  /-- Parse a source. -/
  | parse (options : Options)
deriving DecidableEq, Repr

/-- Whether a word looks like an option: it starts with two dashes. -/
def looksLikeOption (word : String) : Bool :=
  ['-', '-'].isPrefixOf word.toList

namespace Command

/-- The command that the remaining words give, with the options so far. -/
def extend (options : Options) : List String → Command
  | [] => parse options
  | word :: words =>
    if word = "--tokens" then extend { options with showTokens := true } words
    else if word = "--parse-values" then
      extend { options with config := { options.config with values := .parse } } words
    else if word = "--resync" then
      extend { options with config := { options.config with recovery := .semicolon } } words
    else if word = "-h" || word = "--help" then usage
    else if looksLikeOption word then unknownOption word
    else extend { options with path? := some word } words

/-- **The command that a list of words gives.** -/
def ofArgs (words : List String) : Command :=
  extend {} words

example : ofArgs ["a", "--resync", "b"] =
    parse { config := { recovery := .semicolon }, path? := some "b" } := by decide

example : ofArgs ["a", "--nope", "-h"] = unknownOption "--nope" := by decide

end Command

/-! ## Answers -/

open Text (unlines)

/-- What is written to the standard output and to the standard error, and the exit status, which is
`none` if the run breaks off. -/
structure Answer where
  stdout : String := ""
  stderr : String := ""
  status? : Option Nat
deriving DecidableEq, Repr

/-- How the program is called. -/
def usage : String :=
  "usage: monkey [--tokens] [--parse-values] [--resync] [FILE]"

/-- How bytes are read, from a path or, without one, from the standard input. Reading is an action,
which may do more than give bytes. If it fails, it gives the system's words instead. -/
abbrev Reader (m : Type → Type) : Type := Option String → m (Except String ByteArray)

/-- The names in a path, with empty ones where slashes stand together or at an end. -/
def pathNames (path : String) : List String :=
  path.splitOn "/"

/-- The name of the file at a path, which is the last name that is no step to a directory. -/
def fileName? (path : String) : Option String :=
  (((pathNames path).filter fun name => name ≠ "" && name ≠ ".").getLast?).filter (· ≠ "..")

namespace Answer

/-- The listing of the tokens of a source, if that is asked for. -/
def tokenLines (showTokens : Bool) (source : Source) : List Report.Line :=
  if showTokens then (tokenize source).map fun t => ⟨t.display, 0⟩ else []

/-- The lines that are printed for a source: the listing of its tokens, the reports on the errors in
it, and the program as text. -/
def output (options : Options) (source : Source) : List Report.Line :=
  let result := parse options.config source
  tokenLines options.showTokens source ++
    (result.2.errors.toList.flatMap (Report.lines · source.text) ++ [⟨result.1.code, 0⟩])

/-- **The answer for a source.** The status tells whether there are errors. If some line cannot be
printed, the run breaks off there. -/
def ofSource (options : Options) (source : Source) : Answer :=
  let printed := Report.print (output options source)
  { stdout := printed.text
    status? :=
      if printed.whole then
        some (if (parse options.config source).2.errors.isEmpty then 0 else 1)
      else none }

/-- The answer when nothing can be read, for a reason in words. -/
def unread (words : String) : Answer where
  stderr := unlines ["failed to read source: " ++ words]
  status? := some 1

/-- The answer when the bytes have been read, or could not be. -/
def ofReading (options : Options) : Except String ByteArray → Answer
  | .error words => unread words
  | .ok bytes =>
    match String.fromUTF8? bytes with
    | none => unread "stream did not contain valid UTF-8"
    | some text => ofSource options (.ofText text (options.path?.bind fileName?))

end Answer

/-- **The answer to a command.** A text is read only if the command is to parse one. -/
def answer {m : Type → Type} [Monad m] (read : Reader m) : Command → m Answer
  | .usage => return { stdout := unlines [usage], status? := some 0 }
  | .unknownOption word =>
    return { stderr := unlines ["unknown option `" ++ word ++ "`", usage], status? := some 1 }
  | .parse options => return .ofReading options (← read options.path?)

end PrattFrontend.Cli
