import GameLang.Command.Folder
import GameLang.Command.Options
import GameLang.Command.Snippet
import GameLang.Json.Real
import GameLang.Json.Tree
import GameLang.Tree.Layout
import GameLang.Tree.Outline

/-!
# Command runs

What the command writes and how it ends, as a function of its words and the files it can read.
-/

namespace GameLang.Command

/-- What a run wrote, and its exit code. -/
structure Report where
  code : Nat
  output : String
  errors : String
  deriving DecidableEq

/-- The exit code for a command line that is refused. -/
def usageCode : Nat := 64

/-- The exit code for tokens that are no program. -/
def syntaxCode : Nat := 65

/-- The exit code for a text that has no tokens. -/
def lexicalCode : Nat := 66

/-- The exit code for a file that cannot be read. -/
def readCode : Nat := 1

def Format.write (program : Program) : Format → String
  | json => program.json.inLines ++ "\n"
  | tree => program.outline
  | source => program.print

/-- A source as the options ask for it: the token dump and an empty line, then the program. -/
def Options.render (o : Options) (source : Source) : String :=
  if o.noTokens then o.format.write source.program
  else dump source.tokens ++ "\n" ++ o.format.write source.program

def errorLine (message : String) : String := "error: " ++ message ++ "\n"

/-- What the command says about itself. -/
def helpText : String :=
  "Tokenize and parse an igra program\n\nUsage: igra [OPTIONS] <SOURCE>\n\nOptions:\n" ++
    "      --format <FORMAT>  json (default), tree or source\n" ++
    "      --no-tokens        Do not print the token dump\n" ++
    "  -v, --verbose          Report progress on stderr\n" ++
    "  -h, --help             Print help\n" ++
    "  -V, --version          Print version\n"

/-- What is wrong with a command line. -/
def Refusal.message : Refusal → String
  | help | version => ""
  | unknownArgument => "unexpected argument"
  | attachedValue => "unexpected value"
  | repeated => "an option is given twice"
  | badValue => "invalid value"
  | missingSource => "no source file is given"

namespace Report

def ofRefusal : Refusal → Report
  | .help => ⟨0, helpText, ""⟩
  | .version => ⟨0, "igra 0.1.0\n", ""⟩
  | refusal => ⟨usageCode, "", errorLine refusal.message⟩

def codeOf : SourceError → Nat
  | .lexical _ => lexicalCode
  | .grammatical _ => syntaxCode

/-- Lines on the progress of a run, if they are asked for. -/
def progress (o : Options) (lines : String) : String := if o.verbose then lines else ""

def ofText (o : Options) (text : String) : Report :=
  let begun := progress o ("Parsing " ++ o.source ++ "...\n")
  match Source.read text with
  | .ok source =>
    ⟨0, o.render source, begun ++ progress o
      ("Tokenized " ++ Decimal.shownNat source.tokens.length ++ " tokens.\n" ++
        "Parsed successfully. Found " ++ Decimal.shownNat source.program.items.length ++
        " top-level items.\n")⟩
  | .error e =>
    ⟨codeOf e, "", begun ++ errorLine e.message ++ e.snippet text o.source⟩

def ofFile (o : Options) : Except ReadFailure String → Report
  | .ok text => ofText o text
  | .error failure =>
    ⟨readCode, "", errorLine ("cannot read '" ++ o.source ++ "': " ++ failure.message)⟩

end Report

/-- Runs the command on files that are read by their paths. -/
def run (read : String → Except ReadFailure String) (args : List String) : Report :=
  match Options.ofArguments args with
  | .error refusal => .ofRefusal refusal
  | .ok o => .ofFile o (read o.source)

end GameLang.Command
