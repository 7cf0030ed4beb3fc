/-!
# Command options

The words of a command line, read from left to right. A value that stands in a word of its own is
only taken up when the next option, argument or the end is reached, and so are the errors in it; an
unknown option is an error at once.
-/

namespace GameLang.Command

/-- How a program is written out. -/
inductive Format where
  | json
  | tree
  | source
  deriving DecidableEq

def Format.ofName? : String → Option Format
  | "json" => some json
  | "tree" => some tree
  | "source" => some source
  | _ => none

/-- What a command line asks for. -/
structure Options where
  source : String
  format : Format
  noTokens : Bool
  verbose : Bool
  deriving DecidableEq

/-- Why a command line is not carried out. -/
inductive Refusal where
  | help
  | version
  | unknownArgument
  /-- A value is attached to a switch. -/
  | attachedValue
  /-- An option is given twice. -/
  | repeated
  /-- A value is absent, empty or not one of those allowed. -/
  | badValue
  | missingSource
  deriving DecidableEq

/-- Options without a value. -/
inductive Switch where
  | noTokens
  | verbose
  | help
  | version
  deriving DecidableEq

def Switch.ofName? : String → Option Switch
  | "no-tokens" => some noTokens
  | "verbose" => some verbose
  | "help" => some help
  | "version" => some version
  | _ => none

def Switch.ofLetter? : Char → Option Switch
  | 'v' => some verbose
  | 'h' => some help
  | 'V' => some version
  | _ => none

inductive Pending where
  | format (value : Option String)
  | source (value : String)

/-- What the words so far have settled. -/
structure Walk where
  source : Option String
  format : Option Format
  noTokens : Bool
  verbose : Bool
  pending : Option Pending

namespace Walk

def start : Walk := ⟨none, none, false, false, none⟩

def setFormat (value : String) (w : Walk) : Except Refusal Walk :=
  if w.format.isSome then .error .repeated
  else
    match Format.ofName? value with
    | some format => .ok { w with format := some format }
    | none => .error .badValue

def settle (w : Walk) : Except Refusal Walk :=
  let free := { w with pending := none }
  match w.pending with
  | none => .ok free
  | some (.format none) => .error .badValue
  | some (.format (some value)) => free.setFormat value
  | some (.source value) =>
    if value.isEmpty then .error .badValue else .ok { free with source := some value }

def hasSource (w : Walk) : Bool :=
  w.source.isSome || (match w.pending with | some (.source _) => true | _ => false)

def switch (s : Switch) (w : Walk) : Except Refusal Walk := do
  let w ← w.settle
  match s with
  | .help => .error .help
  | .version => .error .version
  | .noTokens => if w.noTokens then .error .repeated else .ok { w with noTokens := true }
  | .verbose => if w.verbose then .error .repeated else .ok { w with verbose := true }

/-- A long option, without its dashes, perhaps with a value after an equals sign. -/
def longOption (text : List Char) (w : Walk) : Except Refusal Walk :=
  let name := String.ofList (text.takeWhile (· ≠ '='))
  let attached :=
    match text.dropWhile (· ≠ '=') with
    | [] => none
    | _ :: value => some (String.ofList value)
  if name = "format" then do
    let w ← w.settle
    match attached with
    | some value => w.setFormat value
    | none => .ok { w with pending := some (.format none) }
  else
    match Switch.ofName? name with
    | none => .error .unknownArgument
    | some s => if attached.isSome then .error .attachedValue else w.switch s

/-- Switches by their letters, one after the other. -/
def letters : List Char → Walk → Except Refusal Walk
  | [], w => .ok w
  | c :: rest, w =>
    match Switch.ofLetter? c with
    | none => .error .unknownArgument
    | some s => do letters rest (← w.switch s)

def argument (text : String) (w : Walk) : Except Refusal Walk :=
  if w.hasSource then .error .unknownArgument
  else do
    let w ← w.settle
    .ok { w with pending := some (.source text) }

/-- A word that is no option: the value of a format that waits for one, or an argument. -/
def plain (text : String) (w : Walk) : Except Refusal Walk :=
  match w.pending with
  | some (.format none) => .ok { w with pending := some (.format (some text)) }
  | _ => w.argument text

/-- A word before the mark that ends the options. A single dash is no option. -/
def word (text : String) (w : Walk) : Except Refusal Walk :=
  match text.toList with
  | '-' :: '-' :: rest => w.longOption rest
  | '-' :: c :: rest => w.letters (c :: rest)
  | _ => w.plain text

def arguments : List String → Walk → Except Refusal Walk
  | [], w => .ok w
  | text :: rest, w => do arguments rest (← w.argument text)

/-- All words. Two dashes end the options. -/
def words : List String → Walk → Except Refusal Walk
  | [], w => .ok w
  | text :: rest, w => if text = "--" then w.arguments rest else do words rest (← w.word text)

end Walk

/-- The options that the words of a command line ask for. -/
def Options.ofArguments (args : List String) : Except Refusal Options := do
  let w ← (Walk.start.words args)
  let w ← w.settle
  match w.source with
  | none => .error .missingSource
  | some source => .ok ⟨source, w.format.getD .json, w.noTokens, w.verbose⟩

end GameLang.Command
