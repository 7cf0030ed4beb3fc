import GameLang.Source

/-!
# Error snippets

The source line of an error, with a marker under the text at fault.
-/

namespace GameLang.SourceError

/-- How many columns the text at fault covers. -/
def width : SourceError → Nat
  | lexical e => e.snippet.length
  | grammatical e => e.token.span.last + 1 - e.token.span.first

/-- The blanks in front of the marker: tabs stay, so that it lines up however they are shown. -/
def padding (line : List Char) (column : Nat) : List Char :=
  (line.take (column - 1)).map fun c => if c = '\t' then '\t' else ' '

/-- The snippet of an error in a source read from a path. An error behind the last line shows only
its place. -/
def snippet (source path : String) (e : SourceError) : String :=
  let line := Decimal.shownNat e.place.line
  let place := "--> " ++ path ++ ":" ++ line ++ ":" ++ Decimal.shownNat e.place.column ++ "\n"
  match Text.lineAt (e.place.line - 1) source.toList with
  | none => " " ++ place
  | some text =>
    let gutter := Text.copies line.length ' '
    gutter ++ place ++ gutter ++ " |\n" ++ line ++ " | " ++ String.ofList text ++ "\n" ++
      gutter ++ " | " ++ String.ofList (padding text e.place.column) ++
      Text.copies (max e.width 1) '^' ++ "\n"

end GameLang.SourceError
