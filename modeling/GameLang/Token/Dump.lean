import GameLang.Token.Basic

/-!
# Token dumps

A dump has a line for each token: its place, its kind and its text in columns, and its value if it
has one.
-/

namespace GameLang

/-- A span as `line:first-last`. -/
def Span.shown (s : Span) : String :=
  Decimal.shownNat s.line ++ ":" ++ Decimal.shownNat s.first ++ "-" ++ Decimal.shownNat s.last

def Token.dumpLine (t : Token) : String :=
  Text.padRight t.span.shown 10 ++ " " ++ Text.padRight t.kind.name 14 ++ " '" ++ t.lexeme ++ "'" ++
    (match t.literal with
      | some value => " = " ++ value.shown
      | none => "") ++ "\n"

def dump (tokens : List Token) : String := String.join (tokens.map Token.dumpLine)

end GameLang
