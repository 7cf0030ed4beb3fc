import GameLang.Text.Extending
import GameLang.Text.Hidden

/-!
# Quoted text

Characters and texts as they are shown between quotes: what has no shape of its own is written as an
escape, all else stands as it is.
-/

namespace GameLang.Text

/-- The escape of a character by its code point, in lower-case hexadecimal digits. -/
def codePointEscape (c : Char) : List Char :=
  '\\' :: 'u' :: '\x7b' :: Nat.toDigits 16 c.toNat ++ ['\x7d']

/-- Whether a character would not show as itself if it stood alone. -/
def isUnshowable (c : Char) : Bool := (isExtending c && !isHalfwidthMark c) || isHidden c

/-- A character as it is shown between a pair of the given quotes. -/
def escaped (quote c : Char) : List Char :=
  if c = '\x00' then ['\\', '0']
  else if c = '\t' then ['\\', 't']
  else if c = '\r' then ['\\', 'r']
  else if c = '\n' then ['\\', 'n']
  else if c = '\\' || c = quote then ['\\', c]
  else if isUnshowable c then codePointEscape c
  else [c]

/-- A character between single quotes. -/
def quotedChar (c : Char) : String :=
  String.ofList ('\'' :: escaped '\'' c ++ ['\''])

/-- A text between double quotes. -/
def quotedText (s : String) : String :=
  String.ofList ('"' :: s.toList.flatMap (escaped '"') ++ ['"'])

end GameLang.Text
