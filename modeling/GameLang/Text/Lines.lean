/-!
# Lines of a text

A line feed ends a line, and a carriage return directly before it belongs to the ending. Text after
the last line feed is a line too, unless it is empty.
-/

namespace GameLang.Text

/-- A line without its ending; `ended` says that a line feed follows. -/
def withoutReturn (line : List Char) (ended : Bool) : List Char :=
  if ended && line.getLast? = some '\r' then line.dropLast else line

/-- The line with the given number, counted from zero. -/
def lineAt : Nat → List Char → Option (List Char)
  | _, [] => none
  | 0, text =>
    some (withoutReturn (text.takeWhile (· ≠ '\n')) (!(text.dropWhile (· ≠ '\n')).isEmpty))
  | n + 1, text => lineAt n (text.dropWhile (· ≠ '\n')).tail

def copies (count : Nat) (c : Char) : String := "".pushn c count

@[simp] theorem toList_copies (count : Nat) (c : Char) :
    (copies count c).toList = List.replicate count c := by
  have pushed : (copies count c).toList = [] ++ List.replicate count c := by
    unfold copies String.pushn
    induction count with
    | zero => simp [Nat.repeat]
    | succ count ih => simp [Nat.repeat, ih, List.replicate_succ']
  simpa using pushed

/-- A text filled up with spaces to the given width. -/
def padRight (s : String) (width : Nat) : String := s ++ copies (width - s.length) ' '

end GameLang.Text
