/-!
# Slices by bytes

The part of a text between two offsets that count the bytes of UTF-8. There is one only if characters
start at both offsets (`byteSlice_append`).
-/

namespace GameLang.Text

def byteLength : List Char → Nat
  | [] => 0
  | c :: text => c.utf8Size + byteLength text

/-- Cuts a text behind a number of bytes, if a character ends there. -/
def cutBytes : Nat → List Char → Option (List Char × List Char)
  | 0, text => some ([], text)
  | _ + 1, [] => none
  | n + 1, c :: text =>
    if c.utf8Size ≤ n + 1 then (cutBytes (n + 1 - c.utf8Size) text).map (Prod.map (c :: ·) id) else none

/-- The part of a text from one byte up to another one. -/
def byteSlice (text : String) (first last : Nat) : Option String :=
  if first ≤ last then do
    let (_, back) ← cutBytes first text.toList
    let (part, _) ← cutBytes (last - first) back
    return String.ofList part
  else none

theorem byteLength_append (front back : List Char) :
    byteLength (front ++ back) = byteLength front + byteLength back := by
  induction front with
  | nil => simp [byteLength]
  | cons c front ih => simp [byteLength, ih, Nat.add_assoc]

theorem cutBytes_append (front back : List Char) :
    cutBytes (byteLength front) (front ++ back) = some (front, back) := by
  induction front with
  | nil =>
    change cutBytes 0 back = _
    rw [cutBytes]
  | cons c front ih =>
    have positive := c.utf8Size_pos
    obtain ⟨n, next⟩ : ∃ n, c.utf8Size + byteLength front = n + 1 :=
      ⟨c.utf8Size + byteLength front - 1, by omega⟩
    have left : n + 1 - c.utf8Size = byteLength front := by omega
    rw [byteLength, next, List.cons_append, cutBytes, if_pos (by omega), left, ih]
    rfl

theorem byteSlice_append (front part back : List Char) :
    byteSlice (String.ofList (front ++ (part ++ back))) (byteLength front)
      (byteLength front + byteLength part) = some (String.ofList part) := by
  unfold byteSlice
  rw [if_pos (Nat.le_add_right _ _), String.toList_ofList, cutBytes_append, Nat.add_sub_cancel_left]
  change (do let (part, _) ← cutBytes (byteLength part) (part ++ back); return String.ofList part) = _
  rw [cutBytes_append]
  rfl

end GameLang.Text
