import GameLang.Proofs.Json.Number
import Mathlib.Data.List.Nodup

/-!
# Well-formed JSON

`IsText` is the grammar of JSON, without blanks, for values in which no object repeats a key. The
compact text of a value is such a text if no object of the value repeats one
(`Value.Distinct.exists_isText`).
-/

namespace GameLang.Json

/-! ### Characters in strings -/

/-- What follows a backslash, and the character that both stand for. -/
def shortEscapes : List (Char × Char) :=
  [('"', '"'), ('\\', '\\'), ('/', '/'), ('b', '\x08'), ('f', '\x0c'), ('n', '\n'), ('r', '\r'),
    ('t', '\t')]

def hexDigits : List Char := "0123456789abcdef".toList

def hexCode? (digits : List Char) : Option Nat :=
  digits.foldlM (fun code c => (hexDigits.idxOf? c.toLower).map (16 * code + ·)) 0

/-- The character that the text behind a backslash stands for, and what is behind that text. -/
def afterSlash? : List Char → Option (Char × List Char)
  | 'u' :: p :: q :: r :: s :: rest =>
    (hexCode? [p, q, r, s]).bind fun code =>
      if code.isValidChar then some (Char.ofNat code, rest) else none
  | mark :: rest => (shortEscapes.lookup mark).map (·, rest)
  | [] => none

/-- The first character that the text inside a string stands for, and the text behind it. A character
whose code has more than four digits stands for itself. -/
def unescape? : List Char → Option (Char × List Char)
  | [] => none
  | c :: rest =>
    if c = '\\' then afterSlash? rest
    else if c.toNat < 32 ∨ c = '"' then none
    else some (c, rest)

theorem unescape?_controlEscape {c : Char} (control : c.toNat < 32) (rest : List Char) :
    unescape? (controlEscape c ++ rest) = some (c, rest) := by
  have shape : ∀ code < 32, (controlEscape (Char.ofNat code)).take 2 = ['\\', 'u'] ∧
      ((controlEscape (Char.ofNat code)).drop 2).length = 4 ∧
      hexCode? ((controlEscape (Char.ofNat code)).drop 2) = some code ∧ code.isValidChar := by
    decide
  obtain ⟨mark, four, found, valid⟩ := shape c.toNat control
  rw [Char.ofNat_toNat] at mark four found
  rw [← List.take_append_drop 2 (controlEscape c), mark]
  generalize (controlEscape c).drop 2 = digits at four found
  match digits, four with
  | [p, q, r, s], _ =>
    show (hexCode? [p, q, r, s]).bind _ = some (c, rest)
    rw [found, Option.bind_some, if_pos valid, Char.ofNat_toNat]
    rfl

/-- An escape stands for the character that was escaped. -/
theorem unescape?_escaped (c : Char) (rest : List Char) :
    unescape? (escaped c ++ rest) = some (c, rest) := by
  unfold escaped
  by_cases quote : c = '"'
  · rw [if_pos quote, quote]
    rfl
  rw [if_neg quote]
  by_cases slash : c = '\\'
  · rw [if_pos slash, slash]
    rfl
  rw [if_neg slash]
  by_cases control : c.toNat < 32
  · rw [if_pos control]
    repeat' split
    all_goals first | exact unescape?_controlEscape control rest | (rename_i same; subst same; rfl)
  · have visible {d : Char} (low : d.toNat < 32) : c ≠ d := by
      rintro rfl
      exact control low
    rw [if_neg (visible (by decide)), if_neg (visible (by decide)), if_neg (visible (by decide)),
      if_neg (visible (by decide)), if_neg (visible (by decide)), if_neg control]
    show (if c = '\\' then _ else if c.toNat < 32 ∨ c = '"' then none else some (c, rest)) = _
    rw [if_neg slash, if_neg (not_or.mpr ⟨control, quote⟩)]

/-! ### Texts -/

/-- The text inside a string stands for another one. -/
inductive Spells : List Char → List Char → Prop where
  | nil : Spells [] []
  | next {body rest text : List Char} {c : Char} (first : unescape? body = some (c, rest))
      (others : Spells rest text) : Spells body (c :: text)

theorem spells_escaped (text : List Char) : Spells (text.flatMap escaped) text := by
  induction text with
  | nil => exact .nil
  | cons c text ih => exact .next (unescape?_escaped c _) ih

mutual

/-- A text is a value in which no object repeats a key. -/
inductive IsText : List Char → Prop where
  | word {w : List Char} (known : w ∈ ["null".toList, "true".toList, "false".toList]) : IsText w
  | number {w : List Char} (numeral : IsNumber w) : IsText w
  | string {body text : List Char} (spells : Spells body text) : IsText ('"' :: (body ++ ['"']))
  | noElements : IsText ['[', ']']
  | array {w : List Char} (elements : AreElements w) : IsText ('[' :: (w ++ [']']))
  | noMembers : IsText ['\x7b', '\x7d']
  | object {keys : List (List Char)} {w : List Char} (members : AreMembers keys w)
      (distinct : keys.Nodup) : IsText ('\x7b' :: (w ++ ['\x7d']))

/-- A text is values with commas between them. -/
inductive AreElements : List Char → Prop where
  | one {w : List Char} (value : IsText w) : AreElements w
  | more {w v : List Char} (value : IsText w) (others : AreElements v) : AreElements (w ++ ',' :: v)

/-- A text is values, each behind its key, with commas between them. -/
inductive AreMembers : List (List Char) → List Char → Prop where
  | one {body key w : List Char} (spells : Spells body key) (value : IsText w) :
      AreMembers [key] ('"' :: (body ++ '"' :: ':' :: w))
  | more {keys : List (List Char)} {body key w v : List Char} (spells : Spells body key)
      (value : IsText w) (others : AreMembers keys v) :
      AreMembers (key :: keys) ('"' :: (body ++ '"' :: ':' :: (w ++ ',' :: v)))

end

/-! ### Values -/

/-- No object in a value repeats a key. -/
inductive Value.Distinct : Value → Prop where
  | null : Distinct .null
  | bool (b : Bool) : Distinct (.bool b)
  | int (n : Int) : Distinct (.int n)
  | real (x : Decimal.Binary64) : Distinct (.real x)
  | string (s : String) : Distinct (.string s)
  | array {vs : List Value} (elements : ∀ v ∈ vs, v.Distinct) : Distinct (.array vs)
  | object {members : List (String × Value)} (keys : (members.map Prod.fst).Nodup)
      (values : ∀ m ∈ members, m.2.Distinct) : Distinct (.object members)

namespace Value.Distinct

attribute [simp] null bool int real string

@[simp] theorem array_iff {vs : List Value} : (Value.array vs).Distinct ↔ ∀ v ∈ vs, v.Distinct := by
  constructor
  · rintro (_ | _ | _ | _ | _ | elements)
    exact elements
  · exact .array

@[simp] theorem object_iff {members : List (String × Value)} :
    (Value.object members).Distinct ↔
      (members.map Prod.fst).Nodup ∧ ∀ m ∈ members, m.2.Distinct := by
  constructor
  · rintro (_ | _ | _ | _ | _ | _ | ⟨keys, values⟩)
    exact ⟨keys, values⟩
  · rintro ⟨keys, values⟩
    exact .object keys values

end Value.Distinct

variable {reals : Decimal.Binary64 → String}

/-- The compact form of a value is one text, whatever follows it. -/
def Value.Written (reals : Decimal.Binary64 → String) (v : Value) : Prop :=
  ∃ w, IsText w ∧ ∀ rest, v.compactOnto reals rest = w ++ rest

theorem quoted_append (s : String) (rest : List Char) :
    quoted s ++ rest = '"' :: (s.toList.flatMap escaped ++ '"' :: rest) := by
  simp [quoted]

/-- What follows the first element, whichever that is. -/
theorem exists_elements {vs : List Value} (written : ∀ v ∈ vs, v.Written reals) :
    ∃ w, (∀ u, IsText u → AreElements (u ++ w)) ∧ ∀ rest, compactElements reals vs rest = w ++ rest := by
  induction vs with
  | nil =>
    refine ⟨[], fun u value => ?_, fun rest => rfl⟩
    rw [List.append_nil]
    exact .one value
  | cons v vs ih =>
    obtain ⟨first, others⟩ := List.forall_mem_cons.mp written
    obtain ⟨u, value, same⟩ := first
    obtain ⟨w, elements, sameOthers⟩ := ih others
    refine ⟨',' :: (u ++ w), fun u' value' => .more value' (elements u value), fun rest => ?_⟩
    rw [compactElements, same, sameOthers, List.cons_append, List.append_assoc]

theorem exists_members {members : List (String × Value)} (written : ∀ m ∈ members, m.2.Written reals) :
    ∃ w, (∀ body key u, Spells body key → IsText u →
        AreMembers (key :: members.map (·.1.toList)) ('"' :: (body ++ '"' :: ':' :: (u ++ w)))) ∧
      ∀ rest, compactMembers reals members rest = w ++ rest := by
  induction members with
  | nil =>
    refine ⟨[], fun body key u spells value => ?_, fun rest => rfl⟩
    rw [List.append_nil]
    exact .one spells value
  | cons m members ih =>
    obtain ⟨name, v⟩ := m
    obtain ⟨first, others⟩ := List.forall_mem_cons.mp written
    obtain ⟨u, value, same⟩ : v.Written reals := first
    obtain ⟨w, tail, sameOthers⟩ := ih others
    refine ⟨',' :: '"' :: (name.toList.flatMap escaped ++ '"' :: ':' :: (u ++ w)),
      fun body key u' spells value' => ?_, fun rest => ?_⟩
    · exact .more spells value' (tail _ _ u (spells_escaped name.toList) value)
    · rw [compactMembers, same, sameOthers, quoted_append]
      simp

theorem Value.Distinct.exists_isText {v : Value} (distinct : v.Distinct) (writes : WritesReals reals) :
    v.Written reals := by
  induction distinct with
  | null => exact ⟨_, .word (by decide), fun rest => rfl⟩
  | bool b => exact ⟨_, .word (by cases b <;> decide), fun rest => rfl⟩
  | int n => exact ⟨_, .number (isNumber_shownInt n), fun rest => rfl⟩
  | real x =>
    rcases writes x with word | numeral
    · exact ⟨_, .word (by rw [word]; decide), fun rest => rfl⟩
    · exact ⟨_, .number numeral, fun rest => rfl⟩
  | string s =>
    refine ⟨_, .string (spells_escaped s.toList), fun rest => ?_⟩
    rw [compactOnto, quoted_append]
    simp
  | @array vs elements ih =>
    cases vs with
    | nil => exact ⟨_, .noElements, fun rest => rfl⟩
    | cons v vs =>
      obtain ⟨first, others⟩ := List.forall_mem_cons.mp ih
      obtain ⟨u, value, same⟩ := first
      obtain ⟨w, tail, sameOthers⟩ := exists_elements others
      refine ⟨_, .array (tail u value), fun rest => ?_⟩
      rw [compactOnto, same, sameOthers]
      simp
  | @object members keys values ih =>
    cases members with
    | nil => exact ⟨_, .noMembers, fun rest => rfl⟩
    | cons m members =>
      obtain ⟨name, v⟩ := m
      obtain ⟨first, others⟩ := List.forall_mem_cons.mp ih
      obtain ⟨u, value, same⟩ : v.Written reals := first
      obtain ⟨w, tail, sameOthers⟩ := exists_members others
      have apart : (name.toList :: members.map (·.1.toList)).Nodup := by
        have mapped := keys.map (f := String.toList) fun a b => String.toList_inj.mp
        rw [List.map_map] at mapped
        exact mapped
      refine ⟨_, .object (tail _ _ u (spells_escaped name.toList) value) apart, fun rest => ?_⟩
      rw [compactOnto, same, sameOthers, quoted_append]
      simp

end GameLang.Json
