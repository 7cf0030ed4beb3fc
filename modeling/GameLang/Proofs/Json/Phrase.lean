import GameLang.Proofs.Json.Grammar

/-!
# What a compact text decides

A value without the difference between what is written the same is a `Phrase`. Compact texts are the
same only if the phrases of their values are (`Value.Distinct.phrase_eq`).
-/

namespace GameLang.Json

/-- A value as it is written. Numbers, truth values and nothing are the characters of their text. -/
inductive Phrase where
  | plain (text : List Char)
  | string (text : String)
  | array (elements : List Phrase)
  | object (members : List (String × Phrase))

variable (reals : Decimal.Binary64 → String)

mutual

def Value.phrase : Value → Phrase
  | .null => .plain "null".toList
  | .bool b => .plain (boolText b).toList
  | .int n => .plain (Decimal.shownInt n).toList
  | .real x => .plain (reals x).toList
  | .string s => .string s
  | .array vs => .array (Value.phrases vs)
  | .object members => .object (Value.memberPhrases members)

def Value.phrases : List Value → List Phrase
  | [] => []
  | v :: vs => v.phrase :: Value.phrases vs

def Value.memberPhrases : List (String × Value) → List (String × Phrase)
  | [] => []
  | (key, v) :: members => (key, v.phrase) :: Value.memberPhrases members

end

theorem Value.phrases_eq_map (vs : List Value) : phrases reals vs = vs.map (phrase reals) := by
  induction vs with
  | nil => rfl
  | cons v vs ih => rw [phrases, ih, List.map_cons]

theorem Value.memberPhrases_eq_map (members : List (String × Value)) :
    memberPhrases reals members = members.map fun m => (m.1, m.2.phrase reals) := by
  induction members with
  | nil => rfl
  | cons m members ih => rw [memberPhrases, ih, List.map_cons]

namespace Phrase

mutual

def onto : Phrase → List Char → List Char
  | .plain w, rest => w ++ rest
  | .string s, rest => quoted s ++ rest
  | .array [], rest => '[' :: ']' :: rest
  | .array (p :: ps), rest => '[' :: p.onto (moreElements ps rest)
  | .object [], rest => '\x7b' :: '\x7d' :: rest
  | .object ((key, p) :: members), rest =>
    '\x7b' :: (quoted key ++ ':' :: p.onto (moreMembers members rest))

/-- The elements behind the first and the end of their array. -/
def moreElements : List Phrase → List Char → List Char
  | [], rest => ']' :: rest
  | p :: ps, rest => ',' :: p.onto (moreElements ps rest)

def moreMembers : List (String × Phrase) → List Char → List Char
  | [], rest => '\x7d' :: rest
  | (key, p) :: members, rest => ',' :: (quoted key ++ ':' :: p.onto (moreMembers members rest))

end

/-! ### Where a phrase ends -/

/-- The characters of what is not quoted or bracketed. -/
def isPlain (c : Char) : Bool := c.isAlphanum || c ∈ ['+', '-', '.']

/-- Nothing, or a character that ends a number. -/
def Ends (rest : List Char) : Prop := rest.head?.any isPlain = false

inductive Proper : Phrase → Prop where
  | plain {w : List Char} (nonempty : w ≠ []) (inside : ∀ c ∈ w, isPlain c = true) : Proper (.plain w)
  | string (s : String) : Proper (.string s)
  | array {ps : List Phrase} (elements : ∀ p ∈ ps, p.Proper) : Proper (.array ps)
  | object {members : List (String × Phrase)} (values : ∀ m ∈ members, m.2.Proper) :
      Proper (.object members)

/-- The character that a phrase opens with, unless it is plain. -/
def opening : Phrase → Option Char
  | plain _ => none
  | string _ => some '"'
  | array _ => some '['
  | object _ => some '\x7b'

variable {p q : Phrase} {r s : List Char}

theorem ends_moreElements (ps : List Phrase) (rest : List Char) : Ends (moreElements ps rest) := by
  cases ps with
  | nil => rfl
  | cons p ps => rfl

theorem ends_moreMembers (members : List (String × Phrase)) (rest : List Char) :
    Ends (moreMembers members rest) := by
  cases members with
  | nil => rfl
  | cons m members => rfl

theorem Proper.first (proper : p.Proper) (rest : List Char) :
    ∃ c tail, p.onto rest = c :: tail ∧ p.opening = if isPlain c then none else some c := by
  cases proper with
  | @plain w nonempty inside =>
    obtain ⟨c, tail, rfl⟩ := List.exists_cons_of_ne_nil nonempty
    exact ⟨c, tail ++ rest, rfl, (if_pos (inside c List.mem_cons_self)).symm⟩
  | string s => exact ⟨'"', _, quoted_append s rest, rfl⟩
  | @array ps elements =>
    cases ps with
    | nil => exact ⟨'[', _, rfl, rfl⟩
    | cons p ps => exact ⟨'[', _, rfl, rfl⟩
  | @object members values =>
    cases members with
    | nil => exact ⟨'\x7b', _, rfl, rfl⟩
    | cons m members => exact ⟨'\x7b', _, rfl, rfl⟩

theorem Proper.opening_eq (proper : p.Proper) (other : q.Proper) (same : p.onto r = q.onto s) :
    p.opening = q.opening := by
  obtain ⟨c, tail, first, opens⟩ := proper.first r
  obtain ⟨d, tail', second, opensOther⟩ := other.first s
  obtain ⟨rfl, -⟩ := List.cons.inj (first.symm.trans (same.trans second))
  rw [opens, opensOther]

/-- No phrase starts with what ends an array. -/
theorem Proper.onto_ne (proper : p.Proper) : p.onto r ≠ ']' :: s := by
  intro same
  obtain ⟨c, tail, first, opens⟩ := proper.first r
  obtain ⟨rfl, -⟩ := List.cons.inj (first.symm.trans same)
  have closes : p.opening = some ']' := opens
  cases p <;> simp [opening] at closes

/-! ### Texts of phrases -/

theorem flatMap_escaped_inj {text other : List Char}
    (same : text.flatMap escaped ++ '"' :: r = other.flatMap escaped ++ '"' :: s) :
    text = other ∧ r = s := by
  have quote (rest : List Char) : unescape? ('"' :: rest) = none := rfl
  induction text generalizing other with
  | nil =>
    cases other with
    | nil => exact ⟨rfl, (List.cons.inj same).2⟩
    | cons d other =>
      have read := congrArg unescape? same
      rw [List.flatMap_nil, List.nil_append, quote, List.flatMap_cons, List.append_assoc,
        unescape?_escaped] at read
      cases read
  | cons c text ih =>
    cases other with
    | nil =>
      have read := congrArg unescape? same
      rw [List.flatMap_nil, List.nil_append, quote, List.flatMap_cons, List.append_assoc,
        unescape?_escaped] at read
      cases read
    | cons d other =>
      have read := congrArg unescape? same
      rw [List.flatMap_cons, List.flatMap_cons, List.append_assoc, List.append_assoc,
        unescape?_escaped, unescape?_escaped] at read
      obtain ⟨rfl, tails⟩ := Prod.mk.inj (Option.some.inj read)
      obtain ⟨rfl, rest⟩ := ih tails
      exact ⟨rfl, rest⟩

theorem quoted_append_inj {key other : String} (same : quoted key ++ r = quoted other ++ s) :
    key = other ∧ r = s := by
  rw [quoted_append, quoted_append] at same
  obtain ⟨texts, rest⟩ := flatMap_escaped_inj (List.cons.inj same).2
  exact ⟨String.toList_inj.mp texts, rest⟩

/-- The text of a phrase, in front of different ones, is only that of itself. -/
def Decides (p : Phrase) : Prop :=
  ∀ q r s, q.Proper → Ends r → Ends s → p.onto r = q.onto s → p = q ∧ r = s

theorem moreElements_inj {ps qs : List Phrase} (decides : ∀ p ∈ ps, p.Decides)
    (proper : ∀ q ∈ qs, q.Proper) (same : moreElements ps r = moreElements qs s) : ps = qs ∧ r = s := by
  induction ps generalizing qs with
  | nil =>
    cases qs with
    | nil => exact ⟨rfl, (List.cons.inj same).2⟩
    | cons q qs => exact absurd (List.cons.inj same).1 (by decide)
  | cons p ps ih =>
    cases qs with
    | nil => exact absurd (List.cons.inj same).1 (by decide)
    | cons q qs =>
      obtain ⟨first, others⟩ := List.forall_mem_cons.mp decides
      obtain ⟨properFirst, properOthers⟩ := List.forall_mem_cons.mp proper
      obtain ⟨rfl, tails⟩ := first q _ _ properFirst (ends_moreElements ps r)
        (ends_moreElements qs s) (List.cons.inj same).2
      obtain ⟨rfl, rest⟩ := ih others properOthers tails
      exact ⟨rfl, rest⟩

theorem moreMembers_inj {ms ns : List (String × Phrase)} (decides : ∀ m ∈ ms, m.2.Decides)
    (proper : ∀ n ∈ ns, n.2.Proper) (same : moreMembers ms r = moreMembers ns s) :
    ms = ns ∧ r = s := by
  induction ms generalizing ns with
  | nil =>
    cases ns with
    | nil => exact ⟨rfl, (List.cons.inj same).2⟩
    | cons n ns => exact absurd (List.cons.inj same).1 (by decide)
  | cons m ms ih =>
    cases ns with
    | nil => exact absurd (List.cons.inj same).1 (by decide)
    | cons n ns =>
      obtain ⟨first, others⟩ := List.forall_mem_cons.mp decides
      obtain ⟨properFirst, properOthers⟩ := List.forall_mem_cons.mp proper
      obtain ⟨keys, values⟩ := quoted_append_inj (List.cons.inj same).2
      obtain ⟨phrases, tails⟩ := first n.2 _ _ properFirst (ends_moreMembers ms r)
        (ends_moreMembers ns s) (List.cons.inj values).2
      obtain ⟨rfl, rest⟩ := ih others properOthers tails
      rw [Prod.ext keys phrases]
      exact ⟨rfl, rest⟩

theorem Proper.decides (proper : p.Proper) : p.Decides := by
  induction proper with
  | @plain w nonempty inside =>
    intro q r s other ends endsOther same
    have opens := (Proper.plain nonempty inside).opening_eq other same
    cases other with
    | @plain w' nonempty' inside' =>
      obtain ⟨rfl, rest⟩ := run_append_inj inside inside' ends endsOther same
      exact ⟨rfl, rest⟩
    | _ => simp [opening] at opens
  | string text =>
    intro q r s other ends endsOther same
    have opens := (Proper.string text).opening_eq other same
    cases other with
    | string text' =>
      obtain ⟨rfl, rest⟩ := quoted_append_inj same
      exact ⟨rfl, rest⟩
    | _ => simp [opening] at opens
  | @array ps elements ih =>
    intro q r s other ends endsOther same
    have opens := (Proper.array elements).opening_eq other same
    cases other with
    | @array qs proper =>
      cases ps with
      | nil =>
        cases qs with
        | nil => exact ⟨rfl, (List.cons.inj (List.cons.inj same).2).2⟩
        | cons q qs => exact absurd (List.cons.inj same).2.symm (proper q List.mem_cons_self).onto_ne
      | cons p ps =>
        cases qs with
        | nil => exact absurd (List.cons.inj same).2 (elements p List.mem_cons_self).onto_ne
        | cons q qs =>
          -- A comma in front of both makes the first elements like the others.
          have all : moreElements (p :: ps) r = moreElements (q :: qs) s :=
            congrArg (',' :: ·) (List.cons.inj same).2
          obtain ⟨same, rest⟩ := moreElements_inj ih proper all
          exact ⟨congrArg Phrase.array same, rest⟩
    | _ => simp [opening] at opens
  | @object ms values ih =>
    intro q r s other ends endsOther same
    have opens := (Proper.object values).opening_eq other same
    cases other with
    | @object ns proper =>
      cases ms with
      | nil =>
        cases ns with
        | nil => exact ⟨rfl, (List.cons.inj (List.cons.inj same).2).2⟩
        | cons n ns => exact absurd (List.cons.inj (List.cons.inj same).2).1 (by decide)
      | cons m ms =>
        cases ns with
        | nil => exact absurd (List.cons.inj (List.cons.inj same).2).1 (by decide)
        | cons n ns =>
          have all : moreMembers (m :: ms) r = moreMembers (n :: ns) s :=
            congrArg (',' :: ·) (List.cons.inj same).2
          obtain ⟨same, rest⟩ := moreMembers_inj ih proper all
          exact ⟨congrArg Phrase.object same, rest⟩
    | _ => simp [opening] at opens

end Phrase

/-! ### Texts of values -/

theorem isPlain_of_mem {words : List (List Char)} {w : List Char}
    (plain : words.all (·.all Phrase.isPlain) = true) (known : w ∈ words) :
    ∀ c ∈ w, Phrase.isPlain c = true :=
  List.all_eq_true.mp (List.all_eq_true.mp plain w known)

theorem IsNumber.proper {w : List Char} (numeral : IsNumber w) : (Phrase.plain w).Proper := by
  obtain ⟨c, others, cons, -⟩ := numeral.first
  refine .plain (by simp [cons]) ?_
  have digit : ∀ c, c.isDigit = true → Phrase.isPlain c = true := fun c digit => by
    simp [Phrase.isPlain, Char.isAlphanum, digit]
  obtain ⟨sign, whole, fraction, exponent, rfl, signed, ⟨digits, -⟩, fractional, power⟩ := numeral
  refine List.forall_mem_append.mpr ⟨?_, List.forall_mem_append.mpr
    ⟨fun c member => digit c (digits.2 c member), List.forall_mem_append.mpr ⟨?_, ?_⟩⟩⟩
  · exact isPlain_of_mem (by decide) signed
  · rcases fractional with rfl | ⟨decimals, rfl, some⟩
    · exact List.forall_mem_nil _
    · exact List.forall_mem_cons.mpr ⟨rfl, fun c member => digit c (some.2 c member)⟩
  · rcases power with rfl | ⟨mark, sign, digits, rfl, marked, signed, some⟩
    · exact List.forall_mem_nil _
    · refine List.forall_mem_cons.mpr ⟨?_, List.forall_mem_append.mpr
        ⟨?_, fun c member => digit c (some.2 c member)⟩⟩
      · exact List.all_eq_true.mp (by decide : ['e', 'E'].all Phrase.isPlain = true) mark marked
      · exact isPlain_of_mem (by decide) signed

namespace Value

open Phrase

/-- A value is written as its phrase. -/
def Phrased (reals : Decimal.Binary64 → String) (v : Value) : Prop :=
  (v.phrase reals).Proper ∧ ∀ rest, v.compactOnto reals rest = (v.phrase reals).onto rest

variable {reals : Decimal.Binary64 → String}

theorem phrased_elements {vs : List Value} (phrased : ∀ v ∈ vs, v.Phrased reals) (rest : List Char) :
    compactElements reals vs (']' :: rest) = moreElements (phrases reals vs) rest := by
  induction vs with
  | nil => rfl
  | cons v vs ih =>
    obtain ⟨⟨-, first⟩, others⟩ := List.forall_mem_cons.mp phrased
    rw [compactElements, first, ih others, phrases, moreElements]

theorem phrased_members {members : List (String × Value)} (phrased : ∀ m ∈ members, m.2.Phrased reals)
    (rest : List Char) :
    compactMembers reals members ('\x7d' :: rest) = moreMembers (memberPhrases reals members) rest := by
  induction members with
  | nil => rfl
  | cons m members ih =>
    obtain ⟨key, v⟩ := m
    obtain ⟨first, others⟩ := List.forall_mem_cons.mp phrased
    have same : ∀ rest, v.compactOnto reals rest = (v.phrase reals).onto rest := first.2
    rw [compactMembers, same, ih others, memberPhrases, moreMembers]

theorem phrased_of_plain {w : List Char} {v : Value} (proper : (Phrase.plain w).Proper)
    (same : v.phrase reals = .plain w) (text : ∀ rest, v.compactOnto reals rest = w ++ rest) :
    v.Phrased reals := by
  refine ⟨by rw [same]; exact proper, fun rest => ?_⟩
  rw [same, text]
  rfl

theorem proper_word {w : List Char} (known : w ∈ ["null".toList, "true".toList, "false".toList]) :
    (Phrase.plain w).Proper := by
  have nonempty : ∀ w ∈ ["null".toList, "true".toList, "false".toList], w ≠ [] := by decide
  exact .plain (nonempty w known) (isPlain_of_mem (by decide) known)

theorem Distinct.phrased {v : Value} (distinct : v.Distinct) (writes : WritesReals reals) :
    v.Phrased reals := by
  induction distinct with
  | null => exact phrased_of_plain (proper_word (by decide)) rfl fun rest => rfl
  | bool b => exact phrased_of_plain (proper_word (by cases b <;> decide)) rfl fun rest => rfl
  | int n => exact phrased_of_plain (isNumber_shownInt n).proper rfl fun rest => rfl
  | real x =>
    refine phrased_of_plain ?_ rfl fun rest => rfl
    rcases writes x with word | numeral
    · rw [word]
      exact proper_word (by decide)
    · exact numeral.proper
  | string s => exact ⟨.string s, fun rest => rfl⟩
  | @array vs elements ih =>
    refine ⟨.array ?_, fun rest => ?_⟩
    · rw [phrases_eq_map, List.forall_mem_map]
      exact fun v member => (ih v member).1
    · cases vs with
      | nil => rfl
      | cons v vs =>
        obtain ⟨⟨-, first⟩, others⟩ := List.forall_mem_cons.mp ih
        rw [compactOnto, first, phrased_elements others]
        rfl
  | @object members keys values ih =>
    refine ⟨.object ?_, fun rest => ?_⟩
    · rw [memberPhrases_eq_map, List.forall_mem_map]
      exact fun m member => (ih m member).1
    · cases members with
      | nil => rfl
      | cons m members =>
        obtain ⟨key, v⟩ := m
        obtain ⟨first, others⟩ := List.forall_mem_cons.mp ih
        have same : ∀ rest, v.compactOnto reals rest = (v.phrase reals).onto rest := first.2
        rw [compactOnto, same, phrased_members others]
        rfl

/-- Values with the same compact text have the same phrase. -/
theorem Distinct.phrase_eq {v w : Value} (distinct : v.Distinct) (other : w.Distinct)
    (writes : WritesReals reals) (same : v.compactWith reals = w.compactWith reals) :
    v.phrase reals = w.phrase reals := by
  have texts : v.compactOnto reals [] = w.compactOnto reals [] := String.ofList_inj.mp same
  obtain ⟨proper, written⟩ := distinct.phrased writes
  obtain ⟨properOther, writtenOther⟩ := other.phrased writes
  rw [written, writtenOther] at texts
  exact (proper.decides _ [] [] properOther rfl rfl texts).1

end Value

end GameLang.Json
