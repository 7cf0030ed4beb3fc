import GameLang.Proofs.Lexing.Spelling
import GameLang.Proofs.Rows
import GameLang.Tree.Outline

/-!
# Reading an outline back

The spaces at the start of a line of an outline tell the depth of its node, the word behind them its
label, and the rest up to the end of the line the text of its token (`Entry.line_append_inj`). The
depths of all lines tell how the nodes are nested (`Node.eq_of_entries`). So nodes whose tokens are
decided by their texts are decided by their outlines (`Node.eq_of_outline_eq`).
-/

namespace GameLang

/-! ### Tokens that are decided by their texts -/

/-- A word or the end token, without a place. -/
def Token.Legible (t : Token) : Prop := t.unplaced = t ∧ (t.IsWord ∨ t = Token.ending .start)

namespace Token.Legible

variable {t u : Token}

theorem lineFeed_not_mem (legible : t.Legible) : '\n' ∉ t.lexeme.toList := by
  obtain ⟨-, isWord | rfl⟩ := legible
  · exact GameLang.IsWord.lineFeed_not_mem isWord
  · decide

theorem eq_of_lexeme_eq (legible : t.Legible) (other : u.Legible) (same : t.lexeme = u.lexeme) :
    t = u := by
  obtain ⟨unplaced, isWord | rfl⟩ := legible
  · obtain ⟨unplacedOther, also | rfl⟩ := other
    · unfold Token.IsWord at isWord also
      rw [← same] at also
      obtain ⟨kind, literal⟩ := isWord.unique also
      rw [← unplaced, ← unplacedOther, Token.unplaced, Token.unplaced, same, kind, literal]
    · exact absurd (congrArg String.toList same) (GameLang.IsWord.ne_endLexeme isWord)
  · obtain ⟨-, also | rfl⟩ := other
    · exact absurd (congrArg String.toList same.symm) (GameLang.IsWord.ne_endLexeme also)
    · rfl

end Token.Legible

/-! ### One line -/

namespace Label

def all : List Label :=
  [program, function, param, type, dim, varDecl, block, assign, branch, loop, result, expression, empty,
    literal, ident, index, group, call, unary, binary]

theorem mem_all (l : Label) : l ∈ all := by cases l <;> decide

theorem name_injective {l m : Label} (same : l.name = m.name) : l = m := by
  have distinct : ∀ l ∈ all, ∀ m ∈ all, l.name = m.name → l = m := by decide +kernel
  exact distinct l l.mem_all m m.mem_all same

theorem name_chars (l : Label) : l.name.toList ≠ [] ∧ ∀ c ∈ l.name.toList, c ≠ ' ' ∧ c ≠ '\n' := by
  cases l <;> simp [name]

end Label

namespace Entry

/-- The end of a line of an outline: the text of the token, if there is one. -/
def ending (e : Entry) : List Char :=
  match e.token with
  | some t => ' ' :: t.lexeme.toList
  | none => []

theorem toList_line (e : Entry) : e.line.toList =
    List.replicate (2 * e.depth) ' ' ++ (e.label.name.toList ++ (e.ending ++ ['\n'])) := by
  unfold line ending
  cases e.token with
  | none => simp
  | some t => simp

/-- The token of an entry can be read from its text. -/
def Legible (e : Entry) : Prop := ∀ t ∈ e.token, t.Legible

/-- An entry without the number of its parts. -/
def face (e : Entry) : Nat × Label × Option Token := (e.depth, e.label, e.token)

variable {e f : Entry}

theorem Legible.lineFeed_not_mem (legible : e.Legible) : '\n' ∉ e.ending := by
  unfold ending
  cases found : e.token with
  | none => simp
  | some t =>
    have inLine := (legible t found).lineFeed_not_mem
    simp [inLine]

theorem Legible.token_eq (legible : e.Legible) (other : f.Legible) (same : e.ending = f.ending) :
    e.token = f.token := by
  unfold ending at same
  cases found : e.token with
  | none =>
    cases foundOther : f.token with
    | none => rfl
    | some u => simp [found, foundOther] at same
  | some t =>
    cases foundOther : f.token with
    | none => simp [found, foundOther] at same
    | some u =>
      have same : t.lexeme.toList = u.lexeme.toList := by simpa [found, foundOther] using same
      have same := String.toList_inj.mp same
      rw [(legible t found).eq_of_lexeme_eq (other u foundOther) same]

/-- Two texts that start with lines of outlines start with the same line. -/
theorem line_append_inj (legible : e.Legible) (other : f.Legible) {back back' : List Char}
    (same : e.line.toList ++ back = f.line.toList ++ back') : e.face = f.face ∧ back = back' := by
  have letters (l : Label) : ∀ c ∈ l.name.toList, decide (c ≠ ' ' ∧ c ≠ '\n') = true :=
    fun c member => decide_eq_true (l.name_chars.2 c member)
  have named (l : Label) (rest : List Char) :
      (l.name.toList ++ rest).head?.any (fun c => decide (c = ' ')) = false := by
    obtain ⟨c, name, spelled⟩ := List.exists_cons_of_ne_nil l.name_chars.1
    have first := (l.name_chars.2 c (by simp [spelled])).1
    simp [spelled, first]
  have behind (g : Entry) (rest : List Char) :
      (g.ending ++ '\n' :: rest).head?.any (fun c => decide (c ≠ ' ' ∧ c ≠ '\n')) = false := by
    unfold ending
    cases g.token <;> simp
  -- The spaces, the name and the rest of the line are runs, each ended by a character of no such run.
  simp only [toList_line, List.append_assoc, List.singleton_append] at same
  obtain ⟨indent, same⟩ :=
    run_append_inj (run_replicate _ ' ') (run_replicate _ ' ') (named _ _) (named _ _) same
  obtain ⟨label, same⟩ := run_append_inj (letters _) (letters _) (behind _ _) (behind _ _) same
  obtain ⟨shown, same⟩ :=
    Text.row_append_inj legible.lineFeed_not_mem other.lineFeed_not_mem same
  have depth : e.depth = f.depth := by
    have length := congrArg List.length indent
    rw [List.length_replicate, List.length_replicate] at length
    omega
  have label : e.label = f.label := Label.name_injective (String.toList_inj.mp label)
  refine ⟨?_, same⟩
  rw [face, face, depth, label, legible.token_eq other shown]

theorem map_face_eq_of_lines {es fs : List Entry} (legible : ∀ e ∈ es, e.Legible)
    (other : ∀ f ∈ fs, f.Legible)
    (same : es.flatMap (fun e => e.line.toList) = fs.flatMap (fun f => f.line.toList)) :
    es.map face = fs.map face := by
  induction es generalizing fs with
  | nil =>
    cases fs with
    | nil => rfl
    | cons f fs => simp [toList_line] at same
  | cons e es ih =>
    cases fs with
    | nil => simp [toList_line] at same
    | cons f fs =>
      obtain ⟨first, legible⟩ := List.forall_mem_cons.mp legible
      obtain ⟨firstOther, other⟩ := List.forall_mem_cons.mp other
      rw [List.flatMap_cons, List.flatMap_cons] at same
      obtain ⟨face, same⟩ := line_append_inj first firstOther same
      rw [List.map_cons, List.map_cons, face, ih legible other same]

end Entry

/-! ### Nested nodes -/

namespace Node

theorem depth_of_head? {depth : Nat} {n : Node} {rest : List Entry} :
    ∀ e ∈ (n.entriesOnto depth rest).head?, e.depth = depth := by
  obtain ⟨label, token, children⟩ := n
  rintro e ⟨⟩
  rfl

/-- Behind a list of siblings there is nothing as deep. -/
theorem depth_of_siblings {depth : Nat} {ns : List Node} {rest : List Entry}
    (out : ∀ e ∈ rest.head?, e.depth < depth) :
    ∀ e ∈ (childEntriesOnto depth ns rest).head?, e.depth ≤ depth := by
  cases ns with
  | nil => exact fun e member => Nat.le_of_lt (out e member)
  | cons n ns => exact fun e member => Nat.le_of_eq (depth_of_head? e member)

/-- A list that starts with a node is no list of entries that are less deep. -/
theorem face_ne {depth : Nat} {n : Node} {rest back : List Entry}
    (out : ∀ e ∈ rest.head?, e.depth < depth) :
    rest.map Entry.face ≠ (n.entriesOnto depth back).map Entry.face := by
  obtain ⟨label, token, children⟩ := n
  intro same
  cases rest with
  | nil => simp [entriesOnto] at same
  | cons e rest =>
    have first : e.face.1 = depth := congrArg Prod.fst (List.cons.inj same).1
    exact Nat.ne_of_lt (out e rfl) first

mutual

/-- A node can be told from the entries that start with its own, if no deeper one follows. -/
theorem eq_of_entries {depth : Nat} {n m : Node} {rest rest' : List Entry}
    (out : ∀ e ∈ rest.head?, e.depth ≤ depth) (out' : ∀ e ∈ rest'.head?, e.depth ≤ depth)
    (same : (n.entriesOnto depth rest).map Entry.face = (m.entriesOnto depth rest').map Entry.face) :
    n = m ∧ rest.map Entry.face = rest'.map Entry.face := by
  cases n with
  | mk label token children =>
    cases m with
    | mk label' token' children' =>
      -- What follows the parts is at most as deep as the node, so it is less deep than they are.
      rw [entriesOnto, entriesOnto, List.map_cons, List.map_cons] at same
      obtain ⟨first, others⟩ := List.cons.inj same
      obtain ⟨rfl, rfl⟩ : label = label' ∧ token = token' := by simpa [Entry.face] using first
      obtain ⟨rfl, behind⟩ := eq_of_childEntries (fun e member => Nat.lt_succ_of_le (out e member))
        (fun e member => Nat.lt_succ_of_le (out' e member)) others
      exact ⟨rfl, behind⟩

theorem eq_of_childEntries {depth : Nat} {ns ms : List Node} {rest rest' : List Entry}
    (out : ∀ e ∈ rest.head?, e.depth < depth) (out' : ∀ e ∈ rest'.head?, e.depth < depth)
    (same : (childEntriesOnto depth ns rest).map Entry.face =
      (childEntriesOnto depth ms rest').map Entry.face) :
    ns = ms ∧ rest.map Entry.face = rest'.map Entry.face := by
  cases ns with
  | nil =>
    cases ms with
    | nil => exact ⟨rfl, same⟩
    | cons m ms => exact absurd same (face_ne out)
  | cons n ns =>
    cases ms with
    | nil => exact absurd same.symm (face_ne out')
    | cons m ms =>
      obtain ⟨rfl, others⟩ := eq_of_entries (depth_of_siblings out) (depth_of_siblings out') same
      obtain ⟨rfl, behind⟩ := eq_of_childEntries out out' others
      exact ⟨rfl, behind⟩

end

def Legible (n : Node) : Prop := ∀ e ∈ n.entries, e.Legible

/-- Nodes with the same outline are the same. -/
theorem eq_of_outline_eq {n m : Node} (legible : n.Legible) (other : m.Legible)
    (same : n.outline = m.outline) : n = m := by
  have chars (n : Node) : n.outline.toList = n.entries.flatMap fun e => e.line.toList := by
    simp [outline, List.flatMap_map]
  have same : n.entries.map Entry.face = m.entries.map Entry.face := by
    apply Entry.map_face_eq_of_lines legible other
    rw [← chars, ← chars, same]
  have nothing : ∀ e ∈ ([] : List Entry).head?, e.depth ≤ 0 := by simp
  exact (eq_of_entries nothing nothing same).1

end Node

end GameLang
