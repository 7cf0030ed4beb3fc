import GameLang.Json.Tree
import GameLang.Proofs.Json.Phrase
import GameLang.Proofs.Json.Worded

/-!
# What the JSON of a program decides

The compact JSON of a program that was read is well-formed, and no other program that was read has it
(`Source.json_lossless`). Objects are taken apart member by member, in the order of the members.
-/

namespace GameLang

open Json

variable {reals : Decimal.Binary64 → String}

/-! ### Keys -/

@[simp] theorem Literal.json_distinct (v : Literal) : v.json.Distinct := by
  cases v <;> simp [json]

@[simp] theorem Span.json_distinct (s : Span) : s.json.Distinct := by simp [json]

@[simp] theorem Token.json_distinct (t : Token) : t.json.Distinct := by
  unfold json
  cases t.literal with
  | none => simp
  | some v => simp

namespace Expr

theorem jsonList_eq_map (es : List Expr) : jsonList es = es.map json := by
  induction es with
  | nil => rfl
  | cons e es ih => rw [jsonList, ih, List.map_cons]

@[simp] theorem json_distinct (e : Expr) : e.json.Distinct := by
  induction e using Expr.induction with
  | literal t v => simp [json]
  | ident t => simp [json]
  | index t es ih => simpa [json, jsonList_eq_map] using ih
  | group e ih => simpa [json] using ih
  | call t es ih => simpa [json, jsonList_eq_map] using ih
  | unary op t e ih => simpa [json] using ih
  | binary l op t r ihl ihr => simp [json, ihl, ihr]

@[simp] theorem optionJson_distinct (e : Option Expr) : (optionJson e).Distinct := by
  cases e <;> simp [optionJson]

end Expr

@[simp] theorem TypeRef.json_distinct (t : TypeRef) : t.json.Distinct := by simp [json]

theorem Stmt.jsonList_eq_map (ss : List Stmt) : jsonList ss = ss.map json := by
  induction ss with
  | nil => rfl
  | cons s ss ih => rw [jsonList, ih, List.map_cons]

theorem Block.jsonMembers_eq (b : Block) :
    b.jsonMembers =
      [("open", b.opener.json), ("statements", .array (b.statements.map Stmt.json))] := by
  cases b with
  | mk opener statements => rw [jsonMembers, Stmt.jsonList_eq_map]

@[simp] theorem Stmt.json_distinct (s : Stmt) : s.json.Distinct := by
  induction s using Stmt.induction with
  | varDecl d => simp [json, VarDecl.jsonMembers]
  | assign target value => simp [json]
  | branch t c b other ihThen ihElse =>
    cases other with
    | none => simpa [json, Block.jsonMembers_eq] using ihThen
    | some other => simpa [json, Block.jsonMembers_eq] using ⟨ihThen, ihElse other rfl⟩
  | loop t c s ih => simpa [json] using ih
  | result t e => simp [json]
  | block b ih => simpa [json, Block.jsonMembers_eq] using ih
  | expression e => simp [json]
  | empty t => simp [json]

@[simp] theorem Param.json_distinct (p : Param) : p.json.Distinct := by simp [json]

@[simp] theorem Item.json_distinct (item : Item) : item.json.Distinct := by
  cases item <;> simp [json, VarDecl.jsonMembers, Stmt.jsonList_eq_map]

theorem Program.json_distinct (p : Program) : p.json.Distinct := by simp [json]

/-! ### Members -/

namespace Json.Phrase

variable {key other : String} {p q : Phrase} {ms ns : List (String × Phrase)}

theorem member_inj (same : object ((key, p) :: ms) = object ((other, q) :: ns)) :
    p = q ∧ object ms = object ns := by
  obtain ⟨first, others⟩ := List.cons.inj (object.inj same)
  exact ⟨(Prod.mk.inj first).2, congrArg object others⟩

/-- Forms are kept apart by what names them. -/
theorem form_eq {form otherForm : String}
    (same : object ((key, .string form) :: ms) = object ((other, .string otherForm) :: ns)) :
    form = otherForm := string.inj (member_inj same).1

theorem elements_inj {α : Type} {json : α → Value} {as bs : List α}
    (inj : ∀ a ∈ as, ∀ b ∈ bs, (json a).phrase reals = (json b).phrase reals → a = b)
    (same : (Value.array (as.map json)).phrase reals = (Value.array (bs.map json)).phrase reals) :
    as = bs := by
  have phrases := array.inj same
  rw [Value.phrases_eq_map, Value.phrases_eq_map, List.map_map, List.map_map] at phrases
  exact eq_of_map_eq inj phrases

theorem shownInt_inj {m n : Nat}
    (same : plain (Decimal.shownInt m).toList = plain (Decimal.shownInt n).toList) : m = n := by
  have digits (k : Nat) : (Decimal.shownInt k).toList = Decimal.digitsOf k := by
    rw [Decimal.shownInt, if_neg (by omega), Int.natAbs_natCast, Decimal.shownNat,
      String.toList_ofList]
  rw [digits, digits] at same
  rw [← Decimal.ofDigits_digitsOf m, plain.inj same, Decimal.ofDigits_digitsOf]

end Json.Phrase

open Phrase

theorem Span.eq_of_phrase_eq {s t : Span} (same : s.json.phrase reals = t.json.phrase reals) : s = t := by
  obtain ⟨line, same⟩ := member_inj same
  obtain ⟨first, same⟩ := member_inj same
  obtain ⟨last, -⟩ := member_inj same
  cases s
  cases t
  rw [Span.mk.injEq]
  exact ⟨shownInt_inj line, shownInt_inj first, shownInt_inj last⟩

/-- The text of a word decides its kind and its value. -/
theorem Token.eq_of_phrase_eq {t u : Token} (word : t.IsWord) (other : u.IsWord)
    (same : t.json.phrase reals = u.json.phrase reals) : t = u := by
  obtain ⟨kind, lexeme, literal, span⟩ := t
  obtain ⟨kind', lexeme', literal', span'⟩ := u
  obtain ⟨-, same⟩ := member_inj same
  obtain ⟨text, same⟩ := member_inj same
  obtain rfl : lexeme = lexeme' := Phrase.string.inj text
  -- A character and a text have the same JSON: what decides the value is the text of the token.
  obtain ⟨rfl, rfl⟩ : kind' = kind ∧ literal' = literal := IsWord.unique word other
  cases literal' with
  | none =>
    obtain rfl : span = span' := Span.eq_of_phrase_eq (member_inj same).1
    rfl
  | some v =>
    obtain ⟨-, same⟩ := member_inj same
    obtain rfl : span = span' := Span.eq_of_phrase_eq (member_inj same).1
    rfl

/-! ### Expressions -/

theorem UnOp.name_injective {op other : UnOp} (same : op.name = other.name) : op = other := by
  have all (op : UnOp) : op ∈ [neg, not] := by cases op <;> decide
  exact List.inj_on_of_nodup_map (by decide) (all op) (all other) same

theorem BinOp.name_injective {op other : BinOp} (same : op.name = other.name) : op = other := by
  have all (op : BinOp) : op ∈ [add, sub, mul, div, mod, eq, ne, lt, le, gt, ge, and, or] := by
    cases op <;> decide
  exact List.inj_on_of_nodup_map (by decide +kernel) (all op) (all other) same

namespace Expr

theorem eq_of_phrases_eq {es ds : List Expr}
    (inj : ∀ e ∈ es, ∀ d ∈ ds, e.json.phrase reals = d.json.phrase reals → e = d)
    (same : (Value.array (jsonList es)).phrase reals = (Value.array (jsonList ds)).phrase reals) :
    es = ds := by
  rw [jsonList_eq_map, jsonList_eq_map] at same
  exact elements_inj inj same

/-- The JSON of words is that of one expression. -/
theorem eq_of_phrase_eq {e d : Expr} (worded : e.Worded) (other : d.Worded)
    (same : e.json.phrase reals = d.json.phrase reals) : e = d := by
  -- Two different forms differ in their first members, which closes their case.
  induction worded generalizing d with
  | literal word value =>
    cases other with
    | literal word' value' =>
      obtain ⟨token, -⟩ := member_inj (member_inj same).2
      obtain rfl := Token.eq_of_phrase_eq word word' token
      rw [Option.some.inj (value.symm.trans value')]
    | _ => exact absurd (form_eq same) (by decide)
  | ident word =>
    cases other with
    | ident word' =>
      obtain ⟨token, -⟩ := member_inj (member_inj same).2
      rw [Token.eq_of_phrase_eq word word' token]
    | _ => exact absurd (form_eq same) (by decide)
  | index word indices ih =>
    cases other with
    | index word' indices' =>
      obtain ⟨token, same⟩ := member_inj (member_inj same).2
      rw [Token.eq_of_phrase_eq word word' token, eq_of_phrases_eq (fun e inside d within =>
        ih e inside (indices' d within)) (member_inj same).1]
    | _ => exact absurd (form_eq same) (by decide)
  | group inner ih =>
    cases other with
    | group inner' =>
      obtain ⟨content, -⟩ := member_inj (member_inj same).2
      rw [ih inner' content]
    | _ => exact absurd (form_eq same) (by decide)
  | call word args ih =>
    cases other with
    | call word' args' =>
      obtain ⟨token, same⟩ := member_inj (member_inj same).2
      rw [Token.eq_of_phrase_eq word word' token, eq_of_phrases_eq (fun e inside d within =>
        ih e inside (args' d within)) (member_inj same).1]
    | _ => exact absurd (form_eq same) (by decide)
  | unary word operand ih =>
    cases other with
    | unary word' operand' =>
      obtain ⟨name, same⟩ := member_inj (member_inj same).2
      obtain ⟨token, same⟩ := member_inj same
      rw [UnOp.name_injective (Phrase.string.inj name), Token.eq_of_phrase_eq word word' token,
        ih operand' (member_inj same).1]
    | _ => exact absurd (form_eq same) (by decide)
  | binary left word right ihl ihr =>
    cases other with
    | binary left' word' right' =>
      obtain ⟨first, same⟩ := member_inj (member_inj same).2
      obtain ⟨name, same⟩ := member_inj same
      obtain ⟨token, same⟩ := member_inj same
      rw [ihl left' first, BinOp.name_injective (Phrase.string.inj name),
        Token.eq_of_phrase_eq word word' token, ihr right' (member_inj same).1]
    | _ => exact absurd (form_eq same) (by decide)

theorem exists_json (e : Expr) : ∃ members, e.json = .object members := by
  cases e <;> exact ⟨_, rfl⟩

/-- What is absent is no object. -/
theorem eq_of_optionPhrase_eq {e d : Option Expr} (worded : ∀ x ∈ e, x.Worded)
    (other : ∀ x ∈ d, x.Worded) (same : (optionJson e).phrase reals = (optionJson d).phrase reals) :
    e = d := by
  cases e with
  | none =>
    cases d with
    | none => rfl
    | some d =>
      obtain ⟨members, object⟩ := d.exists_json
      rw [optionJson, optionJson, object] at same
      cases same
  | some e =>
    cases d with
    | none =>
      obtain ⟨members, object⟩ := e.exists_json
      rw [optionJson, optionJson, object] at same
      cases same
    | some d => rw [eq_of_phrase_eq (worded e rfl) (other d rfl) same]

end Expr

/-! ### Declarations -/

theorem TypeKind.name_injective {k l : TypeKind} (same : k.name = l.name) : k = l := by
  have all (k : TypeKind) : k ∈ [int, real, char, text, bool, void, array] := by cases k <;> decide
  exact List.inj_on_of_nodup_map (by decide +kernel) (all k) (all l) same

theorem TypeRef.eq_of_phrase_eq {t u : TypeRef} (worded : t.Worded) (other : u.Worded)
    (same : t.json.phrase reals = u.json.phrase reals) : t = u := by
  obtain ⟨kind, same⟩ := member_inj same
  obtain ⟨token, same⟩ := member_inj same
  obtain ⟨rank, same⟩ := member_inj same
  obtain ⟨dims, -⟩ := member_inj same
  have sizes := elements_inj (fun size inside size' within => Expr.eq_of_optionPhrase_eq
    (worded.sizes size inside) (other.sizes size' within)) dims
  cases t
  cases u
  rw [TypeRef.mk.injEq]
  exact ⟨TypeKind.name_injective (Phrase.string.inj kind),
    Token.eq_of_phrase_eq worded.word other.word token, shownInt_inj rank, sizes⟩

theorem VarDecl.eq_of_phrase_eq {d c : VarDecl} (worded : d.Worded) (other : c.Worded)
    (same : (Value.object d.jsonMembers).phrase reals = (Value.object c.jsonMembers).phrase reals) :
    d = c := by
  obtain ⟨keyword, same⟩ := member_inj same
  obtain ⟨type, same⟩ := member_inj same
  obtain ⟨name, same⟩ := member_inj same
  obtain ⟨init, -⟩ := member_inj same
  cases d
  cases c
  rw [VarDecl.mk.injEq]
  exact ⟨Token.eq_of_phrase_eq worded.keyword other.keyword keyword,
    TypeRef.eq_of_phrase_eq worded.type other.type type,
    Token.eq_of_phrase_eq worded.name other.name name,
    Expr.eq_of_optionPhrase_eq worded.init other.init init⟩

/-! ### Statements -/

theorem Block.eq_of_phrase_eq {b c : Block} (opener : b.opener.IsWord) (opener' : c.opener.IsWord)
    (inj : ∀ s ∈ b.statements, ∀ t ∈ c.statements, s.json.phrase reals = t.json.phrase reals → s = t)
    (same : (Value.object b.jsonMembers).phrase reals = (Value.object c.jsonMembers).phrase reals) :
    b = c := by
  rw [jsonMembers_eq, jsonMembers_eq] at same
  obtain ⟨token, same⟩ := member_inj same
  obtain ⟨statements, -⟩ := member_inj same
  cases b
  cases c
  rw [Block.mk.injEq]
  exact ⟨Token.eq_of_phrase_eq opener opener' token, elements_inj inj statements⟩

namespace Stmt

theorem json_branch (t : Token) (c : Expr) (b : Block) (other : Option Block) :
    (branch t c b other).json = .object [("stmt", .string "If"), ("keyword", t.json),
      ("condition", c.json), ("then_branch", .object b.jsonMembers),
      ("else_branch", other.elim .null fun o => .object o.jsonMembers)] := by
  cases other <;> rfl

def form : Stmt → String
  | .varDecl _ => "VarDecl"
  | .assign _ _ => "Assign"
  | .branch _ _ _ _ => "If"
  | .loop _ _ _ => "While"
  | .result _ _ => "Return"
  | .block _ => "Block"
  | .expression _ => "Expression"
  | .empty _ => "Empty"

theorem exists_json (s : Stmt) : ∃ members, s.json = .object (("stmt", .string s.form) :: members) := by
  cases s with
  | branch t c b other => exact ⟨_, json_branch t c b other⟩
  | _ => exact ⟨_, rfl⟩

theorem form_eq {s t : Stmt} (same : s.json.phrase reals = t.json.phrase reals) : s.form = t.form := by
  obtain ⟨members, object⟩ := s.exists_json
  obtain ⟨members', object'⟩ := t.exists_json
  rw [object, object'] at same
  exact Phrase.form_eq same

/-- The JSON of words is that of one statement. -/
theorem eq_of_phrase_eq {s t : Stmt} (worded : s.Worded) (other : t.Worded)
    (same : s.json.phrase reals = t.json.phrase reals) : s = t := by
  induction worded generalizing t with
  | varDecl decl =>
    cases other with
    | varDecl decl' => rw [VarDecl.eq_of_phrase_eq decl decl' (member_inj same).2]
    | _ => exact absurd (form_eq same) (by simp [form])
  | assign left right =>
    cases other with
    | assign left' right' =>
      obtain ⟨target, same⟩ := member_inj (member_inj same).2
      rw [Expr.eq_of_phrase_eq left left' target,
        Expr.eq_of_phrase_eq right right' (member_inj same).1]
    | _ => exact absurd (form_eq same) (by simp [form])
  | @branch t c b o word condition opener thenBlock openers elseBlock ihThen ihElse =>
    cases other with
    | @branch t' c' b' o' word' condition' opener' thenBlock' openers' elseBlock' =>
      rw [json_branch, json_branch] at same
      obtain ⟨token, same⟩ := member_inj (member_inj same).2
      obtain ⟨ahead, same⟩ := member_inj same
      obtain ⟨first, same⟩ := member_inj same
      obtain ⟨second, -⟩ := member_inj same
      have others : o = o' := by
        cases o with
        | none =>
          cases o' with
          | none => rfl
          | some d => cases second
        | some d =>
          cases o' with
          | none => cases second
          | some d' =>
            rw [Block.eq_of_phrase_eq (openers d rfl) (openers' d' rfl) (fun s inside t within =>
              ihElse d rfl s inside (elseBlock' d' rfl t within)) second]
      rw [Token.eq_of_phrase_eq word word' token, Expr.eq_of_phrase_eq condition condition' ahead,
        Block.eq_of_phrase_eq opener opener' (fun s inside t within =>
          ihThen s inside (thenBlock' t within)) first, others]
    | _ => exact absurd (form_eq same) (by simp [form])
  | loop word condition body ih =>
    cases other with
    | loop word' condition' body' =>
      obtain ⟨token, same⟩ := member_inj (member_inj same).2
      obtain ⟨ahead, same⟩ := member_inj same
      rw [Token.eq_of_phrase_eq word word' token, Expr.eq_of_phrase_eq condition condition' ahead,
        ih body' (member_inj same).1]
    | _ => exact absurd (form_eq same) (by simp [form])
  | result word value =>
    cases other with
    | result word' value' =>
      obtain ⟨token, same⟩ := member_inj (member_inj same).2
      rw [Token.eq_of_phrase_eq word word' token,
        Expr.eq_of_phrase_eq value value' (member_inj same).1]
    | _ => exact absurd (form_eq same) (by simp [form])
  | block opener statements ih =>
    cases other with
    | block opener' statements' =>
      rw [Block.eq_of_phrase_eq opener opener' (fun s inside t within =>
        ih s inside (statements' t within)) (member_inj same).2]
    | _ => exact absurd (form_eq same) (by simp [form])
  | expression command =>
    cases other with
    | expression command' =>
      obtain ⟨inner, -⟩ := member_inj (member_inj same).2
      rw [Expr.eq_of_phrase_eq command command' inner]
    | _ => exact absurd (form_eq same) (by simp [form])
  | empty word =>
    cases other with
    | empty word' =>
      obtain ⟨token, -⟩ := member_inj (member_inj same).2
      rw [Token.eq_of_phrase_eq word word' token]
    | _ => exact absurd (form_eq same) (by simp [form])

end Stmt

/-! ### Programs -/

theorem Param.eq_of_phrase_eq {p q : Param} (worded : p.Worded) (other : q.Worded)
    (same : p.json.phrase reals = q.json.phrase reals) : p = q := by
  obtain ⟨name, same⟩ := member_inj same
  obtain ⟨type, -⟩ := member_inj same
  cases p
  cases q
  rw [Param.mk.injEq]
  exact ⟨Token.eq_of_phrase_eq worded.name other.name name,
    TypeRef.eq_of_phrase_eq worded.type other.type type⟩

theorem Function.eq_of_phrase_eq {f g : Function} (worded : f.Worded) (other : g.Worded)
    (same : (Item.function f).json.phrase reals = (Item.function g).json.phrase reals) : f = g := by
  obtain ⟨name, same⟩ := member_inj (member_inj same).2
  obtain ⟨params, same⟩ := member_inj same
  obtain ⟨type, same⟩ := member_inj same
  obtain ⟨body, -⟩ := member_inj same
  rw [Stmt.jsonList_eq_map, Stmt.jsonList_eq_map] at body
  have sameParams := elements_inj (fun p inside q within =>
    Param.eq_of_phrase_eq (worded.params p inside) (other.params q within)) params
  have sameBody := elements_inj (fun s inside t within =>
    Stmt.eq_of_phrase_eq (worded.body s inside) (other.body t within)) body
  cases f
  cases g
  rw [Function.mk.injEq]
  exact ⟨Token.eq_of_phrase_eq worded.name other.name name, sameParams,
    TypeRef.eq_of_phrase_eq worded.type other.type type, sameBody⟩

theorem Item.eq_of_phrase_eq {item other : Item} (worded : item.Worded) (wordedOther : other.Worded)
    (same : item.json.phrase reals = other.json.phrase reals) : item = other := by
  cases item with
  | function f =>
    cases other with
    | function g => rw [Function.eq_of_phrase_eq worded wordedOther same]
    | _ => exact absurd (form_eq same) (by decide)
  | var d =>
    cases other with
    | var c => rw [VarDecl.eq_of_phrase_eq worded wordedOther (member_inj same).2]
    | _ => exact absurd (form_eq same) (by decide)
  | stmt s =>
    cases other with
    | stmt t =>
      obtain ⟨inner, -⟩ := member_inj (member_inj same).2
      rw [Stmt.eq_of_phrase_eq worded wordedOther inner]
    | _ => exact absurd (form_eq same) (by decide)

theorem Program.eq_of_phrase_eq {p q : Program} (worded : p.Worded) (other : q.Worded)
    (same : p.json.phrase reals = q.json.phrase reals) : p = q := by
  obtain ⟨items, -⟩ := member_inj same
  have sameItems := elements_inj (fun item inside item' within =>
    Item.eq_of_phrase_eq (worded item inside) (other item' within)) items
  cases p
  cases q
  rw [Program.mk.injEq]
  exact sameItems

/-! ### Sources -/

namespace Source

variable {text : String} {a : Source}

/-- However real numbers are written: the compact JSON of a program that was read is a well-formed text
in which no object repeats a key, and no other program that was read has it. -/
theorem json_lossless (writes : WritesReals reals) (read : Source.read text = .ok a) :
    IsText (a.program.json.compactWith reals).toList ∧
      ∀ other b, Source.read other = .ok b →
        a.program.json.compactWith reals = b.program.json.compactWith reals → a.program = b.program := by
  constructor
  · obtain ⟨w, written, same⟩ := a.program.json_distinct.exists_isText writes
    rw [Value.compactWith, String.toList_ofList, same, List.append_nil]
    exact written
  · intro other b readOther same
    have phrases := a.program.json_distinct.phrase_eq b.program.json_distinct writes same
    exact Program.eq_of_phrase_eq (worded read) (worded readOther) phrases

theorem json_lossless_quoted :
    let printed (first second : String) := "moje slovo c;\nzapocni_igru\n    ako (c == 'a') \x7b\n        napisi(" ++
      first ++ ");\n        napisi(" ++ second ++ ");\n        napisi(\"\\\");\n    \x7d\nzavrsi_igru;\n"
    ∃ a b, Source.read (printed "'a'" "\"a\"") = .ok a ∧ Source.read (printed "\"a\"" "'a'") = .ok b ∧
      a.program.print = printed "'a'" "\"a\"" ∧ b.program.print = printed "\"a\"" "'a'" ∧
      WritesReals realText ∧ IsText (a.program.json.compact).toList ∧
      a.program.json.compact ≠ b.program.json.compact := by
  intro printed
  have shown : (Source.read (printed "'a'" "\"a\"")).map (·.program.print) =
      .ok (printed "'a'" "\"a\"") := by decide +kernel
  have shownOther : (Source.read (printed "\"a\"" "'a'")).map (·.program.print) =
      .ok (printed "\"a\"" "'a'") := by decide +kernel
  obtain ⟨a, read, print⟩ := exists_of_map_read shown
  obtain ⟨b, readOther, printOther⟩ := exists_of_map_read shownOther
  obtain ⟨written, unique⟩ := json_lossless writesReals_realText read
  refine ⟨a, b, read, readOther, print, printOther, writesReals_realText, written, fun same => ?_⟩
  have prints : printed "'a'" "\"a\"" = printed "\"a\"" "'a'" := by
    rw [← print, unique _ b readOther same, printOther]
  exact absurd prints (by decide +kernel)

end Source

end GameLang
