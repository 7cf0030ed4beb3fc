/-!
# Kinds of tokens

The kinds, their names and spellings, and the reserved words of the language.
-/

namespace GameLang

inductive Kind where
  | intLiteral
  | realLiteral
  | charLiteral
  | stringLiteral
  | boolLiteral
  | ident
  | intType
  | realType
  | charType
  | textType
  | boolType
  | arrayType
  | varWord
  | varCharWord
  | beginWord
  | endWord
  | ifWord
  | elseWord
  | whileWord
  | returnWord
  | andWord
  | orWord
  | printWord
  | readWord
  | encryptWord
  | decryptWord
  | plus
  | minus
  | star
  | slash
  | percent
  | less
  | lessEqual
  | greater
  | greaterEqual
  | equal
  | notEqual
  | assign
  | bang
  | leftParen
  | rightParen
  | leftBracket
  | rightBracket
  | leftBrace
  | rightBrace
  | comma
  | semicolon
  | colon
  | eof
  deriving DecidableEq

namespace Kind

/-- Every kind once. -/
def all : List Kind :=
  [intLiteral, realLiteral, charLiteral, stringLiteral, boolLiteral, ident, intType, realType,
    charType, textType, boolType, arrayType, varWord, varCharWord, beginWord, endWord, ifWord,
    elseWord, whileWord, returnWord, andWord, orWord, printWord, readWord, encryptWord, decryptWord,
    plus, minus, star, slash, percent, less, lessEqual, greater, greaterEqual, equal, notEqual,
    assign, bang, leftParen, rightParen, leftBracket, rightBracket, leftBrace, rightBrace, comma,
    semicolon, colon, eof]

def name : Kind → String
  | intLiteral => "IntLiteral"
  | realLiteral => "RealLiteral"
  | charLiteral => "CharLiteral"
  | stringLiteral => "StringLiteral"
  | boolLiteral => "BoolLiteral"
  | ident => "Ident"
  | intType => "Int"
  | realType => "Real"
  | charType => "Char"
  | textType => "Text"
  | boolType => "Bool"
  | arrayType => "Array"
  | varWord => "Var"
  | varCharWord => "VarChar"
  | beginWord => "Begin"
  | endWord => "End"
  | ifWord => "If"
  | elseWord => "Else"
  | whileWord => "While"
  | returnWord => "Return"
  | andWord => "And"
  | orWord => "Or"
  | printWord => "Print"
  | readWord => "Read"
  | encryptWord => "Encrypt"
  | decryptWord => "Decrypt"
  | plus => "Plus"
  | minus => "Minus"
  | star => "Star"
  | slash => "Slash"
  | percent => "Percent"
  | less => "Lt"
  | lessEqual => "Le"
  | greater => "Gt"
  | greaterEqual => "Ge"
  | equal => "EqEq"
  | notEqual => "NotEq"
  | assign => "Assign"
  | bang => "Bang"
  | leftParen => "LParen"
  | rightParen => "RParen"
  | leftBracket => "LBracket"
  | rightBracket => "RBracket"
  | leftBrace => "LBrace"
  | rightBrace => "RBrace"
  | comma => "Comma"
  | semicolon => "Semicolon"
  | colon => "Colon"
  | eof => "Eof"

def ofName? (s : String) : Option Kind := all.find? (·.name == s)

/-- Every kind is found by its name. -/
theorem ofName?_name (k : Kind) : ofName? k.name = some k := by cases k <;> decide +kernel

/-- The spelling of a kind that has only one, and a description of the others. -/
def spelling : Kind → String
  | intLiteral => "integer literal"
  | realLiteral => "real literal"
  | charLiteral => "char literal"
  | stringLiteral => "string literal"
  | boolLiteral => "boolean literal"
  | ident => "identifier"
  | intType => "broj"
  | realType => "realan"
  | charType => "slovo"
  | textType => "tekst"
  | boolType => "pogodak"
  | arrayType => "niz"
  | varWord => "moj"
  | varCharWord => "moje"
  | beginWord => "zapocni_igru"
  | endWord => "zavrsi_igru"
  | ifWord => "ako"
  | elseWord => "inace"
  | whileWord => "radi"
  | returnWord => "vrati"
  | andWord => "i"
  | orWord => "ili"
  | printWord => "napisi"
  | readWord => "upisi"
  | encryptWord => "enkriptuj"
  | decryptWord => "dekriptuj"
  | plus => "+"
  | minus => "-"
  | star => "*"
  | slash => "/"
  | percent => "%"
  | less => "<"
  | lessEqual => "<="
  | greater => ">"
  | greaterEqual => ">="
  | equal => "=="
  | notEqual => "!="
  | assign => "="
  | bang => "!"
  | leftParen => "("
  | rightParen => ")"
  | leftBracket => "["
  | rightBracket => "]"
  | leftBrace => "\x7b"
  | rightBrace => "\x7d"
  | comma => ","
  | semicolon => ";"
  | colon => ":"
  | eof => "end of input"

/-- The kinds whose tokens carry a value. -/
def isLiteral : Kind → Bool
  | intLiteral | realLiteral | charLiteral | stringLiteral | boolLiteral => true
  | _ => false

/-- The kinds that have only one spelling. -/
def isFixed : Kind → Bool
  | intLiteral | realLiteral | charLiteral | stringLiteral | boolLiteral | ident | eof => false
  | _ => true

/-- The kinds of the words that name types. -/
def isTypeWord : Kind → Bool
  | intType | realType | charType | textType | boolType | arrayType => true
  | _ => false

/-- The kinds of the words that start a call of a built-in procedure. -/
def isBuiltin : Kind → Bool
  | printWord | readWord | encryptWord | decryptWord => true
  | _ => false

/-- A kind in a message: one with a fixed spelling stands in quotes. -/
def shown (k : Kind) : String :=
  if k.isFixed then "'" ++ k.spelling ++ "'" else k.spelling

/-- The kind that a character alone decides. -/
def ofPunctuation? : Char → Option Kind
  | '(' => some leftParen
  | ')' => some rightParen
  | '[' => some leftBracket
  | ']' => some rightBracket
  | '\x7b' => some leftBrace
  | '\x7d' => some rightBrace
  | ',' => some comma
  | ';' => some semicolon
  | ':' => some colon
  | '+' => some plus
  | '-' => some minus
  | '*' => some star
  | '/' => some slash
  | '%' => some percent
  | _ => none

/-- The kinds of a character that may be followed by an equals sign: alone, and with it. -/
def ofComparison? : Char → Option (Kind × Kind)
  | '<' => some (less, lessEqual)
  | '>' => some (greater, greaterEqual)
  | '=' => some (assign, equal)
  | '!' => some (bang, notEqual)
  | _ => none

end Kind

/-- A reserved word: its kind, and its value if it is a truth value. -/
structure Reserved where
  kind : Kind
  value : Option Bool
  deriving DecidableEq

def reservedWords : List (String × Reserved) :=
  [("broj", ⟨.intType, none⟩), ("realan", ⟨.realType, none⟩), ("slovo", ⟨.charType, none⟩),
    ("tekst", ⟨.textType, none⟩), ("pogodak", ⟨.boolType, none⟩), ("niz", ⟨.arrayType, none⟩),
    ("moj", ⟨.varWord, none⟩), ("moje", ⟨.varCharWord, none⟩),
    ("zapocni_igru", ⟨.beginWord, none⟩), ("zavrsi_igru", ⟨.endWord, none⟩),
    ("ako", ⟨.ifWord, none⟩), ("inace", ⟨.elseWord, none⟩), ("radi", ⟨.whileWord, none⟩),
    ("vrati", ⟨.returnWord, none⟩), ("i", ⟨.andWord, none⟩), ("ili", ⟨.orWord, none⟩),
    ("napisi", ⟨.printWord, none⟩), ("upisi", ⟨.readWord, none⟩),
    ("enkriptuj", ⟨.encryptWord, none⟩), ("dekriptuj", ⟨.decryptWord, none⟩),
    ("tacno", ⟨.boolLiteral, some true⟩), ("netacno", ⟨.boolLiteral, some false⟩)]

def reserved? (word : String) : Option Reserved := reservedWords.lookup word

/-- No word is reserved twice. -/
theorem reservedWords_nodup : (reservedWords.map Prod.fst).Nodup := by decide +kernel

end GameLang
