import GameLang.Token.Dump

/-!
# Syntax errors

Why tokens are no program, and the message for each cause. A message ends with the token at which
reading stopped.
-/

namespace GameLang

/-- Where in the grammar a token of a given kind is missing. -/
inductive Place where
  | functionName
  | parameterName
  | variableName
  | afterFunctionName
  | afterParameters
  | afterExpression
  | afterArguments
  | afterArgument
  | afterCondition
  | afterIndex
  | afterDimension
  | afterBlock
  | afterDeclaration
  | afterReturnValue
  | afterCall
  | afterAssignment
  | afterTarget
  | afterEntry
  | beforeBody
  | openBlock
  | openEntry
  | closeEntry
  | afterWord (word : String)
  | insideCall (word : String)
  | afterCallOf (word : String)
  deriving DecidableEq

def Place.shown : Place → String
  | functionName => "as function name"
  | parameterName => "as parameter name"
  | variableName => "as variable name"
  | afterFunctionName => "after function name"
  | afterParameters => "after parameters"
  | afterExpression => "after expression"
  | afterArguments => "after arguments"
  | afterArgument => "after argument"
  | afterCondition => "after condition"
  | afterIndex => "after index"
  | afterDimension => "after array dimension"
  | afterBlock => "after block"
  | afterDeclaration => "after variable declaration"
  | afterReturnValue => "after return value"
  | afterCall => "after call"
  | afterAssignment => "after assignment"
  | afterTarget => "after indexed target"
  | afterEntry => "after the entry block"
  | beforeBody => "before function body"
  | openBlock => "to open block"
  | openEntry => "to open the entry block"
  | closeEntry => "to close the entry block"
  | afterWord word => "after '" ++ word ++ "'"
  | insideCall word => "in '" ++ word ++ "'"
  | afterCallOf word => "after '" ++ word ++ "' call"

/-- What a type is missing for. -/
inductive TypePlace where
  | result
  | parameter
  | variable
  deriving DecidableEq

inductive Cause where
  /-- A token of this kind is missing. -/
  | missing (kind : Kind) (place : Place)
  | missingType (place : TypePlace)
  | missingStatement
  | missingExpression
  /-- After an identifier neither an assignment nor a call goes on. -/
  | missingUse
  /-- Something follows a whole statement or expression. -/
  | trailing
  /-- A token of a literal kind has no value. -/
  | missingValue
  | nestingTooDeep
  deriving DecidableEq

/-- The message for a cause, without the token found instead. -/
def Cause.shown : Cause → String
  | missing kind place => "Expected " ++ kind.shown ++ " " ++ place.shown
  | missingType .result => "Expected return type"
  | missingType .parameter => "Expected parameter type"
  | missingType .variable => "Expected type after 'moj'"
  | missingStatement => "Expected statement"
  | missingExpression => "Expected expression"
  | missingUse => "Expected '=' or '(' after identifier"
  | trailing => "Expected end of input"
  | missingValue => "Literal token without a value"
  | nestingTooDeep => "Nesting too deep"

/-- A cause with the token at which reading stopped. -/
structure SyntaxError where
  cause : Cause
  token : Token
  deriving DecidableEq

namespace SyntaxError

def place (e : SyntaxError) : Position := e.token.start

/-- The message without the place. -/
def reason (e : SyntaxError) : String := e.cause.shown ++ ", found " ++ e.token.shown

def message (e : SyntaxError) : String :=
  "Parse error at line " ++ Decimal.shownNat e.place.line ++ ", column " ++
    Decimal.shownNat e.place.column ++ ": " ++ e.reason

end SyntaxError

end GameLang
