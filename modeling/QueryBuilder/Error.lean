/-! What can go wrong between building a query and running it.

`Error` has one case per cause, and `Error.message` is the only place where the
wording lives. A `Fault` is what evaluating or compiling a query may end with: an
error, or one of two ways in which the query itself is not a finite, closed
program. -/
namespace QueryBuilder

/-- The causes. The cases `database`, `connection`, `execution`, `configuration`
and `io` carry the text of the outside world. -/
inductive Error where
  /-- No level of the scope binds the source. -/
  | unresolvedSource (source : String)
  /-- An alias, or the name of an association, is asked for twice. -/
  | aliasAlreadyUsed (label : String)
  /-- The base name and all its numbered variants are taken. -/
  | aliasSpaceExhausted (base : String) (attempts : Nat)
  /-- The one side of an association has no key to point at. -/
  | missingTargetKey (master : String)
  | unknownAssociation (relation association : String)
  | unsupportedLiteral (type : String)
  | malformedBinaryOperator (fragments : Nat)
  | unknownRelation (relation : String)
  /-- A join has no condition, and no association supplies one. -/
  | missingJoinCondition (target : String)
  | database (text : String)
  | connection (text : String)
  | execution (text : String)
  | configuration (text : String)
  | io (text : String)
deriving DecidableEq, Repr

namespace Error

def message : Error → String
  | unresolvedSource s => "Unresolved source: '" ++ s ++ "' is not bound in the current scope"
  | aliasAlreadyUsed a => "Alias '" ++ a ++ "' has already been used"
  | aliasSpaceExhausted b n =>
    "No free alias found for '" ++ b ++ "' after " ++ toString n ++ " attempts"
  | missingTargetKey m =>
    "Target key must be defined: relation '" ++ m ++ "' has no primary key"
  | unknownAssociation r a => "Unknown association '" ++ a ++ "' on relation '" ++ r ++ "'"
  | unsupportedLiteral t => "Unsupported literal type: " ++ t
  | malformedBinaryOperator n =>
    "Binary operator needs exactly 3 text fragments, got " ++ toString n
  | unknownRelation r => "Unknown relation: '" ++ r ++ "'"
  | missingJoinCondition t => "No join condition given or derivable for '" ++ t ++ "'"
  | database t => "Database error: " ++ t
  | connection t => "Connection error: " ++ t
  | execution t => "Execution error: " ++ t
  | configuration t => "Configuration error: " ++ t
  | io t => "IO error: " ++ t

end Error

/-- Why an evaluation stops without a value. -/
inductive Fault where
  | error (cause : Error)
  /-- A term refers to a row, callback or query that is not there. -/
  | missing
  /-- Callbacks or levels are nested deeper than the evaluation was allowed. -/
  | tooDeep
deriving DecidableEq, Repr

instance : MonadLift (Except Error) (Except Fault) where
  monadLift := Except.mapError .error

end QueryBuilder
