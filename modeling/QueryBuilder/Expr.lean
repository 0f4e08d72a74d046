import QueryBuilder.Text.Quoted

/-! SQL expressions.

`Expr σ` is the syntax of expressions over subqueries of type `σ`. While a query is
being built the sources in it are the names the query uses and `σ` is the type of
queries; after compilation they are the aliases of the statement and `σ` is the
type of statements.

The operators of SQL are written with brackets around their right operand always,
and around their left operand unless it is atomic. -/
namespace QueryBuilder

/-- An expression. `raw` is SQL text taken as it is, `text` a text literal. -/
inductive Expr (σ : Type) where
  | column (source name : String)
  | star (source : String)
  | raw (sql : String)
  | text (value : String)
  | unary (before : String) (operand : Expr σ) (after : String)
  | binary (before between after : String) (left right : Expr σ)
  | subquery (query : σ)

/-- The ten infix operators. -/
inductive Operator where
  | plus | minus | gt | gte | lt | lte | eq | ne | and | or
deriving DecidableEq, Repr

def Operator.symbol : Operator → String
  | plus => "+"
  | minus => "-"
  | gt => ">"
  | gte => ">="
  | lt => "<"
  | lte => "<="
  | eq => "="
  | ne => "<>"
  | and => "AND"
  | or => "OR"

namespace Expr
variable {σ : Type}

/-- Atomic expressions need no brackets on the left of an operator. -/
def isAtomic : Expr σ → Bool
  | column .. | star .. | raw .. | text .. | subquery .. => true
  | unary .. | binary .. => false

/-- `left op (right)`, or `(left) op (right)` when the left operand is not atomic. -/
def apply (op : Operator) (left right : Expr σ) : Expr σ :=
  if left.isAtomic then binary "" (" " ++ op.symbol ++ " (") ")" left right
  else binary "(" (") " ++ op.symbol ++ " (") ")" left right

/-- `NOT (e)`. -/
def negation (e : Expr σ) : Expr σ := unary "NOT (" e ")"

/-- `-(e)`. -/
def negative (e : Expr σ) : Expr σ := unary "-(" e ")"

@[simp]
theorem isAtomic_apply (op : Operator) (l r : Expr σ) : (apply op l r).isAtomic = false := by
  unfold apply
  split <;> rfl

end Expr

end QueryBuilder
