import BusTub.Execution.Expression

/-!
# Binding expressions

The model of `BindExpression` and the functions it calls, from the nodes of the parser to bound
expressions.  How a column name is resolved in the scope of the query is a parameter.

A node with several arguments is bound to binary operators, from the left.
-/

namespace BusTub

/-! ## The nodes of the parser -/

/-- The constants of the parser.  The text of a string fits in a VARCHAR. -/
inductive ParseConstant
  | integer (ival : ℤ)
  | string (text : List UInt8) (short : text.length + 1 < 2 ^ 32 - 1)
  | null
  | other (tag : String)

/-- `PGBoolExprType`. -/
inductive BoolExprType
  | andExpr
  | orExpr
  | notExpr
deriving DecidableEq, Repr

/-- `PGNode`, for expressions. -/
inductive ParseNode
  | columnRef (fields : List String)
  | columnStar
  | aConst (value : ParseConstant)
  | resTarget (name : Option String) (val : ParseNode)
  | aStar
  | funcCall (funcname : String) (aggDistinct : Bool) (args : List ParseNode)
  | aExpr (isOp : Bool) (name : String) (lexpr rexpr : Option ParseNode)
  | boolExpr (boolop : BoolExprType) (args : List ParseNode)
  | other (tag : String)

/-! ## Bound expressions -/

/-- `BoundExpression`, with its subclasses. -/
inductive BoundExpression
  | star
  | columnRef (colName : List String)
  | constant (value : Value)
  | binaryOp (opName : String) (larg rarg : BoundExpression)
  | unaryOp (opName : String) (arg : BoundExpression)
  | aliased (name : String) (child : BoundExpression)
  | aggCall (funcName : String) (isDistinct : Bool) (args : List BoundExpression)

namespace BoundExpression

/-- `expr->type_ == ExpressionType::STAR`. -/
def isStar : BoundExpression → Bool
  | star => true
  | _ => false

end BoundExpression

namespace Binder

/-- `BindConstant`. -/
def bindConstant : ParseConstant → Except SqlFault BoundExpression
  | .integer ival =>
    if ival ≤ 2 ^ 31 - 1 then .ok (.constant (Value.getIntegerValue ival))
    else .error (.exception "value out of range")
  | .string text short => .ok (.constant (.varchar (some ⟨text ++ [0], by simpa using short⟩)))
  | .null => .ok (.constant Value.integerNull)
  | .other tag => .error (.exception ("unsupported pg value: " ++ tag))

/-- `BindFuncCall`, when the arguments are bound. -/
def bindFuncCall (name : String) (aggDistinct : Bool) (children : List BoundExpression) :
    Except SqlFault BoundExpression :=
  let functionName := name.toLower
  if functionName ∈ ["min", "max", "first", "last", "sum", "count"] then
    let functionName :=
      if functionName = "count" && children.isEmpty then "count_star" else functionName
    .ok (.aggCall functionName aggDistinct children)
  else .error (.exception ("unsupported func call " ++ functionName))

/-- `BindBoolExpr`, when the arguments are bound.  The name of the operator is computed and
not used. -/
def bindBoolExpr (boolop : BoolExprType) (exprs : List BoundExpression) :
    Except SqlFault BoundExpression :=
  match boolop with
  | .andExpr | .orExpr =>
    match exprs with
    | first :: second :: rest =>
      .ok (rest.foldl (fun expr arg => .binaryOp "and" expr arg)
        (.binaryOp "and" first second))
    | _ => .error (.exception "AND should have at least 1 arg")
  | .notExpr =>
    match exprs with
    | [arg] => .ok (.unaryOp "not" arg)
    | _ => .error (.exception "NOT should have 1 arg")

section Scope

variable (resolveColumn : List String → Except SqlFault BoundExpression)

mutual

/-- `BindExpression`. -/
def bindExpression : ParseNode → Except SqlFault BoundExpression
  | .columnRef fields => resolveColumn fields
  | .columnStar => .ok .star
  | .aConst value => bindConstant value
  | .resTarget name val => do
      let expr ← bindExpression val
      match name with
      | some name => return .aliased name expr
      | none => return expr
  | .aStar => .ok .star
  | .funcCall name aggDistinct args => do
      let children ← bindArguments args
      bindFuncCall name aggDistinct children
  | .aExpr isOp name lexpr rexpr => do
      if !isOp then throw (.exception "unsupported op in AExpr")
      let leftExpr ← bindOptional lexpr
      let rightExpr ← bindOptional rexpr
      match leftExpr, rightExpr with
      | some left, some right => return .binaryOp name left right
      | none, some right => return .unaryOp name right
      | _, none => throw (.exception "unsupported AExpr: left == null while right != null")
  | .boolExpr boolop args => do
      let exprs ← bindExpressionList args
      bindBoolExpr boolop exprs
  | .other tag => .error (.exception ("Expr of type " ++ tag ++ " not implemented"))

def bindOptional : Option ParseNode → Except SqlFault (Option BoundExpression)
  | none => .ok none
  | some node => do
      let expr ← bindExpression node
      return some expr

def bindArguments : List ParseNode → Except SqlFault (List BoundExpression)
  | [] => .ok []
  | node :: rest => do
      let expr ← bindExpression node
      let exprs ← bindArguments rest
      return expr :: exprs

/-- `BindExpressionList`. -/
def bindExpressionList : List ParseNode → Except SqlFault (List BoundExpression)
  | [] => .ok []
  | node :: rest => do
      let expr ← bindExpression node
      if expr.isStar then throw (.exception "unsupport * in expression list")
      let exprs ← bindExpressionList rest
      return expr :: exprs

end

theorem bindExpressionList_eq {nodes : List ParseNode} {exprs : List BoundExpression}
    (h : List.Forall₂ (fun node expr =>
      bindExpression resolveColumn node = .ok expr ∧ expr.isStar = false) nodes exprs) :
    bindExpressionList resolveColumn nodes = .ok exprs := by
  induction h with
  | nil => rfl
  | cons hnode _ ih =>
    rw [bindExpressionList, hnode.1, ih]
    simp only [bind, Except.bind, hnode.2, Bool.false_eq_true, if_false]
    rfl

end Scope

end Binder

end BusTub
