import TypedQuery.Fragment.Render

/-!
# Expressions

Expressions over table slots: column paths, host values, operators, calls, frozen subqueries and
fragments compiled beforehand.  What went wrong while an expression was put together is kept in
it and reported when it is compiled.
-/

namespace TypedQuery

inductive PathStep where
  | table (slot : Slot)
  | column (name : String)
  | key (key : String) (asText : Bool)
  | index (n : Int32) (asText : Bool)
  | derived (name : String)
deriving DecidableEq

inductive UnaryOp where
  | not
  | cast (type : SqlType)
  | arrayLength
deriving DecidableEq

inductive BinaryOp where
  | eq
  | ne
  | add
  | sub
  | mul
  | div
  | and
  | or
  | lt
  | lte
  | gt
  | gte
deriving DecidableEq

namespace BinaryOp

def sql : BinaryOp -> String
  | eq => "="
  | ne => "<>"
  | add => "+"
  | sub => "-"
  | mul => "*"
  | div => "/"
  | and => "AND"
  | or => "OR"
  | lt => "<"
  | lte => "<="
  | gt => ">"
  | gte => ">="

def isComparison : BinaryOp -> Bool
  | eq | ne | lt | lte | gt | gte => true
  | _ => false

end BinaryOp

/-- A fragment together with the type of its value. -/
structure TypedFragment where
  query : Fragment
  type : SqlType
deriving Inhabited

/-- A SELECT with its own aliases, and the type of its column if it has just one. -/
structure Subquery where
  frame : Frame
  projected : Option SqlType
deriving Inhabited

namespace Subquery

def derivedTable (s : Subquery) : Fragment :=
  ((Fragment.empty.text "(").frame s.frame).text ")"

/-- The SELECT as a value: an array of its single column. -/
def expression (s : Subquery) : Result TypedFragment :=
  match s.projected with
  | some item => .ok ⟨s.derivedTable, .array item⟩
  | none => .error (.compile .subqueryValue)

def render (s : Subquery) : Rendered := s.frame.framed.render

def renderSimple (s : Subquery) : String := s.frame.framed.renderSimple

end Subquery

inductive Expr where
  | field (path : List PathStep)
  | constant (v : Typed)
  | unary (op : UnaryOp) (operand : Expr)
  | binary (op : BinaryOp) (left right : Expr)
  | method (name : String) (receiver : Expr) (args : List Expr) (onServer : Bool)
  | function (name : String) (args : List Expr)
  | subquery (s : Subquery)
  | compiled (fragment : TypedFragment)
  | invalid (error : Error)
deriving Inhabited

namespace Expr

def isNullConstant : Expr -> Bool
  | constant v => v.value.isNull
  | _ => false

def null : Expr := constant .null

/-- A converted host value; a failed conversion is kept. -/
def ofResult : Result Typed -> Expr
  | .ok v => constant v
  | .error e => invalid e

def int (n : Int32) : Expr := constant ⟨.int n, .integer⟩

def col (name : String) : Expr := field [.column name]

def slotCol (slot : Slot) (name : String) : Expr := field [.table slot, .column name]

def isNull (e : Expr) : Expr := binary .eq e null

def isNotNull (e : Expr) : Expr := binary .ne e null

def not (e : Expr) : Expr := unary .not e

/-- Appends a JSON step to a column path; nothing else takes one. -/
def jsonStep (e : Expr) (step : PathStep) : Expr :=
  match e with
  | field path => field (path ++ [step])
  | invalid error => invalid error
  | _ => invalid (.compile .jsonStepOffPath)

/-- A pseudo-property: a step of a column path, a call without arguments elsewhere. -/
def derived (e : Expr) (name : String) : Expr :=
  match e with
  | field path => field (path ++ [.derived name])
  | e => method name e [] false

def call (e : Expr) (name : String) (args : List Expr) : Expr := method name e args false

/-- All predicates joined by AND, if there are any. -/
def conjunction? : List Expr -> Option Expr
  | [] => none
  | e :: rest => some (rest.foldl (binary .and) e)

end Expr

end TypedQuery
