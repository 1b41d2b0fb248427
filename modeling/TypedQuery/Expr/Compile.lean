import TypedQuery.Expr.Function
import TypedQuery.Expr.Path

/-!
# Compiling expressions

An expression is folded and turned into a typed fragment.  A call goes to the registered method,
then to the registered accessor, then to the methods every receiver may have, and last to the SQL
function of that name.
-/

namespace TypedQuery

/-- Where expressions are compiled: the tables in scope and the registered calls. -/
structure Compiler where
  scope : Scope
  calls : CallRegistry := CallRegistry.builtin

namespace Compiler

/-!
## Operators
-/

/-- The operand that a comparison with the NULL constant tests, if it is one. -/
def nullTest? (op : BinaryOp) (left right : Argument) : Option (Argument × String) :=
  let test : Option String :=
    match op with
    | .eq => some ") IS NULL"
    | .ne => some ") IS NOT NULL"
    | _ => none
  test.bind fun test =>
    if right.expr.isNullConstant then some (left, test)
    else if left.expr.isNullConstant then some (right, test)
    else none

def binary (op : BinaryOp) (left right : Argument) : Result TypedFragment :=
  match nullTest? op left right with
  | some (subject, test) => do
      return TypedFragment.surround "(" (<- subject.compiled) test .boolean
  | none => do
      let l <- left.compiled
      let r <-
        match TypedFragment.enumLabel? l.type right.expr with
        | some label => .ok label
        | none => right.compiled
      TypedFragment.operator op l r

/-!
## Methods of every receiver
-/

def containsItem (receiver : TypedFragment) (item : Argument) : Result TypedFragment := do
  let item <- item.compiled
  match receiver.type.item? with
  | none => .error (.compile (.containsReceiver receiver.type))
  | some element =>
      if element.comparable item.type then
        return ⟨((((Fragment.empty.text "(").nested item.query).text ") = ANY(").nested
          receiver.query).text ")", .boolean⟩
      else .error (.compile (.containsItem item.type receiver.type))

/-- An item of an array, counted from zero, or a member of a JSON value. -/
def indexed (receiver : TypedFragment) (index : Argument) : Result TypedFragment :=
  match receiver.type with
  | .array item => do
      let position <- index.next
      match position.type with
      | .integer | .bigint =>
          return ⟨((((Fragment.empty.text "(").nested receiver.query).text ")[").nested
            position.query).text "]", item⟩
      | other => .error (.compile (.indexPosition other))
  | .json _ => do
      let key <- index.compiled
      return ⟨(((Fragment.empty.text "(").nested receiver.query).text ")->").nested key.query,
        .json none⟩
  | other => .error (.compile (.indexReceiver other))

/-- A constant array that an enum is looked for in becomes an array of that enum. -/
def retyped (receiver : SqlType) (v : Typed) : Typed :=
  if receiver.isEnum && v.type.item? = some .text then { v with type := .array receiver } else v

def membership (receiver : TypedFragment) (values : Argument) (negated : Bool) :
    Result TypedFragment :=
  match values.expr with
  | .constant ⟨.array items, type⟩ =>
      let v := retyped receiver.type ⟨.array items, type⟩
      let fits :=
        match v.type.item? with
        | some item => receiver.type.comparable item
        | none => true
      if fits then
        .ok ⟨((((Fragment.empty.text "(").nested receiver.query).text
          (if negated then ") <> ALL(" else ") = ANY(")).value v).text ")", .boolean⟩
      else .error (.compile (.memberType receiver.type v.type))
  | .subquery s => do
      let set <- s.expression
      return ⟨(((Fragment.empty.text "(").nested receiver.query).text
        (if negated then ") NOT IN " else ") IN ")).nested set.query, .boolean⟩
  | _ => .error (.compile .memberValues)

def overlap (receiver : TypedFragment) (values : Argument) : Result TypedFragment := do
  let values <- values.compiled
  if receiver.type.isArray && values.type.isArray then
    return .combine receiver "&&" values .boolean
  else .error (.compile (.overlap receiver.type values.type))

/-- The methods every receiver may have; none when the name is another one. -/
def native? (name : String) (receiver : TypedFragment) (args : List Argument) :
    Option (Result TypedFragment) :=
  match name with
  | "contains" => some do containsItem receiver (<- Argument.single name args)
  | "index" => some do indexed receiver (<- Argument.single name args)
  | "pg_in" => some do membership receiver (<- Argument.single name args) false
  | "pg_not_in" => some do membership receiver (<- Argument.single name args) true
  | "pg_contains_any" => some do overlap receiver (<- Argument.single name args)
  | _ => none

/-!
## Functions
-/

/-- Writes a call of a known function; arguments that were left out have their defaults. -/
def functionCall (f : SqlFunction) (args : List TypedFragment) : Result TypedFragment :=
  if f.accepts args.length then
    let defaults := f.missingDefaults args.length
    let separator := if args.isEmpty || defaults.isEmpty then "" else ", "
    let query := (Fragment.empty.text (f.name ++ "(")).joined (args.map (·.query)) ", "
    .ok ⟨query.text (separator ++ ", ".intercalate defaults ++ ")"),
      f.returns.resolve (args.map (·.type))⟩
  else .error (.compile (.functionArity f.name f.expected args.length))

def sqlFunction (name : String) (receiver : Option TypedFragment) (args : List Argument) :
    Result TypedFragment :=
  match SqlFunction.lookup? name with
  | none => .error (.compile (.unknownFunction name))
  | some f => do
      let compiled <- args.mapM (·.compiled)
      functionCall f (receiver.toList ++ compiled)

def methodCall (calls : CallRegistry) (name : String) (receiver : TypedFragment)
    (args : List Argument) : Result TypedFragment :=
  let kind := receiver.type.kind
  match calls.method? kind name with
  | some handler => handler receiver args
  | none =>
      match if args.isEmpty then calls.accessor? kind name else none with
      | some accessor => accessor receiver
      | none =>
          match native? name receiver args with
          | some result => result
          | none =>
              if (SqlFunction.lookup? name).isSome then sqlFunction name (some receiver) args
              else .error (.compile (.noMethod name receiver.type))

/-!
## Trees
-/

mutual

/-- Compiles a tree as it is, without folding it. -/
def node (c : Compiler) : Expr -> Result TypedFragment
  | .field path => do return (<- resolvePath c.scope c.calls path).expr
  | .constant v => .ok (.ofValue v)
  | .unary op operand => do TypedFragment.unary op (<- c.node operand)
  | .binary op left right => binary op ⟨left, c.node left⟩ ⟨right, c.node right⟩
  | .method name receiver args _ => do
      methodCall c.calls name (<- c.node receiver) (c.arguments args)
  | .function name args => sqlFunction name none (c.arguments args)
  | .subquery s => s.expression
  | .compiled fragment => .ok fragment
  | .invalid error => .error error

def arguments (c : Compiler) : List Expr -> List Argument
  | [] => []
  | e :: rest => ⟨e, c.node e⟩ :: c.arguments rest

end

def compile (c : Compiler) (e : Expr) : Result TypedFragment := c.node (fold e)

def compilePredicate (c : Compiler) (e : Expr) : Result TypedFragment := do
  let compiled <- c.compile e
  match compiled.type with
  | .boolean | .null => return compiled
  | other => .error (.compile (.predicate other))

/-- Compiles a value that is stored into a column: texts become labels of an enum column, and
values that are not JSON are converted for a JSON column. -/
def compileAs (c : Compiler) (target : SqlType) (e : Expr) : Result TypedFragment := do
  let folded := fold e
  let value <-
    match TypedFragment.enumLabel? target folded with
    | some label => .ok label
    | none => c.node folded
  if target.isJson && !value.type.isJson && value.type ≠ .null then return value.toJsonb
  else if target.comparable value.type then return value
  else .error (.compile (.unstorable value.type target))

def resolve (c : Compiler) (path : List PathStep) : Result ResolvedPath :=
  resolvePath c.scope c.calls path

end Compiler

end TypedQuery
