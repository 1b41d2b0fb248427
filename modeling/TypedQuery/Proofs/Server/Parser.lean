import TypedQuery.Proofs.Server.Lexer

/-!
# The server's expression grammar

Tokens are read into a tree by operator precedence.  The state is a stack of what is open, innermost
first, and the phase, which says what has just been read.  An operator first closes all operators
before it that bind at least as tightly.  What the grammar has beyond the expressions of statements
is refused.
-/

namespace TypedQuery
namespace Server

inductive Tree where
  | keyword (name : String)
  | number (n : Nat)
  | string (text : String)
  | column (qualifier : Option String) (name : String)
  | call (name : String) (args : List Tree)
  | array (items : List Tree)
  | unary (op : String) (arg : Tree)
  | binary (op : String) (left right : Tree)
  | isNull (negated : Bool) (arg : Tree)
  | quantified (op : String) (all : Bool) (left right : Tree)
  | cast (arg : Tree) (type : List Token)
  | subscript (arg index : Tree)

/-!
## Keywords
-/

def reservedWords : List String := [
  "all", "analyse", "analyze", "and", "any", "array", "as", "asc", "asymmetric", "both", "case",
  "cast", "check", "collate", "column", "constraint", "create", "current_catalog",
  "current_date", "current_role", "current_time", "current_timestamp", "current_user", "default",
  "deferrable", "desc", "distinct", "do", "else", "end", "except", "false", "fetch", "for",
  "foreign", "from", "grant", "group", "having", "in", "initially", "intersect", "into",
  "lateral", "leading", "limit", "localtime", "localtimestamp", "not", "null", "offset", "on",
  "only", "or", "order", "placing", "primary", "references", "returning", "select",
  "session_user", "some", "symmetric", "system_user", "table", "then", "to", "trailing", "true",
  "union", "unique", "user", "using", "variadic", "when", "where", "window", "with"]

def functionWords : List String := [
  "authorization", "binary", "collation", "concurrently", "cross", "current_schema", "freeze",
  "full", "ilike", "inner", "is", "isnull", "join", "left", "like", "natural", "notnull",
  "outer", "overlaps", "right", "similar", "tablesample", "verbose"]

/-- The words that name columns, and functions and types only where the grammar says so. -/
def columnWords : List String := [
  "between", "bigint", "bit", "boolean", "char", "character", "coalesce", "dec", "decimal",
  "exists", "extract", "float", "greatest", "grouping", "inout", "int", "integer", "interval",
  "json", "json_array", "json_arrayagg", "json_exists", "json_object", "json_objectagg",
  "json_query", "json_scalar", "json_serialize", "json_table", "json_value", "least",
  "merge_action", "national", "nchar", "none", "normalize", "nullif", "numeric", "out",
  "overlay", "position", "precision", "real", "row", "setof", "smallint", "substring", "time",
  "timestamp", "treat", "trim", "values", "varchar", "xmlattributes", "xmlconcat", "xmlelement",
  "xmlexists", "xmlforest", "xmlnamespaces", "xmlparse", "xmlpi", "xmlroot", "xmlserialize",
  "xmltable"]

def isTableWord (name : String) : Bool :=
  !reservedWords.contains name && !functionWords.contains name

def takes (name : String) (count : Nat) : Bool :=
  if name == "nullif" then count == 2
  else if ["coalesce", "greatest", "least", "trim"].contains name then 0 < count
  else !columnWords.contains name

def isTypeWord (name : String) : Bool :=
  if columnWords.contains name then
    ["bigint", "boolean", "integer", "interval", "numeric", "real", "smallint", "time",
      "timestamp"].contains name
  else !reservedWords.contains name

/-!
## Operators
-/

namespace Level

def or : Nat := 1
def and : Nat := 2
def not : Nat := 3
def is : Nat := 4
def comparison : Nat := 5
def like : Nat := 6
def other : Nat := 7
def sum : Nat := 8
def product : Nat := 9
def power : Nat := 10
def minus : Nat := 11

def associates (level : Nat) : Bool := level != comparison && level != like

end Level

def symbolLevel? (symbol : String) : Option Nat :=
  if ["=", "<>", "<", ">", "<=", ">="].contains symbol then some Level.comparison
  else if ["+", "-"].contains symbol then some Level.sum
  else if ["*", "/", "%"].contains symbol then some Level.product
  else if symbol == "^" then some Level.power
  else if ["!=", "=>"].contains symbol then none
  else some Level.other

def binaryLevel? : Token -> Option (String × Nat)
  | .operator symbol => (symbolLevel? symbol).map fun level => (symbol, level)
  | .word name =>
      if name == "or" then some ("OR", Level.or)
      else if name == "and" then some ("AND", Level.and)
      else if name == "like" then some ("LIKE", Level.like)
      else none
  | _ => none

/-!
## States
-/

inductive Opener where
  | call (name : String)
  | array

namespace Opener

def tree : Opener -> List Tree -> Tree
  | call name, items => .call name items
  | array, items => .array items

def closer : Opener -> Char
  | call _ => ')'
  | array => ']'

def accepts : Opener -> Nat -> Bool
  | call name, count => takes name count
  | array, count => 0 < count

end Opener

inductive Item where
  | binary (level : Nat) (op : String) (left : Tree)
  | unary (level : Nat) (op : String)
  | group
  | list (opener : Opener) (done : List Tree)
  | subscript (base : Tree)
  | quantified (op : String) (all : Bool) (left : Tree)

inductive Phase where
  | operand
  | word (name : String)
  | quoted (name : String)
  | dot (qualifier : String)
  | arrayWord
  | quantifier (op : String) (all : Bool) (left : Tree)
  | closed (t : Tree)
  | value (t : Tree)
  | isWord (t : Tree)
  | isNot (t : Tree)
  | typecast (t : Tree)
  | typeName (t : Tree) (type : List Token)
  | typeDot (t : Tree) (schema : String)
  | typeBracket (t : Tree) (type : List Token)

structure State where
  stack : List Item
  phase : Phase

def Phase.value? : Phase -> Option Tree
  | .quoted name => some (.column none name)
  | .closed t => some t
  | .value t => some t
  | .typeName t type => some (.cast t type)
  | _ => none

/-- Closes the operators before an operand that bind at least as tightly as a level. -/
def collapse (level : Nat) : List Item -> Tree -> Option (List Item × Tree)
  | .binary l op left :: rest, t =>
      if l < level then some (.binary l op left :: rest, t)
      else if l = level && !Level.associates level then none
      else collapse level rest (.binary op left t)
  | .unary l op :: rest, t =>
      if l < level then some (.unary l op :: rest, t) else collapse level rest (.unary op t)
  | rest, t => some (rest, t)

/-!
## Steps
-/

def closeParen : List Item -> Tree -> Option State
  | .group :: rest, t => some ⟨rest, .closed t⟩
  | .list (.call name) done :: rest, t =>
      if takes name (done ++ [t]).length then some ⟨rest, .value (.call name (done ++ [t]))⟩
      else none
  | .quantified op all left :: rest, t => some ⟨rest, .value (.quantified op all left t)⟩
  | _, _ => none

def closeBracket : List Item -> Tree -> Option State
  | .list .array done :: rest, t => some ⟨rest, .value (.array (done ++ [t]))⟩
  | .subscript base :: rest, t => some ⟨rest, .closed (.subscript base t)⟩
  | _, _ => none

def nextItem : List Item -> Tree -> Option State
  | .list opener done :: rest, t => some ⟨.list opener (done ++ [t]) :: rest, .operand⟩
  | _, _ => none

def wordStep (stack : List Item) (name : String) : Option State :=
  if ["null", "true", "false"].contains name then some ⟨stack, .value (.keyword name)⟩
  else if name == "not" then some ⟨.unary Level.not "NOT" :: stack, .operand⟩
  else if name == "array" then some ⟨stack, .arrayWord⟩
  else if ["any", "all"].contains name then
    match stack with
    | .binary level op left :: rest =>
        if Level.comparison ≤ level then some ⟨rest, .quantifier op (name == "all") left⟩
        else none
    | _ => none
  else if reservedWords.contains name then none
  else some ⟨stack, .word name⟩

/-- A token where an operand is expected; placeholders stand for what the environment gives. -/
def operandStep (env : Nat -> Option Tree) (stack : List Item) : Token -> Option State
  | .word name => wordStep stack name
  | .quoted name => some ⟨stack, .quoted name⟩
  | .string text => some ⟨stack, .value (.string text)⟩
  | .number n => some ⟨stack, .value (.number n)⟩
  | .parameter index => (env index).map fun t => ⟨stack, .value t⟩
  | .operator symbol =>
      if symbol == "-" then some ⟨.unary Level.minus "-" :: stack, .operand⟩ else none
  | .typecast => none
  | .mark c =>
      if c == '(' then some ⟨.group :: stack, .operand⟩
      else if c == ')' then
        match stack with
        | .list (.call name) [] :: rest =>
            if takes name 0 then some ⟨rest, .value (.call name [])⟩ else none
        | _ => none
      else none

def valueStep (stack : List Item) (t : Tree) (token : Token) : Option State :=
  if token = .mark ')' then
    (collapse 0 stack t).bind fun (rest, whole) => closeParen rest whole
  else if token = .mark ']' then
    (collapse 0 stack t).bind fun (rest, whole) => closeBracket rest whole
  else if token = .mark ',' then
    (collapse 0 stack t).bind fun (rest, whole) => nextItem rest whole
  else if token = .typecast then some ⟨stack, .typecast t⟩
  else if token = .word "is" then
    (collapse Level.is stack t).map fun (rest, left) => ⟨rest, .isWord left⟩
  else
    (binaryLevel? token).bind fun (op, level) =>
      (collapse level stack t).map fun (rest, left) => ⟨.binary level op left :: rest, .operand⟩

/-- A token after a name of a type; two words and a schema may make up one name. -/
def typeStep (stack : List Item) (t : Tree) (type : List Token) (token : Token) :
    Option State :=
  if token = .mark '[' then some ⟨stack, .typeBracket t type⟩
  else
    match type, token with
    | [.quoted schema], .mark '.' => some ⟨stack, .typeDot t schema⟩
    | [.word "double"], .word "precision" => some ⟨stack, .typeName t (type ++ [token])⟩
    | _, _ => valueStep stack (.cast t type) token

def step (env : Nat -> Option Tree) (s : State) (token : Token) : Option State :=
  match s.phase with
  | .operand => operandStep env s.stack token
  | .word name =>
      if token = .mark '(' then some ⟨.list (.call name) [] :: s.stack, .operand⟩
      else if token = .mark '.' && isTableWord name then some ⟨s.stack, .dot name⟩
      else none
  | .quoted name =>
      if token = .mark '.' then some ⟨s.stack, .dot name⟩
      else valueStep s.stack (.column none name) token
  | .dot qualifier =>
      match token with
      | .quoted name => some ⟨s.stack, .value (.column (some qualifier) name)⟩
      | _ => none
  | .arrayWord =>
      if token = .mark '[' then some ⟨.list .array [] :: s.stack, .operand⟩ else none
  | .quantifier op all left =>
      if token = .mark '(' then some ⟨.quantified op all left :: s.stack, .operand⟩ else none
  | .closed t =>
      if token = .mark '[' then some ⟨.subscript t :: s.stack, .operand⟩
      else valueStep s.stack t token
  | .value t => valueStep s.stack t token
  | .isWord t =>
      if token = .word "null" then some ⟨s.stack, .value (.isNull false t)⟩
      else if token = .word "not" then some ⟨s.stack, .isNot t⟩
      else none
  | .isNot t =>
      if token = .word "null" then some ⟨s.stack, .value (.isNull true t)⟩ else none
  | .typecast t =>
      match token with
      | .word name => if isTypeWord name then some ⟨s.stack, .typeName t [token]⟩ else none
      | .quoted _ => some ⟨s.stack, .typeName t [token]⟩
      | _ => none
  | .typeName t type => typeStep s.stack t type token
  | .typeDot t schema =>
      match token with
      | .quoted name =>
          some ⟨s.stack, .typeName t [.quoted schema, .mark '.', .quoted name]⟩
      | _ => none
  | .typeBracket t type =>
      if token = .mark ']' then
        some ⟨s.stack, .typeName t (type ++ [.mark '[', .mark ']'])⟩
      else none

def run (env : Nat -> Option Tree) : State -> List Token -> Option State
  | s, [] => some s
  | s, token :: rest => (step env s token).bind fun next => run env next rest

def State.finish? (s : State) : Option Tree :=
  s.phase.value?.bind fun t =>
    match collapse 0 s.stack t with
    | some ([], whole) => some whole
    | _ => none

def parse? (env : Nat -> Option Tree) (tokens : List Token) : Option Tree :=
  (run env ⟨[], .operand⟩ tokens).bind State.finish?

def read? (conforming : Bool) (env : Nat -> Option Tree) (text : String) : Option Tree :=
  (tokens? conforming text.toList).bind (parse? env)

/-- An arrow takes what comes next as its right operand, and other operators of its level come
later. -/
example : read? true (fun _ => none) "(\"data\")->(\"a\") || (\"b\")" =
    some (.binary "||" (.binary "->" (.column none "data") (.column none "a"))
      (.column none "b")) :=
  rfl

theorem run_append (env : Nat -> Option Tree) (s : State) (first second : List Token) :
    run env s (first ++ second) = (run env s first).bind fun next => run env next second := by
  induction first generalizing s with
  | nil => rfl
  | cons token rest ih =>
      rw [List.cons_append, run, run]
      cases step env s token with
      | none => rfl
      | some next => exact ih next

end Server
end TypedQuery
