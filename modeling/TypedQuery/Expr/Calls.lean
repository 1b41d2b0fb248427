import TypedQuery.Expr.Fold
import TypedQuery.Expr.Operator

/-!
# Method and accessor registries

A method call is answered by the handler registered for the kind of the receiver and the name of
the method, a pseudo-property by the accessor registered for them.  A later registration takes
the place of an earlier one.
-/

namespace TypedQuery

/-- An argument of a call: the expression, and what compiling it gives. -/
structure Argument where
  expr : Expr
  compiled : Result TypedFragment

namespace Argument

/-- The position one further on, as the server counts from one and callers from zero. -/
def next (a : Argument) : Result TypedFragment :=
  let one : Typed := ⟨.int 1, .integer⟩
  match Fold.binaryNode .add a.expr (.constant one) with
  | .constant v => .ok (.ofValue v)
  | _ => do TypedFragment.arithmetic .add (<- a.compiled) (.ofValue one)

def single (name : String) : List Argument -> Result Argument
  | [a] => .ok a
  | args => .error (.compile (.singleArgument name args.length))

end Argument

abbrev MethodHandler := TypedFragment -> List Argument -> Result TypedFragment

abbrev Accessor := TypedFragment -> Result TypedFragment

structure CallRegistry where
  methods : List ((TypeKind × String) × MethodHandler) := []
  accessors : List ((TypeKind × String) × Accessor) := []

namespace CallRegistry

def registerMethod (calls : CallRegistry) (kind : TypeKind) (name : String)
    (handler : MethodHandler) : CallRegistry :=
  { calls with methods := ((kind, name), handler) :: calls.methods }

def registerAccessor (calls : CallRegistry) (kind : TypeKind) (name : String)
    (accessor : Accessor) : CallRegistry :=
  { calls with accessors := ((kind, name), accessor) :: calls.accessors }

def method? (calls : CallRegistry) (kind : TypeKind) (name : String) : Option MethodHandler :=
  (calls.methods.find? (·.1 = (kind, name))).map (·.2)

def accessor? (calls : CallRegistry) (kind : TypeKind) (name : String) : Option Accessor :=
  (calls.accessors.find? (·.1 = (kind, name))).map (·.2)

end CallRegistry

/-!
## Methods of texts
-/

namespace TextMethod

def textArgument (name : String) (args : List Argument) : Result TypedFragment := do
  let argument <- Argument.single name args
  let compiled <- argument.compiled
  match compiled.type with
  | .text | .null => return compiled
  | other => .error (.compile (.stringArgument name other))

/-- The receiver matched against a pattern made of the argument. -/
def pattern (receiver : TypedFragment) (op before : String) (argument : TypedFragment)
    (after : String) : TypedFragment :=
  ⟨((((Fragment.empty.text "(").nested receiver.query).text (") " ++ op ++ " (" ++ before)).nested
      argument.query).text after, .boolean⟩

def startsWith : MethodHandler := fun receiver args => do
  let argument <- textArgument "starts_with" args
  return pattern receiver "LIKE" "escape_like(" argument ") || '%')"

def endsWith : MethodHandler := fun receiver args => do
  let argument <- textArgument "ends_with" args
  return pattern receiver "LIKE" "'%' || escape_like(" argument "))"

def contains : MethodHandler := fun receiver args => do
  let argument <- textArgument "contains" args
  return pattern receiver "LIKE" "'%' || escape_like(" argument ") || '%')"

def startsWithIgnoreCase : MethodHandler := fun receiver args => do
  let argument <- textArgument "starts_with_ignore_case" args
  return pattern receiver "~*" "'^' || escape_regexp(" argument "))"

def position (compiled : Result TypedFragment) : Result TypedFragment := do
  let fragment <- compiled
  match fragment.type with
  | .integer | .bigint | .null => return fragment
  | other => .error (.compile (.substringPosition other))

/-- Characters from a start counted from zero, to the end or of a given length. -/
def substring : MethodHandler := fun receiver args => do
  let (start, length) <-
    match args with
    | [start] => .ok (start, none)
    | [start, length] => .ok (start, some length)
    | _ => .error (.compile (.substringArity args.length))
  let start <- position start.next
  let query :=
    (((Fragment.empty.text "substr(").nested receiver.query).text ", ").nested start.query
  match length with
  | none => return ⟨query.text ")", .text⟩
  | some length =>
      let length <- position length.compiled
      return ⟨((query.text ", ").nested length.query).text ")", .text⟩

end TextMethod

/-!
## Pseudo-properties
-/

namespace Property

def around (before after : String) (type : SqlType) : Accessor := fun value =>
  .ok (TypedFragment.surround before value after type)

def datePart (field : String) : Accessor :=
  around ("date_part('" ++ field ++ "', ") ")::integer" .integer

def second : Accessor := around "floor(date_part('second', " "))::integer" .integer

def date : Accessor := around "(" ")::date" .date

end Property

def CallRegistry.builtin : CallRegistry where
  methods := [
    ((.string, "starts_with"), TextMethod.startsWith),
    ((.string, "ends_with"), TextMethod.endsWith),
    ((.string, "contains"), TextMethod.contains),
    ((.string, "starts_with_ignore_case"), TextMethod.startsWithIgnoreCase),
    ((.string, "substring"), TextMethod.substring)]
  accessors := [
    ((.temporal, "year"), Property.datePart "year"),
    ((.temporal, "month"), Property.datePart "month"),
    ((.temporal, "day"), Property.datePart "day"),
    ((.temporal, "hour"), Property.datePart "hour"),
    ((.temporal, "minute"), Property.datePart "minute"),
    ((.temporal, "second"), Property.second),
    ((.temporal, "date"), Property.date),
    ((.string, "length"), Property.around "char_length(" ")" .integer),
    ((.string, "to_upper"), Property.around "upper(" ")" .text),
    ((.string, "to_lower"), Property.around "lower(" ")" .text),
    ((.array, "length"), Property.around "cardinality(" ")" .integer),
    ((.json, "length"), Property.around "jsonb_array_length(" ")" .integer)]

end TypedQuery
