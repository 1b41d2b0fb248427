import TypedQuery.Sql.Type

/-!
# Errors of query building

Every error is a cause with the data it speaks of.  The text of an error is decided in one place,
by `message`; errors of a nested conversion carry the error inside.
-/

namespace TypedQuery

inductive MappingFault where
  | noTableInScope
  | undeclaredSlot (slot : String)
  | noColumn (model name : String)
  | noColumnAt (model : String) (index : Nat)
  | noColumns (model : String)
  | columnTwice (model column : String)
  | severalKeys (model : String)
  | noKey (model : String)
  | noKeySequence (model : String)
  | noTable (statement : String)
deriving DecidableEq

/-- An expression or a statement that has no SQL form. -/
inductive CompileFault where
  | tableNotFirst
  | columnExpected
  | columnAfterColumn (name : String)
  | jsonStepOffPath
  | jsonAccess (found : SqlType)
  | noProperty (name : String) (found : SqlType)
  | booleanOperands (op : String) (found : SqlType)
  | arrayLength (found : SqlType)
  | incomparable (left right : SqlType)
  | unstorable (value target : SqlType)
  | inapplicable (op : String) (left right : SqlType)
  | noMethod (name : String) (found : SqlType)
  | containsReceiver (found : SqlType)
  | containsItem (item receiver : SqlType)
  | overlap (left right : SqlType)
  | indexReceiver (found : SqlType)
  | indexPosition (found : SqlType)
  | memberType (receiver values : SqlType)
  | memberValues
  | unknownFunction (name : String)
  | functionArity (name expected : String) (count : Nat)
  | singleArgument (name : String) (count : Nat)
  | substringArity (count : Nat)
  | substringPosition (found : SqlType)
  | stringArgument (name : String) (found : SqlType)
  | predicate (found : SqlType)
  | subqueryValue
  | nothingToProject
  | noRows (table : String)
  | jsonHelperPath
  | jsonHelperColumn
  | notJson (column : String) (found : SqlType)
  | notArray (column : String) (found : SqlType)
deriving DecidableEq

/-- The array types whose textual form ends early or is malformed. -/
inductive ArrayFault where
  | truncated
  | badLength (n : Int)
  | noOpening
  | unterminatedQuote
  | malformed
  | malformedBounds (text : String)
  | trailing (text : String)
deriving DecidableEq

/-- A value that does not fit where it should go. -/
inductive ConversionFault where
  | unknownType (name : String)
  | unregistered (host : String)
  | unmapped (host : String)
  | unlisted (label enum : String)
  | mismatch (variant host : String)
  | tooLarge
  | tooSmall
  | shape (name : String)
  | unreadable
  | rowEnd (read : Nat)
  | noFieldAt (index : Nat)
  | indicator (variant : String)
  | countWithoutRow
  | noEntry (name : String)
  | entryIsModel (name : String)
  | entryIsScalar (name : String)
  | inColumn (position : Nat) (inner : ConversionFault)
  | array (fault : ArrayFault)
  | byteCount (expected found : Nat)
  | dateRange
  | timestampRange
  | jsonbVersion
  | truncatedNumeric
  | numericNaN
  | hexForm
  | hexDigits (text : String)
  | malformedText (kind text : String)
  | elementKind (variant : String)
  | nestedBinding
deriving DecidableEq

inductive Error where
  | mapping (fault : MappingFault)
  | compile (fault : CompileFault)
  | conversion (fault : ConversionFault)
  | emptyMutation (table : String)
deriving DecidableEq

abbrev Result (α : Type) := Except Error α

namespace MappingFault

def text : MappingFault -> String
  | noTableInScope => "expression has no table in scope"
  | undeclaredSlot slot => s!"slot `{slot}` is not declared"
  | noColumn model name => s!"`{model}` has no column mapped to `{name}`"
  | noColumnAt model index => s!"`{model}` has no column #{index}"
  | noColumns model => s!"`{model}` declares no columns"
  | columnTwice model column => s!"`{model}` maps column `{column}` twice"
  | severalKeys model => s!"`{model}` declares more than one primary key"
  | noKey model => s!"`{model}` has no primary key"
  | noKeySequence model => s!"`{model}` has no primary key sequence"
  | noTable statement => s!"{statement} has no table"

end MappingFault

namespace CompileFault

def text : CompileFault -> String
  | tableNotFirst => "a table slot can only start a field path"
  | columnExpected => "a field path must name a column first"
  | columnAfterColumn name => s!"`{name}` cannot follow another column; use a JSON step"
  | jsonStepOffPath => "JSON steps are only supported on column paths"
  | jsonAccess found => s!"JSON access requires a JSON value, got {found}"
  | noProperty name found => s!"no property `{name}` on {found}"
  | booleanOperands op found => s!"`{op}` requires boolean operands, got {found}"
  | arrayLength found => s!"array length requires an array, got {found}"
  | incomparable left right => s!"cannot compare {left} with {right}"
  | unstorable value target => s!"cannot store {value} into a {target} column"
  | inapplicable op left right => s!"cannot apply `{op}` to {left} and {right}"
  | noMethod name found => s!"no method `{name}` on {found}"
  | containsReceiver found => s!"`contains` requires a string or an array, got {found}"
  | containsItem item receiver => s!"cannot look for {item} in {receiver}"
  | overlap left right => s!"`pg_contains_any` requires arrays, got {left} and {right}"
  | indexReceiver found => s!"indexing requires an array or a JSON value, got {found}"
  | indexPosition found => s!"array index must be an integer, got {found}"
  | memberType receiver values => s!"cannot test {receiver} for membership in {values}"
  | memberValues => "membership requires a host collection or a subquery"
  | unknownFunction name => s!"unknown SQL function `{name}`"
  | functionArity name expected count => s!"`{name}` takes {expected} argument(s), got {count}"
  | singleArgument name count => s!"`{name}` takes 1 argument, got {count}"
  | substringArity count => s!"`substring` takes 1 or 2 arguments, got {count}"
  | substringPosition found => s!"`substring` requires integer positions, got {found}"
  | stringArgument name found => s!"`{name}` requires a string argument, got {found}"
  | predicate found => s!"predicate must be boolean, got {found}"
  | subqueryValue => "a subquery used as a value must project a single expression"
  | nothingToProject => "select has nothing to project"
  | noRows table => s!"insert into `{table}` has no rows"
  | jsonHelperPath => "JSON helpers take a column path"
  | jsonHelperColumn => "JSON helpers take a path to a column of the updated table"
  | notJson column found => s!"`{column}` is {found}, not JSON"
  | notArray column found => s!"`{column}` is {found}, not an array"

end CompileFault

namespace ArrayFault

def text : ArrayFault -> String
  | truncated => "truncated array value"
  | badLength n => s!"invalid length {n} in array value"
  | noOpening => "array value does not start with `\x7b`"
  | unterminatedQuote => "unterminated quoted array element"
  | malformed => "malformed array value"
  | malformedBounds text => s!"malformed array `{text}`"
  | trailing text => s!"trailing characters in array `{text}`"

end ArrayFault

/-- How the causes are worded that a reader of documents or of plain values reports without saying
more. -/
structure Wording where
  document : String := "the document does not fit"
  plain : String := "the text cannot be read"

namespace ConversionFault

/-- What precedes the text of every conversion error, also of nested ones. -/
def heading : String := "conversion error: "

def text (words : Wording) : ConversionFault -> String
  | unknownType name => s!"unknown declared type `{name}`"
  | unregistered host =>
      s!"`{host}` has no PostgreSQL mapping; register it with `register_enum` first"
  | unmapped host => s!"`{host}` has no PostgreSQL mapping"
  | unlisted label enum => s!"`{label}` is not a label of enum `{enum}`"
  | mismatch variant host => s!"cannot convert {variant} value into `{host}`"
  | tooLarge => "number too large to fit in target type"
  | tooSmall => "number too small to fit in target type"
  | shape name => s!"`{name}`: " ++ words.document
  | unreadable => words.plain
  | rowEnd read => s!"row has only {read} column(s)"
  | noFieldAt index => s!"row has no column #{index}"
  | indicator variant => s!"null indicator must be boolean, got {variant}"
  | countWithoutRow => "count returned no row"
  | noEntry name => s!"shape has no entry `{name}`"
  | entryIsModel name => s!"`{name}` is a model entry; use `model`"
  | entryIsScalar name => s!"`{name}` is a scalar entry; use `get`"
  | inColumn position inner => s!"column #{position}: " ++ heading ++ inner.text words
  | array fault => fault.text
  | byteCount expected found => s!"expected {expected} bytes, got {found}"
  | dateRange => "date out of range"
  | timestampRange => "timestamp out of range"
  | jsonbVersion => "unsupported jsonb version"
  | truncatedNumeric => "truncated numeric"
  | numericNaN => "NaN cannot be represented as a decimal"
  | hexForm => "bytea value is not in hex format"
  | hexDigits text => s!"invalid hex in bytea `{text}`"
  | malformedText kind text => s!"invalid {kind} `{text}`"
  | elementKind variant => s!"array element of kind {variant} does not match the array type"
  | nestedBinding => "multidimensional arrays cannot be bound as parameters"

end ConversionFault

namespace Error

def message (words : Wording) : Error -> String
  | mapping fault => "model mapping error: " ++ fault.text
  | compile fault => "compile error: " ++ fault.text
  | conversion fault => ConversionFault.heading ++ fault.text words
  | emptyMutation table => s!"update of `{table}` has no SET clause"

end Error

end TypedQuery
