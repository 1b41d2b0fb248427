import TypedQuery.Sql.Type

/-!
# SQL functions

The functions of the server that expressions may call: how many arguments each takes, the SQL
text of arguments that may be left out, and the type of the result.
-/

namespace TypedQuery

inductive Returns where
  | type (t : SqlType)
  | argument (position : Nat)
deriving DecidableEq

namespace Returns

/-- The type of the result for the given arguments; a missing argument has the type of NULL. -/
def resolve (r : Returns) (args : List SqlType) : SqlType :=
  match r with
  | type t => t
  | argument position => (args[position]?).getD .null

end Returns

structure SqlFunction where
  name : String
  required : Nat
  defaults : List String := []
  variadic : Bool := false
  returns : Returns

namespace SqlFunction

def accepts (f : SqlFunction) (count : Nat) : Bool :=
  f.required ≤ count && (f.variadic || count ≤ f.required + f.defaults.length)

def missingDefaults (f : SqlFunction) (count : Nat) : List String :=
  f.defaults.drop (count - f.required)

/-- The accepted numbers of arguments, in words. -/
def expected (f : SqlFunction) : String :=
  if f.variadic then s!"at least {f.required}"
  else if f.defaults.isEmpty then toString f.required
  else s!"{f.required} to {f.required + f.defaults.length}"

private def fixed (name : String) (required : Nat) (t : SqlType) : SqlFunction :=
  { name, required, returns := .type t }

private def likeArgument (name : String) (required position : Nat) : SqlFunction :=
  { name, required, returns := .argument position }

private def anyNumber (name : String) (returns : Returns) : SqlFunction :=
  { name, required := 1, variadic := true, returns }

def catalog : List SqlFunction := [
  fixed "lower" 1 .text,
  fixed "upper" 1 .text,
  fixed "trim" 1 .text,
  fixed "length" 1 .integer,
  fixed "md5" 1 .text,
  fixed "replace" 3 .text,
  fixed "left" 2 .text,
  fixed "right" 2 .text,
  fixed "strpos" 2 .integer,
  fixed "split_part" 3 .text,
  { name := "lpad", required := 2, defaults := ["' '"], returns := .type .text },
  { name := "rpad", required := 2, defaults := ["' '"], returns := .type .text },
  anyNumber "concat" (.type .text),
  likeArgument "abs" 1 0,
  likeArgument "ceil" 1 0,
  likeArgument "floor" 1 0,
  fixed "random" 0 .double,
  anyNumber "coalesce" (.argument 0),
  anyNumber "greatest" (.argument 0),
  anyNumber "least" (.argument 0),
  likeArgument "nullif" 2 0,
  fixed "now" 0 .timestamp,
  likeArgument "date_trunc" 2 1,
  fixed "date_part" 2 .double,
  { name := "age", required := 1, defaults := ["now()"], returns := .type .interval },
  fixed "gen_random_uuid" 0 .uuid,
  { name := "array_length", required := 1, defaults := ["1"], returns := .type .integer },
  fixed "cardinality" 1 .integer,
  likeArgument "array_append" 2 0,
  likeArgument "array_remove" 2 0,
  likeArgument "array_cat" 2 0,
  fixed "to_jsonb" 1 (.json none),
  fixed "jsonb_array_length" 1 .integer,
  fixed "jsonb_typeof" 1 .text,
  fixed "escape_like" 1 .text,
  fixed "escape_regexp" 1 .text,
  fixed "count" 1 .bigint]

/-- Looks up a function by its name in any case. -/
def lookup? (name : String) : Option SqlFunction :=
  catalog.find? (·.name == name.toLower)

end SqlFunction

end TypedQuery
