import TypedQuery.Expr.Function
import TypedQuery.Proofs.Server.Literal

/-!
# The types that the server assigns

The server takes the type of an expression from its text and from the types of the columns alone.  A
whole number has the narrowest type that holds it; a text in quotes and NULL have no type until an
operator, a function or a cast gives them one.  An operator or a function is picked by the types of
its operands, which are converted to wider types of the same category where that is needed.
-/

namespace TypedQuery

open Server

inductive ServerType where
  /-- Of a quoted text or NULL that nothing has given a type yet. -/
  | unknown
  | boolean
  | int4
  | int8
  | float4
  | float8
  | numeric
  | text
  | uuid
  | date
  | time
  | timestamp
  | timestamptz
  | interval
  | bytea
  | jsonb
  | enum (schema : Option String) (name : String)
  /-- Arrays of any number of dimensions. -/
  | array (item : ServerType)
deriving DecidableEq

namespace ServerType

/-- An array of arrays is an array with one dimension more, which is of the same type. -/
def arrayOf : ServerType -> ServerType
  | array item => array item
  | item => array item

def isArray : ServerType -> Bool
  | array _ => true
  | _ => false

def isNumber : ServerType -> Bool
  | int4 | int8 | float4 | float8 | numeric => true
  | _ => false

def isFloat : ServerType -> Bool
  | float4 | float8 => true
  | _ => false

def isMoment : ServerType -> Bool
  | date | timestamp | timestamptz => true
  | _ => false

/-!
## Literals and names of types
-/

/-- The type of a whole number that is written without a cast. -/
def ofInteger (n : Int) : ServerType :=
  if -(Number.twoPow 31) ≤ n ∧ n < Number.twoPow 31 then int4
  else if -(Number.twoPow 63) ≤ n ∧ n < Number.twoPow 63 then int8
  else numeric

def typeNames : List (String × ServerType) := [
  ("unknown", unknown), ("boolean", boolean), ("integer", int4), ("bigint", int8),
  ("real", float4), ("numeric", numeric), ("text", text), ("uuid", uuid), ("date", date),
  ("time", time), ("timestamp", timestamp), ("interval", interval), ("bytea", bytea),
  ("jsonb", jsonb)]

def ofName? : List Token -> Option (ServerType × List Token)
  | .word "double" :: .word "precision" :: rest => some (float8, rest)
  | .word name :: rest => (typeNames.lookup name).map fun t => (t, rest)
  | .quoted schema :: .mark '.' :: .quoted name :: rest => some (enum (some schema) name, rest)
  | .quoted name :: rest => some (enum none name, rest)
  | _ => none

def brackets? : List Token -> Option Nat
  | [] => some 0
  | .mark '[' :: .mark ']' :: rest => (brackets? rest).map (· + 1)
  | _ => none

def ofTokens? (tokens : List Token) : Option ServerType :=
  (ofName? tokens).bind fun (t, rest) => (brackets? rest).bind fun dimensions =>
    if dimensions = 0 then some t
    else if t = unknown then none
    else some (array t)

/-!
## Conversions
-/

/-- Whether values are converted to the wider type of their category without being asked to. -/
def widensTo : ServerType -> ServerType -> Bool
  | int4, int8 | int4, numeric | int4, float4 | int4, float8 => true
  | int8, numeric | int8, float4 | int8, float8 => true
  | numeric, float4 | numeric, float8 => true
  | float4, float8 => true
  | date, timestamp | date, timestamptz => true
  | timestamp, timestamptz => true
  | array a, array b => widensTo a b
  | _, _ => false

def common? (a b : ServerType) : Option ServerType :=
  if a = unknown then some b
  else if b = unknown || a = b then some a
  else if a.widensTo b then some b
  else if b.widensTo a then some a
  else none

def settled (t : ServerType) : ServerType := if t = unknown then text else t

def commonOf? (types : List ServerType) : Option ServerType :=
  (types.foldlM common? unknown).map settled

/-!
## Operators
-/

/-- Numbers of two types are taken as the wider type, but a floating-point number next to a number
of another type is taken as one of double precision. -/
def numbers? (l r : ServerType) : Option ServerType :=
  if l.isNumber && r.isNumber then
    if (l.isFloat || r.isFloat) && l != r then some float8 else common? l r
  else none

def times? (op : String) (l r : ServerType) : Option ServerType :=
  if op = "+" then
    match l, r with
    | date, int4 | int4, date => some date
    | date, interval | interval, date | date, time | time, date => some timestamp
    | timestamp, interval | interval, timestamp => some timestamp
    | timestamptz, interval | interval, timestamptz => some timestamptz
    | time, interval | interval, time => some time
    | interval, interval => some interval
    | _, _ => none
  else if op = "-" then
    match l, r with
    | date, int4 => some date
    | date, interval => some timestamp
    | date, date => some int4
    | timestamp, interval => some timestamp
    | timestamptz, interval => some timestamptz
    | time, interval => some time
    | interval, interval | time, time => some interval
    | l, r => if l.isMoment && r.isMoment then some interval else none
  else if op = "*" then
    if l = interval && r.isNumber || l.isNumber && r = interval then some interval else none
  else if op = "/" && l = interval && r.isNumber then some interval
  else none

/-- An operand without a type is taken to have the type of the other one. -/
def arithmetic? (op : String) (l r : ServerType) : Option ServerType :=
  let l' := if l = unknown then r else l
  let r' := if r = unknown then l else r
  (numbers? l' r').or (times? op l' r')

/-- Arrays are put together with arrays and with items, and texts with everything else. -/
def concatenation? : ServerType -> ServerType -> Option ServerType
  | array a, array b => (common? a b).map array
  | array a, item => (common? a item).map array
  | item, array b => (common? item b).map array
  | l, r =>
      if l = text || r = text then some text
      else if [bytea, jsonb].contains l && (r = l || r = unknown) then some l
      else if [bytea, jsonb].contains r && l = unknown then some r
      else if l = unknown || r = unknown then some text
      else none

def isTruth (t : ServerType) : Bool := t = boolean || t = unknown

/-- The type of the result of an operator; what is compared is not looked at. -/
def operator? (op : String) (l r : ServerType) : Option ServerType :=
  if ["AND", "OR"].contains op then if l.isTruth && r.isTruth then some boolean else none
  else if ["=", "<>", "<", "<=", ">", ">="].contains op then some boolean
  else if op = "||" then concatenation? l r
  else if ["+", "-", "*", "/"].contains op then arithmetic? op l r
  else none

/-!
## Functions
-/

def fixedCalls : List (String × ServerType) := [
  ("lower", text), ("upper", text), ("trim", text), ("md5", text), ("replace", text),
  ("left", text), ("right", text), ("split_part", text), ("lpad", text), ("rpad", text),
  ("concat", text), ("jsonb_typeof", text), ("escape_like", text), ("escape_regexp", text),
  ("length", int4), ("char_length", int4), ("strpos", int4), ("array_length", int4),
  ("cardinality", int4), ("jsonb_array_length", int4), ("count", int8), ("random", float8),
  ("date_part", float8), ("now", timestamptz), ("age", interval), ("gen_random_uuid", uuid),
  ("to_jsonb", jsonb)]

def absolute? (t : ServerType) : Option ServerType :=
  if t.isNumber then some t else if t = unknown then some float8 else none

/-- Only decimals and floating-point numbers of double precision are rounded. -/
def rounded? (t : ServerType) : Option ServerType :=
  if t = numeric then some numeric
  else if t.isNumber || t = unknown then some float8
  else none

/-- A date is truncated as a moment with a time zone, and a time of day as an interval. -/
def truncated? : ServerType -> Option ServerType
  | timestamp => some timestamp
  | date | timestamptz => some timestamptz
  | time | interval => some interval
  | _ => none

def compared? (l r : ServerType) : Option ServerType :=
  if l = unknown then some r.settled
  else if r = unknown || l = r then some l
  else if l.isNumber && r.isNumber then
    if l.isFloat then some l
    else if r.isFloat then some float8
    else if r = numeric then some numeric
    else some l
  else if l.isMoment && r.isMoment then some l
  else if l = time && r = interval || l = interval && r = time then some interval
  else none

def itemised? : ServerType -> ServerType -> Option ServerType
  | array a, item => (common? a item).map array
  | unknown, array _ => none
  | unknown, item => some (array item.settled)
  | _, _ => none

def joined? : ServerType -> ServerType -> Option ServerType
  | array a, array b => (common? a b).map array
  | array a, unknown | unknown, array a => some (array a)
  | unknown, unknown => some (array text)
  | _, _ => none

/-- Functions whose type is that of their arguments, or is picked by it. -/
def resolvedCall? (name : String) (args : List ServerType) : Option ServerType :=
  match name, args with
  | "abs", [t] => t.absolute?
  | "ceil", [t] | "floor", [t] => t.rounded?
  | "coalesce", types | "greatest", types | "least", types => commonOf? types
  | "nullif", [l, r] => l.compared? r
  | "date_trunc", [_, t] => t.truncated?
  | "array_append", [l, r] | "array_remove", [l, r] => l.itemised? r
  | "array_cat", [l, r] => l.joined? r
  | _, _ => none

def call? (name : String) (args : List ServerType) : Option ServerType :=
  (fixedCalls.lookup name).or (resolvedCall? name args)

end ServerType

/-!
## Expressions
-/

namespace Server.Tree

def isArrayLiteral : Tree -> Bool
  | array _ => true
  | _ => false

def prefixed? (op : String) (arg : Tree) (t : ServerType) : Option ServerType :=
  match op, arg with
  | "-", .number n => some (.ofInteger (-n))
  | "NOT", _ => if t.isTruth then some .boolean else none
  | _, _ => none

mutual

/-- The type of an expression that the server accepts, given the types of the columns.  Arrays
without a cast, subscripts and quantifiers are not looked at. -/
def type? (columns : Option String -> String -> Option ServerType) : Tree -> Option ServerType
  | .keyword name => some (if name = "null" then .unknown else .boolean)
  | .number n => some (.ofInteger n)
  | .string _ => some .unknown
  | .column qualifier name => columns qualifier name
  | .call name args => (types? columns args).bind (ServerType.call? name)
  | .unary op arg => (type? columns arg).bind (prefixed? op arg)
  | .binary op left right =>
      (type? columns left).bind fun l => (type? columns right).bind (ServerType.operator? op l)
  | .isNull _ arg => (type? columns arg).map fun _ => .boolean
  | .cast arg type =>
      -- The items of an array are read as items of the type that it is cast to.
      if arg.isArrayLiteral then ServerType.ofTokens? type
      else (type? columns arg).bind fun _ => ServerType.ofTokens? type
  | _ => none

def types? (columns : Option String -> String -> Option ServerType) :
    List Tree -> Option (List ServerType)
  | [] => some []
  | t :: rest => (type? columns t).bind fun first => (types? columns rest).map (first :: ·)

end

/-- The expression can be read, and the server assigns a type to it. -/
structure Accepted (columns : Option String -> String -> Option ServerType) (t : Tree) : Prop where
  isQualified : t.isQualified = true
  hasType : exists s, t.type? columns = some s

namespace Accepted

variable {columns : Option String -> String -> Option ServerType} {t : Tree}

theorem unary {op : String} (h : (Tree.unary op t).Accepted columns) : t.Accepted columns := by
  rcases h.hasType with ⟨s, hs⟩
  rw [type?] at hs
  rcases Option.bind_eq_some_iff.mp hs with ⟨arg, harg, -⟩
  exact ⟨h.isQualified, arg, harg⟩

theorem binary {op : String} {left right : Tree}
    (h : (Tree.binary op left right).Accepted columns) :
    left.Accepted columns ∧ right.Accepted columns := by
  have hqualified := h.isQualified
  rcases h.hasType with ⟨s, hs⟩
  rw [type?] at hs
  rw [Tree.isQualified, Bool.and_eq_true] at hqualified
  rcases Option.bind_eq_some_iff.mp hs with ⟨l, hl, hs⟩
  rcases Option.bind_eq_some_iff.mp hs with ⟨r, hr, -⟩
  exact ⟨⟨hqualified.1, l, hl⟩, ⟨hqualified.2, r, hr⟩⟩

theorem isNull {negated : Bool} (h : (Tree.isNull negated t).Accepted columns) :
    t.Accepted columns := by
  rcases h.hasType with ⟨s, hs⟩
  rw [type?] at hs
  rcases Option.map_eq_some_iff.mp hs with ⟨arg, harg, -⟩
  exact ⟨h.isQualified, arg, harg⟩

theorem cast {type : List Token} (h : (Tree.cast t type).Accepted columns)
    (harray : t.isArrayLiteral = false) : t.Accepted columns := by
  rcases h.hasType with ⟨s, hs⟩
  rw [type?, harray, if_neg Bool.false_ne_true] at hs
  rcases Option.bind_eq_some_iff.mp hs with ⟨arg, harg, -⟩
  exact ⟨h.isQualified, arg, harg⟩

theorem call {name : String} {args : List Tree} (h : (Tree.call name args).Accepted columns) :
    forall arg, arg ∈ args -> arg.Accepted columns := by
  have hqualified := h.isQualified
  rcases h.hasType with ⟨s, hs⟩
  rw [type?] at hs
  rw [Tree.isQualified] at hqualified
  rcases Option.bind_eq_some_iff.mp hs with ⟨types, htypes, -⟩
  clear hs h
  induction args generalizing types with
  | nil => exact List.forall_mem_nil _
  | cons first rest ih =>
      rw [allQualified, Bool.and_eq_true] at hqualified
      rw [types?] at htypes
      rcases Option.bind_eq_some_iff.mp htypes with ⟨type, htype, htypes⟩
      rcases Option.map_eq_some_iff.mp htypes with ⟨others, hothers, -⟩
      exact List.forall_mem_cons.mpr ⟨⟨hqualified.1, type, htype⟩, ih hqualified.2 others hothers⟩

end Accepted

theorem types?_map {columns : Option String -> String -> Option ServerType} {α : Type}
    {xs : List α} {tree : α -> Tree} {type : α -> ServerType}
    (h : forall x, x ∈ xs -> (tree x).type? columns = some (type x)) :
    types? columns (xs.map tree) = some (xs.map type) := by
  induction xs with
  | nil => rfl
  | cons x rest ih =>
      rcases List.forall_mem_cons.mp h with ⟨hx, hrest⟩
      rw [List.map_cons, List.map_cons, types?, hx, ih hrest]
      rfl

end Server.Tree

/-!
## Types of values
-/

namespace SqlType

/-- The type that a cast to the type asks for. -/
def onServer : SqlType -> ServerType
  | null => .unknown
  | boolean => .boolean
  | integer => .int4
  | bigint => .int8
  | real => .float4
  | double => .float8
  | numeric => .numeric
  | text => .text
  | uuid => .uuid
  | date => .date
  | time => .time
  | timestamp => .timestamp
  | interval => .interval
  | bytea => .bytea
  | json _ => .jsonb
  | enum e => .enum e.schema e.name
  | array item => item.onServer.arrayOf

def root : SqlType -> SqlType
  | array item => item.root
  | t => t

def dimensions : SqlType -> Nat
  | array item => item.dimensions + 1
  | _ => 0

def bracketPairs : Nat -> List Token
  | 0 => []
  | n + 1 => .mark '[' :: .mark ']' :: bracketPairs n

theorem bracketPairs_append (n : Nat) :
    bracketPairs n ++ [.mark '[', .mark ']'] = bracketPairs (n + 1) := by
  induction n with
  | zero => rfl
  | succ n ih => rw [bracketPairs, List.cons_append, List.cons_append, ih, <- bracketPairs]

theorem tokens_eq (t : SqlType) : t.tokens = t.root.tokens ++ bracketPairs t.dimensions := by
  induction t with
  | array item ih =>
      rw [tokens, ih, List.append_assoc, bracketPairs_append, root, dimensions]
  | _ => exact (List.append_nil _).symm

theorem root_isArray (t : SqlType) : t.root.isArray = false := by
  induction t with
  | array item ih => exact ih
  | _ => rfl

theorem isArray_onServer {t : SqlType} (h : t.isArray = false) : t.onServer.isArray = false := by
  cases t with
  | array item => cases h
  | _ => rfl

theorem onServer_eq (t : SqlType) :
    t.onServer = if t.dimensions = 0 then t.root.onServer else .array t.root.onServer := by
  induction t with
  | array item ih =>
      have hroot := isArray_onServer item.root_isArray
      rw [onServer, ih, dimensions, root, if_neg (Nat.succ_ne_zero _)]
      split
      · cases hitem : item.root.onServer with
        | array inner =>
            rw [hitem] at hroot
            cases hroot
        | _ => rfl
      · rfl
  | _ => rfl

theorem onServer_eq_unknown {t : SqlType} (h : t.onServer = .unknown) : t = .null := by
  cases t with
  | null => rfl
  | array item =>
      rw [onServer] at h
      cases hitem : item.onServer <;> rw [hitem] at h <;> cases h
  | _ => cases h

end SqlType

namespace ServerType

open SqlType (bracketPairs)

theorem brackets?_bracketPairs (n : Nat) : brackets? (bracketPairs n) = some n := by
  induction n with
  | zero => rfl
  | succ n ih =>
      rw [bracketPairs, brackets?, ih]
      rfl

theorem ofName?_tokens {t : SqlType} (h : t.isArray = false) (n : Nat) :
    ofName? (t.tokens ++ bracketPairs n) = some (t.onServer, bracketPairs n) := by
  cases t with
  | array item => cases h
  | enum e =>
      rw [SqlType.tokens, SqlType.onServer]
      cases e.schema with
      | some schema => rfl
      | none =>
          cases n with
          | zero => rfl
          | succ n => rfl
  | _ => rfl

/-- The name of a type, as it is written after a cast, is the name of the type it stands for. -/
theorem ofTokens?_tokens {t : SqlType} {s : ServerType} (h : ofTokens? t.tokens = some s) :
    s = t.onServer := by
  rw [ofTokens?, t.tokens_eq, ofName?_tokens t.root_isArray, Option.bind_some] at h
  dsimp only at h
  rw [brackets?_bracketPairs, Option.bind_some] at h
  rw [t.onServer_eq]
  split at h
  · rename_i hzero
    rw [if_pos hzero]
    exact (Option.some.inj h).symm
  · rename_i hzero
    split at h
    · cases h
    · rw [if_neg hzero]
      exact (Option.some.inj h).symm

end ServerType

namespace Server.Tree

variable {columns : Option String -> String -> Option ServerType} {s : ServerType}

theorem type?_cast {t : Tree} {type : SqlType}
    (h : (Tree.cast t type.tokens).type? columns = some s) : s = type.onServer := by
  rw [type?] at h
  split at h
  · exact ServerType.ofTokens?_tokens h
  · rcases Option.bind_eq_some_iff.mp h with ⟨_, -, h⟩
    exact ServerType.ofTokens?_tokens h

theorem type?_fixedCall {name : String} {args : List Tree} {t : ServerType}
    (hname : ServerType.fixedCalls.lookup name = some t)
    (h : (Tree.call name args).type? columns = some s) : s = t := by
  rw [type?] at h
  rcases Option.bind_eq_some_iff.mp h with ⟨types, -, h⟩
  rw [ServerType.call?, hname, Option.some_or] at h
  exact (Option.some.inj h).symm

end Server.Tree

end TypedQuery
