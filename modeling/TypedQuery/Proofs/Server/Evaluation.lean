import TypedQuery.Proofs.Server.ArrayLiteral
import TypedQuery.Proofs.Server.DocumentPath
import TypedQuery.Proofs.Server.Equality
import TypedQuery.Proofs.Server.Query

/-!
# The values of expressions

An expression has a value of the type that it is needed as, given the values of the columns; it has
none where the server refuses it or stops.  Arrays have one dimension.  Of the functions and the
operators of the server there are those that the list and JSON helpers write.
-/

namespace TypedQuery

open Server

/-!
## Three-valued logic
-/

/-- A truth value; none is the unknown one, which is NULL. -/
abbrev Truth : Type := Option Bool

namespace Truth

def value : Truth -> Value
  | some b => .bool b
  | none => .null

def ofValue? : Value -> Option Truth
  | .bool b => some (some b)
  | .null => some none
  | _ => none

def not (t : Truth) : Truth := t.map Bool.not

def any (ts : List Truth) : Truth :=
  if some true ∈ ts then some true else if none ∈ ts then none else some false

def all (ts : List Truth) : Truth :=
  if some false ∈ ts then some false else if none ∈ ts then none else some true

theorem ofValue?_value (t : Truth) : ofValue? t.value = some t := by
  cases t <;> rfl

theorem not_eq_true_iff {t : Truth} : t.not = some true <-> t = some false := by
  rcases t with _ | _ | _ <;> decide

theorem any_eq_false_iff {ts : List Truth} :
    any ts = some false <-> forall t, t ∈ ts -> t = some false := by
  unfold any
  split
  · rename_i htrue
    exact iff_of_false nofun fun h => nomatch h _ htrue
  split
  · rename_i hunknown
    exact iff_of_false nofun fun h => nomatch h _ hunknown
  · rename_i htrue hunknown
    refine iff_of_true rfl fun t ht => ?_
    rcases t with _ | _ | _
    · exact absurd ht hunknown
    · rfl
    · exact absurd ht htrue

theorem all_eq_true_iff {ts : List Truth} :
    all ts = some true <-> forall t, t ∈ ts -> t = some true := by
  unfold all
  split
  · rename_i hfalse
    exact iff_of_false nofun fun h => nomatch h _ hfalse
  split
  · rename_i hunknown
    exact iff_of_false nofun fun h => nomatch h _ hunknown
  · rename_i hfalse hunknown
    refine iff_of_true rfl fun t ht => ?_
    rcases t with _ | _ | _
    · exact absurd ht hunknown
    · exact absurd ht hfalse
    · rfl

end Truth

namespace Value

theorem eq_null_of_isNull {v : Value} (h : v.isNull = true) : v = .null := by
  cases v <;> first | rfl | cases h

/-- Whether two values are equal, which is unknown if one of them is NULL. -/
def equalTo (clock : Clock) (a b : Value) : Truth :=
  if a.isNull || b.isNull then none else some (a.equals clock b)

/-- Whether two values are not distinct: NULL is distinct from all values but itself. -/
def indistinct (clock : Clock) (a b : Value) : Bool :=
  if a.isNull || b.isNull then a.isNull && b.isNull else a.equals clock b

end Value

/-!
## Servers
-/

/-- What a server makes of texts in quotes and of values, and whether it takes backslashes in
texts literally. -/
structure Engine where
  conforming : Bool
  clock : Clock
  /-- The value of a type that a text in quotes stands for. -/
  input : ServerType -> String -> Option Value
  /-- The document that a value is converted to. -/
  document : Value -> Option Json
  input_text : forall text, input .text text = some (.text text)
  input_null : input .jsonb "null" = some (.json .null)
  input_array : input .jsonb "[]" = some (.json (.array []))
  input_object : input .jsonb "\x7b\x7d" = some (.json (.object []))

abbrev Columns : Type := String -> Option (ServerType × Value)

namespace Columns

def types (columns : Columns) (qualifier : Option String) (name : String) : Option ServerType :=
  if qualifier.isSome then none else (columns name).map (·.1)

def bind (columns : Columns) (name : String) (type : ServerType) (v : Value) : Columns :=
  fun other => if other = name then some (type, v) else columns other

end Columns

abbrev Meaning : Type := Columns -> ServerType -> Option Value

/-!
## Functions and operators
-/

structure Function where
  parameters : List ServerType
  value : List Value -> Option Value

namespace Function

def evaluated? (columns : Columns) : List Meaning -> List ServerType -> Option (List Value)
  | [], [] => some []
  | arg :: args, type :: types =>
      (arg columns type).bind fun v => (evaluated? columns args types).map (v :: ·)
  | _, _ => none

def applied? (f : Function) (columns : Columns) (args : List Meaning) : Option Value :=
  (evaluated? columns args f.parameters).bind f.value

theorem evaluated?_eq_none {columns : Columns} {arg : Meaning} {type : ServerType}
    (harg : arg columns type = none) (before after : List (Meaning × ServerType)) :
    evaluated? columns ((before ++ (arg, type) :: after).map (·.1))
      ((before ++ (arg, type) :: after).map (·.2)) = none := by
  induction before with
  | nil => exact congrArg (Option.bind · _) harg
  | cons first rest ih =>
      rw [List.cons_append, List.map_cons, List.map_cons, evaluated?, ih]
      cases first.1 columns first.2 <;> rfl

/-- NULL if an argument is NULL. -/
def strict (value : List Value -> Option Value) (args : List Value) : Option Value :=
  if args.any Value.isNull then some .null else value args

theorem strict_eq_value (value : List Value -> Option Value) {args : List Value}
    (h : args.any Value.isNull = false) : strict value args = value args := by
  rw [strict, h]
  rfl

def coalesced (args : List Value) : Option Value := some ((args.find? (!·.isNull)).getD .null)

/-- NULL is no items here. -/
def concatenated : List Value -> Option Value
  | [.null, v] => some v
  | [v, .null] => some v
  | [.array xs, .array ys] => some (.array (xs ++ ys))
  | _ => none

def removed (clock : Clock) : List Value -> Option Value
  | [.null, _] => some .null
  | [.array xs, v] => some (.array (xs.filter fun x => !x.indistinct clock v))
  | _ => none

def text? : Value -> Option String
  | .text text => some text
  | _ => none

def path? : Value -> Option (List String)
  | .array steps => steps.mapM text?
  | _ => none

/-- Of the calls with a fourth argument, those that create what is missing. -/
def documentSet : List Value -> Option Value
  | [.json d, path, .json value] => (path? path).bind fun steps => (d.set? steps value).map .json
  | [.json d, path, .json value, .bool true] =>
      (path? path).bind fun steps => (d.set? steps value).map .json
  | _ => none

/-- NULL if there is nothing at the path. -/
def documentAt : List Value -> Option Value
  | [.json d, path] => (path? path).map fun steps => ((d.at? steps).map Value.json).getD .null
  | _ => none

def documentConcat : List Value -> Option Value
  | [.json d, .json d'] => some (.json (d.concat d'))
  | _ => none

/-- A document as an item of an array, NULL being the null of documents. -/
def item? : Value -> Option Json
  | .null => some .null
  | .json d => some d
  | _ => none

def documentArray : List Value -> Option Value
  | [v] => (item? v).map fun d => .json (.array [d])
  | _ => none

def negated : List Value -> Option Value
  | [v] => (Truth.ofValue? v).map fun t => t.not.value
  | _ => none

end Function

namespace Engine

variable (engine : Engine)

def comparison? (op : String) : Option (Value -> Value -> Truth) :=
  match op with
  | "=" => some (Value.equalTo engine.clock)
  | "<>" => some fun a b => (Value.equalTo engine.clock a b).not
  | _ => none

/-- The function of a name for the types of the arguments, where they are known, that has results
of a type. -/
def call? (name : String) (types : List (Option ServerType)) (type : ServerType) :
    Option Function :=
  match name, types, type with
  | "coalesce", types, type => some ⟨types.map fun _ => type, Function.coalesced⟩
  | "array_cat", _, .array item => some ⟨[.array item, .array item], Function.concatenated⟩
  | "array_remove", _, .array item => some ⟨[.array item, item], Function.removed engine.clock⟩
  | "jsonb_set", types, .jsonb =>
      some ⟨[.jsonb, .array .text, .jsonb] ++ (types.drop 3).map fun _ => .boolean,
        Function.strict Function.documentSet⟩
  | "jsonb_build_array", _, .jsonb => some ⟨[.jsonb], Function.documentArray⟩
  | "to_jsonb", [some t], .jsonb =>
      -- A text in quotes or NULL has no type to be converted from.
      if t = .unknown then none
      else some ⟨[t], Function.strict fun args => args.head?.bind fun v =>
        (engine.document v).map Value.json⟩
  | _, _, _ => none

/-- An operator for the type of its left operand.  Values are compared as values of this type. -/
def operator? (op : String) (left : Option ServerType) (type : ServerType) : Option Function :=
  match op, type with
  | "#>", .jsonb => some ⟨[.jsonb, .array .text], Function.strict Function.documentAt⟩
  | "||", .jsonb => some ⟨[.jsonb, .jsonb], Function.strict Function.documentConcat⟩
  | op, .boolean =>
      left.bind fun t => (engine.comparison? op).map fun compare =>
        ⟨[t, t], fun
          | [a, b] => some (compare a b).value
          | _ => none⟩
  | _, _ => none

def quantifier? (op : String) (all : Bool) (left : Option ServerType) (type : ServerType) :
    Option Function :=
  if type = .boolean then
    left.bind fun t => (engine.comparison? op).map fun compare =>
      ⟨[t, .array t], fun
        | [_, .null] => some .null
        | [a, .array bs] =>
            let truths := bs.map (compare a)
            some (if all then Truth.all truths else Truth.any truths).value
        | _ => none⟩
  else none

def literal? (t : Tree) (type : ServerType) : Option Value :=
  match type, t with
  | .array _, .keyword "null" => some .null
  | .array _, .string text => if text = "\x7b\x7d" then some (.array []) else none
  | .array _, _ => none
  | type, t => t.scalar? engine.input type

end Engine

/-!
## Queries
-/

namespace Server.ElementQuery

def ofName? : String -> Option ElementQuery
  | "ARRAY SELECT" => some list
  | "SELECT jsonb_agg" => some document
  | _ => none

def element? (query : ElementQuery) (type : ServerType) : Option ServerType :=
  match query, type with
  | list, .array item => some item
  | document, .jsonb => some .jsonb
  | _, _ => none

/-- The elements of a source, which has none if it is NULL. -/
def elements? (query : ElementQuery) (source : Value) : Option (List Value) :=
  match query, source with
  | _, .null => some []
  | list, .array items => some items
  | document, .json (.array items) => some (items.map .json)
  | _, _ => none

def collected (query : ElementQuery) (items : List Value) : Value :=
  match query with
  | list => .array items
  | document => .json (.array (items.filterMap fun
      | .json d => some d
      | _ => none))

/-- The columns in the condition.  An element of a document has the column `value`, and goes by
`e` only where no column does. -/
def bind (query : ElementQuery) (columns : Columns) (type : ServerType) (element : Value) :
    Columns :=
  match query with
  | list => columns.bind "e" type element
  | document =>
      let inner := columns.bind "value" type element
      if (columns "e").isSome then inner else inner.bind "e" type element

def selected? (condition : Value -> Option Value) : List Value -> Option (List Value)
  | [] => some []
  | element :: rest =>
      ((condition element).bind Truth.ofValue?).bind fun truth =>
        (selected? condition rest).map fun kept =>
          if truth = some true then element :: kept else kept

/-- The condition is refused or not before there are elements. -/
def value? (query : ElementQuery) (source condition : Meaning) : Meaning :=
  fun columns type =>
    (query.element? type).bind fun item =>
      let holds (element : Value) : Option Value :=
        condition (query.bind columns item element) .boolean
      (holds .null).bind fun _ => (source columns type).bind fun v =>
        (query.elements? v).bind fun elements => (selected? holds elements).map query.collected

end Server.ElementQuery

/-!
## Trees
-/

abbrev Routines : Type := String -> ServerType -> Option Function

def Engine.named? (engine : Engine) (routines : Routines) (name : String)
    (types : List (Option ServerType)) (args : List Meaning) : Meaning := fun columns type =>
  match ElementQuery.ofName? name, args with
  | some query, [source, condition] => query.value? source condition columns type
  | _, args => ((engine.call? name types type).or (routines name type)).bind fun f =>
      f.applied? columns args

namespace Server.Tree

variable (engine : Engine) (routines : Routines)

mutual

def denote : Tree -> Meaning
  | .column none name => fun columns type =>
      (columns name).bind fun column => if column.1 = type then some column.2 else none
  | .cast arg tokens => fun columns type =>
      if ServerType.ofTokens? tokens = some type then denote arg columns type else none
  | .array items => fun columns type =>
      match type with
      | .array item => ((denoteAll items).mapM fun d : Meaning => d columns item).map Value.array
      | _ => none
  | .call name args => fun columns type =>
      engine.named? routines name (args.map (type? columns.types)) (denoteAll args) columns type
  | .unary op arg => fun columns type =>
      if op = "NOT" then
        if type = .boolean then
          Function.applied? ⟨[.boolean], Function.negated⟩ columns [denote arg]
        else none
      else engine.literal? (.unary op arg) type
  | .binary op left right => fun columns type =>
      (engine.operator? op (left.type? columns.types) type).bind fun f =>
        f.applied? columns [denote left, denote right]
  | .quantified op all left right => fun columns type =>
      (engine.quantifier? op all (left.type? columns.types) type).bind fun f =>
        f.applied? columns [denote left, denote right]
  | t => fun _ type => engine.literal? t type

def denoteAll : List Tree -> List Meaning
  | [] => []
  | t :: rest => denote t :: denoteAll rest

end

end Server.Tree

/-!
## Values of constants
-/

namespace ServerType

theorem ofTokens?_scalar {t : SqlType} (ht : t.isArray = false) :
    ofTokens? t.tokens = some t.onServer := by
  have hname := ofName?_tokens ht 0
  rw [SqlType.bracketPairs, List.append_nil] at hname
  rw [ofTokens?, hname]
  rfl

theorem ofTokens?_list {t : SqlType} (ht : t.isArray = false) (hnull : t ≠ .null) :
    ofTokens? (SqlType.array t).tokens = some (.array t.onServer) := by
  have hroot : (SqlType.array t).root = t := by
    cases t with
    | array item => cases ht
    | _ => rfl
  have htokens : ofTokens? (SqlType.array t).tokens =
      some (.array (SqlType.array t).root.onServer) :=
    ofTokens?_array (by rwa [hroot]) (Nat.succ_ne_zero _)
  rwa [hroot] at htokens

end ServerType

theorem Engine.literal?_eq_scalar? (engine : Engine) {type : ServerType}
    (htype : type.isArray = false) (t : Tree) :
    engine.literal? t type = t.scalar? engine.input type := by
  cases type with
  | array item => cases htype
  | _ => rfl

namespace Server.Tree

variable {engine : Engine} {routines : Routines} {columns : Columns} {t : SqlType}

def emptyObject : Tree := .cast (.string "\x7b\x7d") (SqlType.json none).tokens

def emptyArray : Tree := .cast (.string "[]") (SqlType.json none).tokens

theorem denote_cast {arg : Tree} {tokens : List Token} (type : ServerType)
    (htype : ServerType.ofTokens? tokens = some type) :
    (cast arg tokens).denote engine routines columns type =
      arg.denote engine routines columns type :=
  if_pos htype

theorem denoteAll_eq_map (items : List Tree) :
    denoteAll engine routines items = items.map (denote engine routines) := by
  induction items with
  | nil => rfl
  | cons item rest ih => rw [denoteAll, ih, List.map_cons]

theorem denote_array {α : Type} {tree : α -> Tree} {value : α -> Value} {item : ServerType}
    (entries : List α)
    (h : forall a, a ∈ entries ->
      (tree a).denote engine routines columns item = some (value a)) :
    (array (entries.map tree)).denote engine routines columns (.array item) =
      some (.array (entries.map value)) := by
  have hitems : ((entries.map tree).map (denote engine routines)).mapM
      (fun d : Meaning => d columns item) = some (entries.map value) := by
    induction entries with
    | nil => rfl
    | cons a rest ih =>
        rcases List.forall_mem_cons.mp h with ⟨ha, hrest⟩
        rw [List.map_cons, List.map_cons, List.mapM_cons, ha, ih hrest]
        rfl
  show ((denoteAll engine routines (entries.map tree)).mapM
    (fun d : Meaning => d columns item)).map Value.array = _
  rw [denoteAll_eq_map, hitems]
  rfl

theorem denote_tree (ht : t.isArray = false) {v : Value} (hread : ReadBack engine.input t v) :
    v.tree.denote engine routines columns t.onServer = some v := by
  have hliteral : engine.literal? v.tree t.onServer = some v := by
    rw [engine.literal?_eq_scalar? (SqlType.isArray_onServer ht)]
    exact Value.scalar?_tree hread.fits ht hread.read
  have hinteger : forall n, (integerTree n).denote engine routines columns t.onServer =
      engine.literal? (integerTree n) t.onServer := by
    intro n
    cases n <;> rfl
  cases v with
  | int n => exact (hinteger n.toInt).trans hliteral
  | bigint n => exact (hinteger n.toInt).trans hliteral
  | array items =>
      have hfits := hread.fits
      cases t with
      | array item => cases ht
      | _ => cases hfits
  | _ => exact hliteral

theorem denote_constant (ht : t.isArray = false) (hnull : t ≠ .null) {v : Value}
    (hread : ReadBack engine.input t v) :
    (Typed.tree ⟨v, t⟩).denote engine routines columns t.onServer = some v := by
  have htree : v.tree.denote engine routines columns t.onServer = some v := denote_tree ht hread
  unfold Typed.tree
  split
  · split
    · rename_i type htype
      have hself : type = t := by
        cases t with
        | null => exact absurd rfl hnull
        | _ => exact (Option.some.inj htype).symm
      rw [hself, denote_cast _ (ServerType.ofTokens?_scalar ht), htree]
    · exact htree
  · exact htree

theorem denote_list (ht : t.isArray = false) (hnull : t ≠ .null) {items : List Value}
    (hread : forall v, v ∈ items -> ReadBack engine.input t v) :
    (Typed.tree ⟨.array items, .array t⟩).denote engine routines columns (.array t.onServer) =
      some (.array items) := by
  have htree : Typed.tree ⟨.array items, .array t⟩ =
      .cast (Value.array items).tree (SqlType.array t).tokens := rfl
  rw [htree, denote_cast _ (ServerType.ofTokens?_list ht hnull)]
  cases items with
  | nil => rfl
  | cons v rest =>
      rw [tree_array (List.cons_ne_nil v rest)]
      have harray : (array ((v :: rest).map Value.tree)).denote engine routines columns
          (.array t.onServer) = some (.array ((v :: rest).map id)) :=
        denote_array (v :: rest) fun v hv => denote_tree ht (hread v hv)
      rwa [List.map_id] at harray

theorem denote_emptyObject :
    emptyObject.denote engine routines columns .jsonb = some (.json (.object [])) := by
  rw [emptyObject, denote_cast .jsonb rfl]
  exact engine.input_object

theorem denote_emptyArray :
    emptyArray.denote engine routines columns .jsonb = some (.json (.array [])) := by
  rw [emptyArray, denote_cast .jsonb rfl]
  exact engine.input_array

/-!
## Values of calls and queries
-/

theorem evaluated?_nil :
    Function.evaluated? columns (denoteAll engine routines []) [] = some [] :=
  rfl

theorem evaluated?_cons {arg : Tree} {rest : List Tree} {type : ServerType}
    {types : List ServerType} {v : Value} {values : List Value}
    (harg : arg.denote engine routines columns type = some v)
    (hrest : Function.evaluated? columns (denoteAll engine routines rest) types = some values) :
    Function.evaluated? columns (denoteAll engine routines (arg :: rest)) (type :: types) =
      some (v :: values) := by
  rw [denoteAll, Function.evaluated?, harg, hrest]
  rfl

section

variable {args : List Tree} {type : ServerType} {f : Function} {values : List Value}

theorem denote_named {name : String} (hquery : ElementQuery.ofName? name = none)
    (found : Option Function)
    (hfound : (engine.call? name (args.map (type? columns.types)) type).or (routines name type) =
      found) :
    (call name args).denote engine routines columns type =
      found.bind fun f => f.applied? columns (denoteAll engine routines args) := by
  show engine.named? routines name (args.map (type? columns.types))
    (denoteAll engine routines args) columns type = _
  unfold Engine.named?
  rw [hquery]
  dsimp only
  rw [hfound]

theorem denote_call {name : String} (hquery : ElementQuery.ofName? name = none)
    (hcall : engine.call? name (args.map (type? columns.types)) type = some f)
    (hargs : Function.evaluated? columns (denoteAll engine routines args) f.parameters =
      some values) :
    (call name args).denote engine routines columns type = f.value values := by
  rw [denote_named hquery (some f) (by rw [hcall, Option.some_or]), Option.bind_some,
    Function.applied?, hargs, Option.bind_some]

theorem denote_routine {name : String} (hquery : ElementQuery.ofName? name = none)
    (hcall : engine.call? name (args.map (type? columns.types)) type = none)
    (hroutine : routines name type = some f)
    (hargs : Function.evaluated? columns (denoteAll engine routines args) f.parameters =
      some values) :
    (call name args).denote engine routines columns type = f.value values := by
  rw [denote_named hquery (some f) (by rw [hcall, hroutine, Option.none_or]),
    Option.bind_some, Function.applied?, hargs, Option.bind_some]

theorem denote_unknown {name : String} (hquery : ElementQuery.ofName? name = none)
    (hcall : engine.call? name (args.map (type? columns.types)) type = none)
    (hroutine : routines name type = none) :
    (call name args).denote engine routines columns type = none :=
  denote_named hquery none (by rw [hcall, hroutine, Option.none_or])

theorem denote_call_eq_none {name : String} (hquery : ElementQuery.ofName? name = none)
    (hfound : (engine.call? name (args.map (type? columns.types)) type).or (routines name type) =
      some f)
    (hargs : Function.evaluated? columns (denoteAll engine routines args) f.parameters = none) :
    (call name args).denote engine routines columns type = none := by
  rw [denote_named hquery _ hfound, Option.bind_some, Function.applied?, hargs, Option.bind_none]

theorem denote_operator {op : String} {left right : Tree}
    (hoperator : engine.operator? op (left.type? columns.types) type = some f)
    (hargs : Function.evaluated? columns (denoteAll engine routines [left, right]) f.parameters =
      some values) :
    (binary op left right).denote engine routines columns type = f.value values := by
  show (engine.operator? op (left.type? columns.types) type).bind _ = _
  rw [hoperator, Option.bind_some]
  exact congrArg (Option.bind · f.value) hargs

end

theorem denote_coalesce {first second : Tree} {type : ServerType} {a b : Value}
    (hfirst : first.denote engine routines columns type = some a)
    (hsecond : second.denote engine routines columns type = some b) :
    (call "coalesce" [first, second]).denote engine routines columns type =
      some (if a.isNull then b else a) := by
  rw [denote_call rfl rfl (evaluated?_cons hfirst (evaluated?_cons hsecond evaluated?_nil))]
  show Function.coalesced [a, b] = _
  unfold Function.coalesced
  cases ha : a.isNull with
  | false => simp [ha]
  | true =>
      cases hb : b.isNull with
      | false => simp [ha, hb]
      | true =>
          rw [Value.eq_null_of_isNull ha, Value.eq_null_of_isNull hb]
          rfl

theorem denote_documentSet {target path value : Tree} {d p v : Value}
    (htarget : target.denote engine routines columns .jsonb = some d)
    (hpath : path.denote engine routines columns (.array .text) = some p)
    (hvalue : value.denote engine routines columns .jsonb = some v) :
    (call "jsonb_set" [target, path, value, keyword "true"]).denote engine routines columns .jsonb =
      Function.strict Function.documentSet [d, p, v, .bool true] := by
  have hcreate : (keyword "true").denote engine routines columns .boolean = some (.bool true) := rfl
  exact denote_call
    (f := ⟨[.jsonb, .array .text, .jsonb, .boolean], Function.strict Function.documentSet⟩) rfl rfl
    (evaluated?_cons htarget (evaluated?_cons hpath
      (evaluated?_cons hvalue (evaluated?_cons hcreate evaluated?_nil))))

theorem denote_query (query : ElementQuery) (source condition : Tree) :
    (query.tree source condition).denote engine routines =
      query.value? (source.denote engine routines) (condition.denote engine routines) := by
  cases query <;> rfl

theorem denote_column {name : String} {type : ServerType} {v : Value}
    (hcolumn : columns name = some (type, v)) :
    (column none name).denote engine routines columns type = some v := by
  show (columns name).bind _ = _
  rw [hcolumn, Option.bind_some]
  exact if_pos rfl

theorem denote_bound (name : String) (type : ServerType) (v : Value) :
    (column none name).denote engine routines (columns.bind name type v) type = some v :=
  denote_column (if_pos rfl)

theorem type?_bound (name : String) (type : ServerType) (v : Value) :
    (column none name).type? (columns.bind name type v).types = some type := by
  simp [type?, Columns.types, Columns.bind]

theorem denote_not {arg : Tree} {truth : Truth}
    (harg : arg.denote engine routines columns .boolean = some truth.value) :
    (unary "NOT" arg).denote engine routines columns .boolean = some truth.not.value := by
  have hargs := evaluated?_cons harg evaluated?_nil
  have hvalue : Function.negated [truth.value] = some truth.not.value := by
    rw [Function.negated, Truth.ofValue?_value, Option.map_some]
  exact (congrArg (Option.bind · Function.negated) hargs).trans hvalue

theorem denote_not_eq_none {arg : Tree}
    (harg : arg.denote engine routines columns .boolean = none) :
    (unary "NOT" arg).denote engine routines columns .boolean = none := by
  have hargs := Function.evaluated?_eq_none harg [] []
  exact congrArg (Option.bind · Function.negated) hargs

theorem denote_quantified_eq_none {op : String} {all : Bool} {left right : Tree}
    {type : ServerType} (htype : left.type? columns.types = some type)
    (hright : right.denote engine routines columns (.array type) = none) :
    (quantified op all left right).denote engine routines columns .boolean = none := by
  have hargs := Function.evaluated?_eq_none hright [(left.denote engine routines, type)] []
  show (engine.quantifier? op all (left.type? columns.types) .boolean).bind _ = _
  rw [Engine.quantifier?, if_pos rfl, htype, Option.bind_some]
  cases engine.comparison? op with
  | none => rfl
  | some compare => exact congrArg (Option.bind · _) hargs

theorem denote_quantified (op : String) (all : Bool) {compare : Value -> Value -> Truth}
    (hcompare : engine.comparison? op = some compare) {left right : Tree} {type : ServerType}
    (htype : left.type? columns.types = some type) {a : Value} {bs : List Value}
    (hleft : left.denote engine routines columns type = some a)
    (hright : right.denote engine routines columns (.array type) = some (.array bs)) :
    (quantified op all left right).denote engine routines columns .boolean =
      some (if all then Truth.all (bs.map (compare a))
        else Truth.any (bs.map (compare a))).value := by
  have hargs := evaluated?_cons hleft (evaluated?_cons hright evaluated?_nil)
  show (engine.quantifier? op all (left.type? columns.types) .boolean).bind _ = _
  rw [Engine.quantifier?, if_pos rfl, htype, Option.bind_some, hcompare]
  exact congrArg (Option.bind · _) hargs

end Server.Tree

namespace Server.ElementQuery

theorem selected?_eq_filter (condition : Value -> Option Value) {truth : Value -> Truth}
    (h : forall x, condition x = some (truth x).value) (elements : List Value) :
    selected? condition elements =
      some (elements.filter fun x => decide (truth x = some true)) := by
  induction elements with
  | nil => rfl
  | cons x rest ih =>
      rw [selected?, h, Option.bind_some, Truth.ofValue?_value, ih, List.filter_cons]
      simp

theorem value?_list {source condition : Meaning} {columns : Columns} {type : ServerType}
    {v : Value} {elements : List Value} {truth : Value -> Truth}
    (hsource : source columns (.array type) = some v) (helements : list.elements? v = some elements)
    (hcondition : forall x, condition (columns.bind "e" type x) .boolean = some (truth x).value) :
    list.value? source condition columns (.array type) =
      some (.array (elements.filter fun x => decide (truth x = some true))) := by
  have hselected := selected?_eq_filter
    (fun x => condition (columns.bind "e" type x) .boolean) hcondition elements
  simp only [value?, element?, bind, Option.bind_some, hcondition .null, hsource, helements,
    hselected, collected, Option.map_some]

theorem value?_list_eq_none {source condition : Meaning} {columns : Columns} {type : ServerType}
    (hcondition : condition (columns.bind "e" type .null) .boolean = none) :
    list.value? source condition columns (.array type) = none := by
  rw [value?]
  simp [element?, bind, hcondition]

end Server.ElementQuery
end TypedQuery
