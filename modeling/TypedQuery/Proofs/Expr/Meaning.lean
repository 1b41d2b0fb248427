import TypedQuery.Expr.Compile
import TypedQuery.Proofs.Server.Literal

/-!
# Trees that expressions mean

An expression means a tree of its own, put together without any text: every operator, call, cast,
subscript and JSON access is applied to the trees of its operands.  Types are taken from the
compiler, because they decide between operators that share a name.
-/

namespace TypedQuery

open Server

instance : Inhabited Tree := ⟨.keyword ""⟩

structure Meant where
  expr : Expr
  type : SqlType
  tree : Tree

namespace Tree

def castTo (t : Tree) (type : SqlType) : Tree := .cast t type.tokens

def json (type : SqlType) (t : Tree) : Tree :=
  if type = .text then .call "to_jsonb" [castTo t .text] else .call "to_jsonb" [t]

end Tree

/-!
## Operators
-/

def UnaryOp.tree (op : UnaryOp) (operand : Tree) : Tree :=
  match op with
  | .not => .unary "NOT" operand
  | .cast type => Tree.castTo operand type
  | .arrayLength => .call "cardinality" [operand]

namespace BinaryOp

/-- Adding up to a text or an array is concatenation. -/
def symbol (op : BinaryOp) (result : SqlType) : String :=
  if op = .add && (result = .text || result.isArray) then "||" else op.sql

/-- A comparison with one JSON side makes the other side JSON. -/
def operatorTree (op : BinaryOp) (result : SqlType) (left right : Meant) : Tree :=
  if op.isComparison && left.type.isJson && !right.type.isJson then
    .binary op.sql left.tree (Tree.json right.type right.tree)
  else if op.isComparison && right.type.isJson && !left.type.isJson then
    .binary op.sql (Tree.json left.type left.tree) right.tree
  else .binary (op.symbol result) left.tree right.tree

end BinaryOp

def Meant.labelled (m : Meant) (target : SqlType) : Meant :=
  match target, m.expr with
  | .enum e, .constant ⟨.text label, _⟩ =>
      { m with type := .enum e, tree := Typed.tree ⟨.enum label, .enum e⟩ }
  | _, _ => m

/-- Comparing with the NULL constant tests the other operand. -/
def BinaryOp.tree (op : BinaryOp) (result : SqlType) (left right : Meant) : Tree :=
  if (op = .eq || op = .ne) && right.expr.isNullConstant then .isNull (op = .ne) left.tree
  else if (op = .eq || op = .ne) && left.expr.isNullConstant then .isNull (op = .ne) right.tree
  else op.operatorTree result left (right.labelled left.type)

/-!
## Calls
-/

namespace Meant

def next (m : Meant) : Tree :=
  match Fold.binaryNode .add m.expr (.constant ⟨.int 1, .integer⟩) with
  | .constant v => v.tree
  | _ => .binary "+" m.tree (.number 1)

def single : List Meant -> Tree
  | [m] => m.tree
  | _ => default

def startsWith (receiver : Meant) (args : List Meant) : Tree :=
  .binary "LIKE" receiver.tree (.binary "||" (.call "escape_like" [single args]) (.string "%"))

def endsWith (receiver : Meant) (args : List Meant) : Tree :=
  .binary "LIKE" receiver.tree (.binary "||" (.string "%") (.call "escape_like" [single args]))

def containsText (receiver : Meant) (args : List Meant) : Tree :=
  .binary "LIKE" receiver.tree
    (.binary "||" (.binary "||" (.string "%") (.call "escape_like" [single args])) (.string "%"))

def startsWithIgnoreCase (receiver : Meant) (args : List Meant) : Tree :=
  .binary "~*" receiver.tree
    (.binary "||" (.string "^") (.call "escape_regexp" [single args]))

def substring (receiver : Meant) (args : List Meant) : Tree :=
  match args with
  | [start] => .call "substr" [receiver.tree, start.next]
  | [start, length] => .call "substr" [receiver.tree, start.next, length.tree]
  | _ => default

def index (receiver : Meant) (args : List Meant) : Tree :=
  match receiver.type, args with
  | .array _, [m] => .subscript receiver.tree m.next
  | _, args => .binary "->" receiver.tree (single args)

def member (receiver : Meant) (args : List Meant) (negated : Bool) : Tree :=
  match args with
  | [⟨.constant v, _, _⟩] =>
      .quantified (quantifierOp negated) negated receiver.tree
        (Compiler.retyped receiver.type v).tree
  | _ => default

end Meant

def methodTrees : List ((TypeKind × String) × (Meant -> List Meant -> Tree)) := [
  ((.string, "starts_with"), Meant.startsWith),
  ((.string, "ends_with"), Meant.endsWith),
  ((.string, "contains"), Meant.containsText),
  ((.string, "starts_with_ignore_case"), Meant.startsWithIgnoreCase),
  ((.string, "substring"), Meant.substring)]

def datePartTree (field : String) (t : Tree) : Tree :=
  Tree.castTo (.call "date_part" [.string field, t]) .integer

def secondTree (t : Tree) : Tree :=
  Tree.castTo (.call "floor" [.call "date_part" [.string "second", t]]) .integer

def callTree (name : String) (t : Tree) : Tree := .call name [t]

def accessorTrees : List ((TypeKind × String) × (Tree -> Tree)) := [
  ((.temporal, "year"), datePartTree "year"),
  ((.temporal, "month"), datePartTree "month"),
  ((.temporal, "day"), datePartTree "day"),
  ((.temporal, "hour"), datePartTree "hour"),
  ((.temporal, "minute"), datePartTree "minute"),
  ((.temporal, "second"), secondTree),
  ((.temporal, "date"), fun t => Tree.castTo t .date),
  ((.string, "length"), callTree "char_length"),
  ((.string, "to_upper"), callTree "upper"),
  ((.string, "to_lower"), callTree "lower"),
  ((.array, "length"), callTree "cardinality"),
  ((.json, "length"), callTree "jsonb_array_length")]

def nativeTree? (name : String) (receiver : Meant) (args : List Meant) : Option Tree :=
  match name with
  | "contains" => some (.quantified "=" false (Meant.single args) receiver.tree)
  | "index" => some (receiver.index args)
  | "pg_in" => some (receiver.member args false)
  | "pg_not_in" => some (receiver.member args true)
  | "pg_contains_any" => some (.binary "&&" receiver.tree (Meant.single args))
  | _ => none

def defaultTree (text : String) : Tree := (read? true (fun _ => none) text).getD default

def functionTree (name : String) (args : List Tree) : Tree :=
  match SqlFunction.lookup? name with
  | some f => .call f.name (args ++ (f.missingDefaults args.length).map defaultTree)
  | none => default

def keyed? {α : Type} (entries : List ((TypeKind × String) × α)) (kind : TypeKind)
    (name : String) : Option α :=
  (entries.find? (·.1 = (kind, name))).map (·.2)

def methodTree (name : String) (receiver : Meant) (args : List Meant) : Tree :=
  match keyed? methodTrees receiver.type.kind name with
  | some method => method receiver args
  | none =>
      match if args.isEmpty then keyed? accessorTrees receiver.type.kind name else none with
      | some accessor => accessor receiver.tree
      | none =>
          match nativeTree? name receiver args with
          | some t => t
          | none => functionTree name (receiver.tree :: args.map (·.tree))

/-!
## Paths
-/

def Binding.writtenName? (b : Binding) : Option String :=
  if b.name = b.table then none else some b.name

namespace Scopes

def tableName? (scopes : Scopes) (slot : Slot) : Option String :=
  match scopes.binding? slot with
  | some b => b.writtenName?
  | none => some slot.name

def qualifierName? (scopes : Scopes) (slot : Slot) : Option String :=
  match scopes.frames with
  | (aliases, true) :: _ =>
      if aliases.contains slot then none else scopes.tableName? slot
  | _ => scopes.tableName? slot

def columnTree (scopes : Scopes) (slot : Slot) (name : String) : Tree :=
  .column (scopes.qualifierName? slot) name

end Scopes

namespace PathStep

def tree (type : SqlType) (t : Tree) : PathStep -> Tree
  | .key k asText => .binary (arrowSymbol asText) t (Typed.tree ⟨.text k, .text⟩)
  | .index n asText => .binary (arrowSymbol asText) t (Typed.tree ⟨.int n, .integer⟩)
  | .derived name =>
      match keyed? accessorTrees type.kind name with
      | some accessor => accessor t
      | none => default
  | _ => default

end PathStep

def ResolvedPath.tree (calls : CallRegistry) (r : ResolvedPath) (t : Tree) :
    List PathStep -> Tree
  | [] => t
  | step :: rest =>
      match r.step calls step with
      | .ok next => next.tree calls (step.tree r.expr.type t) rest
      | .error _ => default

namespace Compiler

def start? (c : Compiler) (path : List PathStep) :
    Result (Slot × Column × ResolvedPath × List PathStep) := do
  let (slot, rest) <- startOfPath c.scope path
  let t <- c.scope.table slot
  match rest with
  | .column name :: steps => do
      let (index, column) <- t.requireColumn name
      return (slot, column,
        ⟨⟨Fragment.empty.column slot column.name, column.type⟩, some (slot, index), []⟩, steps)
  | _ => .error (.compile .columnExpected)

def pathTree (c : Compiler) (scopes : Scopes) (path : List PathStep) : Tree :=
  match c.start? path with
  | .ok (slot, column, start, steps) =>
      start.tree c.calls (scopes.columnTree slot column.name) steps
  | .error _ => default

/-!
## Expressions
-/

def typeOf (c : Compiler) (e : Expr) : SqlType :=
  match c.node e with
  | .ok f => f.type
  | .error _ => .null

mutual

/-- The tree that an expression means in the given frames. -/
def meaning (c : Compiler) (scopes : Scopes) : Expr -> Tree
  | .field path => c.pathTree scopes path
  | .constant v => v.tree
  | .unary op operand => op.tree (c.meaning scopes operand)
  | .binary op left right =>
      op.tree (c.typeOf (.binary op left right))
        ⟨left, c.typeOf left, c.meaning scopes left⟩
        ⟨right, c.typeOf right, c.meaning scopes right⟩
  | .method name receiver args _ =>
      methodTree name ⟨receiver, c.typeOf receiver, c.meaning scopes receiver⟩
        (c.meanings scopes args)
  | .function name args => functionTree name ((c.meanings scopes args).map (·.tree))
  | _ => default

def meanings (c : Compiler) (scopes : Scopes) : List Expr -> List Meant
  | [] => []
  | e :: rest => ⟨e, c.typeOf e, c.meaning scopes e⟩ :: c.meanings scopes rest

end

end Compiler

/-!
## Plain expressions
-/

namespace Expr

mutual

/-- Whether an expression is made of columns, constants, operators and calls only, without
subqueries and fragments compiled beforehand. -/
def isPlain : Expr -> Bool
  | .unary _ operand => operand.isPlain
  | .binary _ left right => left.isPlain && right.isPlain
  | .method _ receiver args _ => receiver.isPlain && allPlain args
  | .function _ args => allPlain args
  | .subquery _ => false
  | .compiled _ => false
  | _ => true

def allPlain : List Expr -> Bool
  | [] => true
  | e :: rest => e.isPlain && allPlain rest

end

end Expr

end TypedQuery
