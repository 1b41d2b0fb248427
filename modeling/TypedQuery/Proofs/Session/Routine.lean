import TypedQuery.Proofs.Expr.TextMatch
import TypedQuery.Proofs.Server.Evaluation

/-!
# Routines of the server

A routine is read from the statement that installs it: the types of its parameters and of its
result, and the expression that it selects, in which the parameters stand for columns.  The one that
appends at a path is read and evaluated here.
-/

namespace TypedQuery

open Server

structure Routine where
  name : String
  parameters : List (String × ServerType)
  result : ServerType
  /-- Whether the result is NULL as soon as an argument is. -/
  strict : Bool
  body : Tree

namespace Routine

def parameter? : List Token -> Option (String × ServerType)
  | .word name :: type => (ServerType.ofTokens? type).map fun t => (name, t)
  | _ => none

def ofTokens? (header body : List Token) : Option Routine :=
  match header, body with
  | .word "create" :: .word "or" :: .word "replace" :: .word "function" :: .word name ::
      .mark '(' :: rest, .word "select" :: expression =>
      match rest.span (· ≠ .mark ')') with
      | (list, .mark ')' :: .word "returns" :: properties) =>
          match properties.span (· ≠ .word "language") with
          | (result, flags) => do
              let parameters <- (list.splitOn (.mark ',')).mapM parameter?
              let result <- ServerType.ofTokens? result
              let body <- parseQuery? (fun _ => none) expression
              return ⟨name, parameters, result, flags.contains (.word "strict"), body⟩
      | _ => none
  | _, _ => none

def ofDefinition? (definition : String) : Option Routine :=
  (tokens? true (Bootstrap.beforeDollars definition.toList)).bind fun header =>
    (tokens? true (Bootstrap.beforeDollars (Bootstrap.afterDollars definition.toList))).bind
      (ofTokens? header)

def columns (r : Routine) (args : List Value) : Columns := fun name =>
  ((r.parameters.zip args).find? (·.1.1 = name)).map fun entry => (entry.1.2, entry.2)

/-- What a call comes to; the body calls no routines. -/
def function (r : Routine) (engine : Engine) : Function where
  parameters := r.parameters.map (·.2)
  value args :=
    let value := fun args => r.body.denote engine (fun _ _ => none) (r.columns args) r.result
    if r.strict then Function.strict value args else value args

end Routine

namespace Bootstrap

/-- The routines that a server has after the helpers have been installed, of those on documents. -/
def routines (engine : Engine) : Routines := fun name type =>
  (Routine.ofDefinition? appendAtPath).bind fun r =>
    if r.name = name ∧ r.result = type then some (r.function engine) else none

def appendRoutine : Routine where
  name := "jsonb_append_at_path"
  parameters := [("target", .jsonb), ("path", .array .text), ("value", .jsonb)]
  result := .jsonb
  strict := false
  body :=
    .call "jsonb_set" [
      .call "coalesce" [.column none "target", .emptyObject],
      .column none "path",
      .binary "||"
        (.call "coalesce" [
          .binary "#>" (.column none "target") (.column none "path"), .emptyArray])
        (.call "jsonb_build_array" [.column none "value"]),
      .keyword "true"]

theorem tokens_appendHeader :
    tokens? true (beforeDollars appendAtPath.toList) = some [
      .word "create", .word "or", .word "replace", .word "function",
      .word "jsonb_append_at_path", .mark '(', .word "target", .word "jsonb", .mark ',',
      .word "path", .word "text", .mark '[', .mark ']', .mark ',', .word "value", .word "jsonb",
      .mark ')', .word "returns", .word "jsonb", .word "language", .word "sql",
      .word "immutable", .word "parallel", .word "safe", .word "as"] := by
  unfold appendAtPath
  iterate 8 rw [String.toList_append]
  decide +kernel

theorem tokens_appendBody :
    tokens? true (beforeDollars (afterDollars appendAtPath.toList)) = some [
      .word "select", .word "jsonb_set", .mark '(', .word "coalesce", .mark '(', .word "target",
      .mark ',', .string "\x7b\x7d", .typecast, .word "jsonb", .mark ')', .mark ',',
      .word "path", .mark ',', .word "coalesce", .mark '(', .word "target", .operator "#>",
      .word "path", .mark ',', .string "[]", .typecast, .word "jsonb", .mark ')',
      .operator "||", .word "jsonb_build_array", .mark '(', .word "value", .mark ')', .mark ',',
      .word "true", .mark ')'] := by
  unfold appendAtPath
  iterate 8 rw [String.toList_append]
  decide +kernel

theorem ofDefinition?_appendAtPath :
    Routine.ofDefinition? appendAtPath = some appendRoutine := by
  rw [Routine.ofDefinition?, tokens_appendHeader, Option.bind_some, tokens_appendBody]
  rfl

theorem routines_append (engine : Engine) :
    routines engine "jsonb_append_at_path" .jsonb = some (appendRoutine.function engine) := by
  rw [routines, ofDefinition?_appendAtPath]
  rfl

open Server.Tree in
theorem append_value (engine : Engine) (d : Json) {path : Value} {steps : List String}
    (hpath : Function.path? path = some steps) {v : Value} {item : Json}
    (hv : Function.item? v = some item) :
    (appendRoutine.function engine).value [.json d, path, v] =
      (d.set? steps (((d.at? steps).getD (.array [])).concat (.array [item]))).map .json := by
  let columns := appendRoutine.columns [.json d, path, v]
  let denote (t : Tree) : ServerType -> Option Value := t.denote engine (fun _ _ => none) columns
  have hnull : path.isNull = false := by
    cases path <;> first | rfl | cases hpath
  have htarget : denote (.column none "target") .jsonb = some (.json d) := rfl
  have hsteps : denote (.column none "path") (.array .text) = some path := rfl
  have hvalue : denote (.column none "value") .jsonb = some v := rfl
  have hdefault : denote (.call "coalesce" [.column none "target", .emptyObject]) .jsonb =
      some (.json d) := denote_coalesce htarget denote_emptyObject
  have hreached : denote (.binary "#>" (.column none "target") (.column none "path")) .jsonb =
      some (((d.at? steps).map Value.json).getD .null) := by
    have hargs := evaluated?_cons htarget (evaluated?_cons hsteps evaluated?_nil)
    refine (denote_operator rfl hargs).trans ?_
    refine (Function.strict_eq_value _ ?_).trans ?_
    · simp only [List.any_cons, hnull]
      rfl
    · rw [Function.documentAt, hpath, Option.map_some]
  have hbefore : denote (.call "coalesce" [
      .binary "#>" (.column none "target") (.column none "path"), .emptyArray]) .jsonb =
        some (.json ((d.at? steps).getD (.array []))) := by
    refine (denote_coalesce hreached denote_emptyArray).trans ?_
    cases d.at? steps <;> rfl
  have hitem : denote (.call "jsonb_build_array" [.column none "value"]) .jsonb =
      some (.json (.array [item])) := by
    refine (denote_call rfl rfl (evaluated?_cons hvalue evaluated?_nil)).trans ?_
    simp [Function.documentArray, hv]
  have hafter : denote (.binary "||" (.call "coalesce" [
      .binary "#>" (.column none "target") (.column none "path"), .emptyArray])
        (.call "jsonb_build_array" [.column none "value"])) .jsonb =
          some (.json (((d.at? steps).getD (.array [])).concat (.array [item]))) :=
    (denote_operator rfl (evaluated?_cons hbefore (evaluated?_cons hitem evaluated?_nil))).trans rfl
  refine (denote_documentSet hdefault hsteps hafter).trans ?_
  refine (Function.strict_eq_value _ ?_).trans ?_
  · simp only [List.any_cons, hnull]
    rfl
  · rw [Function.documentSet, hpath, Option.bind_some]

end Bootstrap
end TypedQuery
