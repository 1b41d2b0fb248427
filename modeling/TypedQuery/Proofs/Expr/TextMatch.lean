import TypedQuery.Proofs.Expr.Elementary
import TypedQuery.Proofs.Server.Like
import TypedQuery.Session.Bootstrap

/-!
# Matching texts

Whether a text starts or ends with another one or contains it is found out where both are constants,
and is a pattern for the server elsewhere.  The pattern escapes the text that is looked for with a
helper function, which the server has from its installation.
-/

namespace TypedQuery

open Server

/-!
## Texts that the server computes
-/

namespace Server.Tree

section

variable (call : String -> List String -> Option String)

mutual

def text? : Tree -> Option String
  | .string text => some text
  | .cast arg type => if type = SqlType.text.tokens then text? arg else none
  | .binary "||" left right => (text? left).bind fun first => (text? right).map (first ++ ·)
  | .call name args => (texts? args).bind (call name)
  | _ => none

def texts? : List Tree -> Option (List String)
  | [] => some []
  | arg :: rest => (text? arg).bind fun first => (texts? rest).map (first :: ·)

end

def holds? : Tree -> Option Bool
  | .binary "LIKE" text pattern =>
      (text.text? call).bind fun text =>
        (pattern.text? call).bind fun pattern => like? text.toList pattern.toList
  | _ => none

theorem text?_concat {left right : Tree} {first second : List Char}
    (hleft : left.text? call = some (String.ofList first))
    (hright : right.text? call = some (String.ofList second)) :
    (binary "||" left right).text? call = some (String.ofList (first ++ second)) := by
  rw [text?, hleft, hright, String.ofList_append]
  rfl

theorem holds?_like {tree pattern : Tree} {text : String} {chars : List Char}
    (htext : tree.text? call = some text)
    (hpattern : pattern.text? call = some (String.ofList chars)) :
    (binary "LIKE" tree pattern).holds? call = like? text.toList chars := by
  rw [holds?, htext, hpattern, Option.bind_some, Option.bind_some, String.toList_ofList]

end

end Server.Tree

/-- The functions on texts that a server has. -/
def catalogText (name : String) (args : List String) : Option String :=
  match name, args with
  | "replace", [text, old, new] =>
      some (String.ofList (replaceAll old.toList new.toList text.toList))
  | _, _ => none

namespace Bootstrap

def afterDollars : List Char -> List Char
  | '$' :: '$' :: rest => rest
  | _ :: rest => afterDollars rest
  | [] => []

def beforeDollars : List Char -> List Char
  | '$' :: '$' :: _ => []
  | c :: rest => c :: beforeDollars rest
  | [] => []

/-- The expression that a function with one argument `value` selects, where strings are read with
their backslashes. -/
def body? (definition : String) (value : Tree) : Option Tree :=
  match tokens? true (beforeDollars (afterDollars definition.toList)) with
  | some (.word "select" :: expression) =>
      parse? (fun _ => some value)
        (expression.map fun token => if token = .word "value" then .parameter 1 else token)
  | _ => none

def replaceTokens (inner : List Token) (old new : String) : List Token :=
  [.word "replace", .mark '('] ++ inner ++
    [.mark ',', .string old, .mark ',', .string new, .mark ')']

theorem tokens_escapeLike :
    tokens? true (beforeDollars (afterDollars escapeLike.toList)) = some (.word "select" ::
      replaceTokens (replaceTokens (replaceTokens [.word "value"] "\\" "\\\\") "%" "\\%")
        "_" "\\_") := by
  decide +kernel

theorem body?_escapeLike (value : Tree) :
    body? escapeLike value = some
      (.call "replace" [
        .call "replace" [
          .call "replace" [value, .string "\\", .string "\\\\"],
          .string "%", .string "\\%"],
        .string "_", .string "\\_"]) := by
  rw [body?, tokens_escapeLike]
  rfl

end Bootstrap

/-- The functions on texts that a server has after the helpers have been installed. -/
def helperText (name : String) (args : List String) : Option String :=
  match name, args with
  | "escape_like", [value] =>
      (Bootstrap.body? Bootstrap.escapeLike (.string value)).bind (Tree.text? catalogText)
  | name, args => catalogText name args

theorem helperText_escapeLike (value : String) :
    helperText "escape_like" [value] = some (String.ofList (escapeWildcards value.toList)) := by
  have hbody : helperText "escape_like" [value] =
      some (String.ofList (replaceAll ['_'] ['\\', '_'] (String.ofList (replaceAll ['%'] ['\\', '%']
        (String.ofList (replaceAll ['\\'] ['\\', '\\'] value.toList)).toList)).toList)) := by
    rw [helperText, Bootstrap.body?_escapeLike]
    rfl
  rw [hbody, String.toList_ofList, String.toList_ofList, replaceAll_wildcards]

namespace Fold

theorem isInside_iff {needle text : List Char} :
    isInside needle text = true <-> needle <:+: text := by
  induction text with
  | nil => rw [isInside, List.isEmpty_iff, List.infix_nil]
  | cons c rest ih =>
      rw [isInside, Bool.or_eq_true, ih, List.isPrefixOf_iff_prefix, List.infix_cons_iff]

end Fold

/-!
## The three ways to match
-/

inductive TextMatch where
  | startsWith
  | endsWith
  | contains

namespace TextMatch

def name : TextMatch -> String
  | startsWith => "starts_with"
  | endsWith => "ends_with"
  | contains => "contains"

def Holds (text literal : List Char) : TextMatch -> Prop
  | startsWith => literal <+: text
  | endsWith => literal <:+ text
  | contains => literal <:+: text

instance (m : TextMatch) (text literal : List Char) : Decidable (m.Holds text literal) :=
  match m with
  | startsWith => inferInstanceAs (Decidable (literal <+: text))
  | endsWith => inferInstanceAs (Decidable (literal <:+ text))
  | contains => inferInstanceAs (Decidable (literal <:+: text))

def call (m : TextMatch) (text literal : String) : Expr :=
  .method m.name (.constant (Fold.ofText text)) [.constant (Fold.ofText literal)] false

def tree (m : TextMatch) (text literal : Tree) : Tree :=
  let escaped := .call "escape_like" [literal]
  .binary "LIKE" text
    (match m with
    | startsWith => .binary "||" escaped (.string "%")
    | endsWith => .binary "||" (.string "%") escaped
    | contains => .binary "||" (.binary "||" (.string "%") escaped) (.string "%"))

variable (m : TextMatch) (text literal : String)

theorem onText?_name :
    Fold.onText? m.name text [.constant (Fold.ofText literal)] =
      some (Fold.boolean (decide (m.Holds text.toList literal.toList))) := by
  have hanswer : forall {compared : Bool} {holds : Prop} [Decidable holds],
      (compared = true <-> holds) ->
        some (Fold.boolean compared) = some (Fold.boolean (decide holds)) := by
    intro compared holds _ hiff
    rw [Bool.eq_iff_iff.mpr (hiff.trans decide_eq_true_iff.symm)]
  cases m with
  | startsWith => exact hanswer List.isPrefixOf_iff_prefix
  | endsWith => exact hanswer List.isSuffixOf_iff_suffix
  | contains => exact hanswer Fold.isInside_iff

theorem fold_call :
    fold (m.call text literal) =
      .constant (Fold.boolean (decide (m.Holds text.toList literal.toList))) := by
  have hcall : ((Fold.text? (fold (.constant (Fold.ofText text)))).bind fun subject =>
      Fold.onText? m.name subject (Fold.foldAll [.constant (Fold.ofText literal)])) =
        some (Fold.boolean (decide (m.Holds text.toList literal.toList))) :=
    m.onText?_name text literal
  rw [call, fold, Fold.methodNode, if_neg Bool.false_ne_true, hcall]

theorem node_call_eq_ok {c : Compiler} (hcalls : c.calls = .builtin) :
    exists f, c.node (m.call text literal) = .ok f := by
  rw [call, Compiler.node, hcalls]
  cases m <;> exact ⟨_, rfl⟩

theorem meaning_call (c : Compiler) (scopes : Scopes) :
    c.meaning scopes (m.call text literal) =
      m.tree (Fold.ofText text).tree (Fold.ofText literal).tree := by
  rw [call, Compiler.meaning, Compiler.meaning, Compiler.meanings, Compiler.meanings,
    Compiler.meaning]
  cases m <;> rfl

theorem text?_tree (functions : String -> List String -> Option String) :
    (Fold.ofText text).tree.text? functions = some text := by
  have htree : (Fold.ofText text).tree = .string text ∨
      (Fold.ofText text).tree = .cast (.string text) SqlType.text.tokens := by
    rw [Typed.tree]
    split
    · exact Or.inr rfl
    · exact Or.inl rfl
  rcases htree with htree | htree
  · rw [htree]
    rfl
  · rw [htree]
    rfl

theorem text?_escaped :
    (Tree.call "escape_like" [(Fold.ofText literal).tree]).text? helperText =
      some (String.ofList (escapeWildcards literal.toList)) := by
  rw [Tree.text?, Tree.texts?, Tree.texts?, text?_tree, Option.bind_some, Option.map_some,
    Option.bind_some, helperText_escapeLike]

/-- The server finds the same answer in the pattern. -/
theorem holds?_tree :
    (m.tree (Fold.ofText text).tree (Fold.ofText literal).tree).holds? helperText =
      some (decide (m.Holds text.toList literal.toList)) := by
  have htext := text?_tree text helperText
  have hescaped := text?_escaped literal
  have hpercent : (Tree.string "%").text? helperText = some (String.ofList ['%']) := rfl
  cases m with
  | startsWith =>
      have hpattern := Tree.text?_concat helperText hescaped hpercent
      exact (Tree.holds?_like helperText htext hpattern).trans (like?_startsWith _ _)
  | endsWith =>
      have hpattern := Tree.text?_concat helperText hpercent hescaped
      exact (Tree.holds?_like helperText htext hpattern).trans (like?_endsWith _ _)
  | contains =>
      have hfront := Tree.text?_concat helperText hpercent hescaped
      have hpattern := Tree.text?_concat helperText hfront hpercent
      exact (Tree.holds?_like helperText htext hpattern).trans (like?_contains _ _)

theorem inert_tree {text literal : Tree} (htext : text.Inert) (hliteral : literal.Inert) :
    (m.tree text literal).isQualified = true ∧ (m.tree text literal).arrowsTight = true := by
  cases m <;> simp [tree, Tree.isQualified, Tree.allQualified, Tree.arrowsTight,
    Tree.allArrowsTight, Tree.isArrow, htext.isQualified, htext.arrowsTight, hliteral.isQualified,
    hliteral.arrowsTight]

end TextMatch

/-- A match of two constant texts is folded to the answer that the server gives to what is compiled
for the call if it is not folded. -/
theorem folded_match_is_the_servers (m : TextMatch) (text literal : String) {c : Compiler}
    (hcalls : c.calls = .builtin) :
    exists f answer, c.node (m.call text literal) = .ok f ∧
      fold (m.call text literal) = .constant (Fold.boolean answer) ∧
      (answer = true <-> m.Holds text.toList literal.toList) ∧
      forall (mode : RenderMode) (scopes : Scopes) (conforming : Bool),
        mode ≠ .bound .atSign ->
          ((f.query.renderIn mode scopes).read? conforming).bind (Tree.holds? helperText) =
            some answer := by
  rcases m.node_call_eq_ok text literal hcalls with ⟨f, hf⟩
  refine ⟨f, decide (m.Holds text.toList literal.toList), hf, m.fold_call text literal,
    decide_eq_true_iff, ?_⟩
  intro mode scopes conforming hmode
  have hread := (Compiler.read?_of_node hcalls rfl hf hmode scopes conforming).2
  rw [m.meaning_call] at hread
  have hinert := m.inert_tree (Fold.ofText text).inert_tree (Fold.ofText literal).inert_tree
  rw [hread.mpr hinert, Option.bind_some, m.holds?_tree]

/-- What is looked for has both wildcards and stands where it is looked for. -/
theorem wildcards_found :
    exists f, Compiler.articleCompiler.node (TextMatch.contains.call "50%_off" "%_") = .ok f ∧
      (f.query.renderIn .simple Compiler.articleScopes).sql =
        "('50%_off') LIKE ('%' || escape_like('%_') || '%')" ∧
      fold (TextMatch.contains.call "50%_off" "%_") = .constant (Fold.boolean true) ∧
      ((f.query.renderIn .simple Compiler.articleScopes).read? true).bind
        (Tree.holds? helperText) = some true := by
  rcases folded_match_is_the_servers .contains "50%_off" "%_" (c := Compiler.articleCompiler) rfl
    with ⟨f, answer, hf, hfold, hanswer, hserver⟩
  have htrue : answer = true := hanswer.mpr (by decide)
  subst htrue
  refine ⟨f, hf, ?_, hfold, hserver .simple _ true (by decide)⟩
  cases hf
  decide +kernel

end TypedQuery
