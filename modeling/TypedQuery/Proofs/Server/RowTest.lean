import TypedQuery.Proofs.Server.Evaluation
import TypedQuery.Proofs.Server.Name

/-!
# Tests of rows for NULL

Expressions with commas between them in parentheses are a row.  The grammar of expressions refuses
the first comma, so that rows are read around it: the comma turns the parentheses into a list, which
is read as the arguments of a call are.  A test for NULL looks at all members of a row at once, and
is never unknown.
-/

namespace TypedQuery
namespace Server

/-!
## Reading
-/

def rowName : String := "ROW"

/-- Where the first expression in parentheses ends, what the parentheses are as those of a row. -/
def State.row? (s : State) : Option State :=
  s.phase.value?.bind fun t =>
    match collapse 0 s.stack t with
    | some (.group :: rest, member) => some ⟨.list (.call rowName) [member] :: rest, .operand⟩
    | _ => none

def rowStep (env : Nat -> Option Tree) (s : State) (token : Token) : Option State :=
  match step env s token with
  | some next => some next
  | none => if token = .mark ',' then s.row? else none

def runRow (env : Nat -> Option Tree) : State -> List Token -> Option State
  | s, [] => some s
  | s, token :: rest => (rowStep env s token).bind fun next => runRow env next rest

def parseRow? (env : Nat -> Option Tree) (tokens : List Token) : Option Tree :=
  (runRow env ⟨[], .operand⟩ tokens).bind State.finish?

def readRow? (conforming : Bool) (env : Nat -> Option Tree) (text : String) : Option Tree :=
  (tokens? conforming text.toList).bind (parseRow? env)

/-- A single expression in parentheses is no row. -/
def rowTree : List Tree -> Tree
  | [t] => t
  | items => .call rowName items

example : readRow? true (fun _ => none) "(\"a\", \"b\") IS NULL" =
    some (.isNull false (.call rowName [.column none "a", .column none "b"])) :=
  rfl

/-!
## Truth
-/

namespace Tree

def cell? (cells : Reference -> Option Value) : Tree -> Option Value
  | column qualifier name => cells ⟨qualifier, name⟩
  | _ => none

/-- What a test for NULL looks at: the members of a row, or a single value. -/
def members? (cells : Reference -> Option Value) : Tree -> Option (List Value)
  | call name items => if name = rowName then items.mapM (cell? cells) else none
  | t => (t.cell? cells).map fun v => [v]

def truth? (cells : Reference -> Option Value) : Tree -> Option Truth
  | isNull negated arg =>
      (arg.members? cells).map fun members => some (members.all fun v => v.isNull != negated)
  | unary op arg => if op = "NOT" then (arg.truth? cells).map Truth.not else none
  | _ => none

end Tree

theorem Tree.mapM_cell? {cells : Reference -> Option Value} {items : List Tree}
    {values : List Value} (h : List.Forall₂ (fun t v => t.cell? cells = some v) items values) :
    items.mapM (cell? cells) = some values := by
  induction h with
  | nil => rfl
  | cons hfirst _ ih =>
      rw [List.mapM_cons, hfirst, ih]
      rfl

theorem Tree.members?_rowTree {cells : Reference -> Option Value} {items : List Tree}
    {values : List Value} (hne : items ≠ [])
    (h : List.Forall₂ (fun t v => t.cell? cells = some v) items values) :
    (rowTree items).members? cells = some values := by
  rcases h with _ | ⟨hfirst, _ | ⟨hnext, hmore⟩⟩
  · exact absurd rfl hne
  · rename_i t v
    have hmembers : t.members? cells = (t.cell? cells).map fun v => [v] := by
      cases t with
      | call name args => cases hfirst
      | _ => rfl
    rw [rowTree, hmembers, hfirst]
    rfl
  · rw [rowTree, members?, if_pos rfl, mapM_cell? (.cons hfirst (.cons hnext hmore))]
    rintro _ ⟨⟩

/-- The negated test is true where some member is not NULL. -/
theorem Tree.truth?_negated {cells : Reference -> Option Value} {t : Tree} {members : List Value}
    (h : t.members? cells = some members) :
    (unary "NOT" (isNull false t)).truth? cells =
      some (some (members.any fun v => !v.isNull)) := by
  have htest : (isNull false t).truth? cells =
      some (some (members.all fun v => v.isNull != false)) := by
    rw [truth?, h, Option.map_some]
  rw [truth?, if_pos rfl, htest, Option.map_some]
  simp [Truth.not, List.any_eq_not_all_not]

/-!
## Runs
-/

section

variable {env : Nat -> Option Tree}

theorem rowStep_of_step {s next : State} {token : Token} (h : step env s token = some next) :
    rowStep env s token = some next := by
  rw [rowStep, h]

theorem runRow_of_run {s next : State} {tokens : List Token} (h : run env s tokens = some next) :
    runRow env s tokens = some next := by
  induction tokens generalizing s with
  | nil =>
      cases h
      rfl
  | cons token rest ih =>
      rw [run] at h
      rcases Option.bind_eq_some_iff.mp h with ⟨next', hstep, hrest⟩
      rw [runRow, rowStep_of_step hstep, Option.bind_some]
      exact ih hrest

theorem runRow_append (s : State) (first second : List Token) :
    runRow env s (first ++ second) =
      (runRow env s first).bind fun next => runRow env next second := by
  induction first generalizing s with
  | nil => rfl
  | cons token rest ih =>
      rw [List.cons_append, runRow, runRow]
      cases rowStep env s token with
      | none => rfl
      | some next => exact ih next

theorem runRow_of_append {s next : State} {first second : List Token}
    (h : runRow env s first = some next) :
    runRow env s (first ++ second) = runRow env next second := by
  rw [runRow_append, h, Option.bind_some]

theorem readRow?_of_read? {conforming : Bool} {text : String} {t : Tree}
    (h : read? conforming env text = some t) : readRow? conforming env text = some t := by
  rcases Option.bind_eq_some_iff.mp h with ⟨tokens, htokens, hparse⟩
  rcases Option.bind_eq_some_iff.mp hparse with ⟨s, hrun, hfinish⟩
  rw [readRow?, htokens, Option.bind_some, parseRow?, runRow_of_run hrun, Option.bind_some,
    hfinish]

theorem Reads.runRow_comma {tokens : List Token} {t : Tree} (h : Reads env tokens t)
    (stack : List Item) (more : List Token) :
    runRow env ⟨.group :: stack, .operand⟩ (tokens ++ .mark ',' :: more) =
      runRow env ⟨.list (.call rowName) [t] :: stack, .operand⟩ more := by
  rcases h (.group :: stack) (bounded_cons rfl stack) with ⟨s, hrun, u, hvalue, hcollapse⟩
  have hrefused : step env s (.mark ',') = none := by
    rw [show s = ⟨s.stack, s.phase⟩ from rfl, step_value hvalue rfl]
    have hparen : ¬ Token.mark ',' = .mark ')' := by decide
    have hbracket : ¬ Token.mark ',' = .mark ']' := by decide
    simp only [valueStep, if_neg hparen, if_neg hbracket, if_true, hcollapse, Option.bind_some]
    rfl
  have hrow : s.row? = some ⟨.list (.call rowName) [t] :: stack, .operand⟩ := by
    rw [State.row?, hvalue, Option.bind_some, hcollapse]
  rw [runRow_of_append (runRow_of_run hrun), runRow, rowStep, hrefused]
  simp only [if_true, hrow, Option.bind_some]

theorem runRow_members {first rest : List Token} {t : Tree} {items : List Tree}
    (hfirst : Reads env first t) (hrest : ReadsItems env rest items) (stack : List Item) :
    runRow env ⟨.group :: stack, .operand⟩ (first ++ .mark ',' :: (rest ++ [.mark ')'])) =
      some ⟨stack, .value (.call rowName (t :: items))⟩ := by
  have htakes : Opener.accepts (.call rowName) ([t] ++ items).length = true := rfl
  rw [hfirst.runRow_comma]
  exact runRow_of_run (hrest (.call rowName) [t] stack htakes)

/-- The negated test of a row of two members or more. -/
theorem parseRow?_negated {first rest : List Token} {t : Tree} {items : List Tree}
    (hfirst : Reads env first t) (hrest : ReadsItems env rest items) :
    parseRow? env ([.word "not", .mark '(', .mark '('] ++ (first ++ .mark ',' ::
      (rest ++ [.mark ')'])) ++ [.word "is", .word "null", .mark ')']) =
      some (.unary "NOT" (.isNull false (.call rowName (t :: items)))) := by
  have hopen : runRow env ⟨[], .operand⟩ [.word "not", .mark '(', .mark '('] =
      some ⟨[.group, .group, .unary Level.not "NOT"], .operand⟩ := rfl
  have hmembers := runRow_members hfirst hrest [.group, .unary Level.not "NOT"]
  rw [parseRow?, List.append_assoc, runRow_of_append hopen, runRow_of_append hmembers]
  rfl

end

/-!
## Texts
-/

section

variable {conforming : Bool} {env : Nat -> Option Tree}

theorem toList_intercalate_cons (text : String) (texts : List String) :
    (", ".intercalate (text :: texts)).toList =
      text.toList ++ commaTail (texts.map String.toList) := by
  induction texts generalizing text with
  | nil => simp [commaTail]
  | cons next rest ih =>
      rw [String.intercalate_cons_cons, String.toList_append, String.toList_append, ih]
      simp [commaTail]

theorem readRow?_single {text : String} {t : Tree} (h : WholeText conforming env text.toList t)
    (hqualified : t.isQualified = true) :
    readRow? conforming env ("NOT ((" ++ text ++ ") IS NULL)") =
      some (.unary "NOT" (.isNull false t)) := by
  have htext : ("NOT ((" ++ text ++ ") IS NULL)").toList =
      "NOT (".toList ++ ('(' :: (text.toList ++ [')']) ++ (nullTest false).toList ++ [')']) := by
    simp [nullTest]
  have hwhole := ((h.group.isNull false).whole.not).whole
  rw [<- htext] at hwhole
  exact readRow?_of_read? (hwhole.read?_of_isQualified hqualified)

theorem readRow?_members {text rest : String} {t : Tree} {items : List Tree}
    (hfirst : WholeText conforming env text.toList t)
    (hrest : ItemsText conforming env rest.toList items)
    (hqualified : Tree.allQualified (t :: items) = true) :
    readRow? conforming env ("NOT ((" ++ (text ++ ", " ++ rest) ++ ") IS NULL)") =
      some (.unary "NOT" (.isNull false (.call rowName (t :: items)))) := by
  rw [Tree.allQualified, Bool.and_eq_true] at hqualified
  rcases hfirst with ⟨tokens, hlex, hout⟩
  rcases hrest with ⟨restTokens, hlexRest, houtRest⟩
  have hopen : Opens conforming "NOT ((".toList [.word "not", .mark '(', .mark '('] := rfl
  have hcomma : Opens conforming ", ".toList [.mark ','] := rfl
  have hclose : Lexes conforming ") IS NULL)".toList
      [.mark ')', .word "is", .word "null", .mark ')'] :=
    Opens.lexes (show Opens conforming _ _ from rfl)
  have hmembers : Lexes conforming (text.toList ++ (", ".toList ++ rest.toList))
      (tokens ++ .mark ',' :: restTokens) :=
    hlex.append rfl rfl (hcomma.append hlexRest)
  have htokens : Lexes conforming
      ("NOT ((".toList ++ (text.toList ++ (", ".toList ++ rest.toList) ++ ") IS NULL)".toList))
      ([.word "not", .mark '(', .mark '('] ++ (tokens ++ .mark ',' :: restTokens ++
        [.mark ')', .word "is", .word "null", .mark ')'])) :=
    lexes_between hopen hmembers rfl rfl hclose
  have hparse := parseRow?_negated (hout.reads hqualified.1) (houtRest.reads hqualified.2)
  have htext : ("NOT ((" ++ (text ++ ", " ++ rest) ++ ") IS NULL)").toList =
      "NOT ((".toList ++ (text.toList ++ (", ".toList ++ rest.toList) ++ ") IS NULL)".toList) := by
    simp only [String.toList_append, List.append_assoc]
  rw [readRow?, htext, tokens?_of_lexes htokens, Option.bind_some, <- hparse]
  simp only [List.append_assoc, List.cons_append, List.nil_append]

theorem readRow?_negated {texts : List String} {items : List Tree} (hne : items ≠ [])
    (h : List.Forall₂ (WholeText conforming env) (texts.map String.toList) items)
    (hqualified : Tree.allQualified items = true) :
    readRow? conforming env ("NOT ((" ++ ", ".intercalate texts ++ ") IS NULL)") =
      some (.unary "NOT" (.isNull false (rowTree items))) := by
  rcases texts with _ | ⟨text, _ | ⟨next, more⟩⟩
  · cases h
    exact absurd rfl hne
  · rcases h with _ | ⟨hfirst, ⟨⟩⟩
    rw [Tree.allQualified, Tree.allQualified, Bool.and_true] at hqualified
    rw [String.intercalate_singleton]
    exact readRow?_single hfirst hqualified
  · rcases h with _ | ⟨hfirst, _ | ⟨hnext, hmore⟩⟩
    have hitems := itemsText_commas hnext hmore
    rw [<- toList_intercalate_cons] at hitems
    rw [String.intercalate_cons_cons]
    exact readRow?_members hfirst hitems hqualified

end

end Server
end TypedQuery
