import TypedQuery.Proofs.Server.Name
import TypedQuery.Proofs.Server.Reading
import TypedQuery.Proofs.Server.Spelling

/-!
# FROM lists around a place in a text

What a name can refer to is decided by the tokens before it: a query between brackets brings its
FROM list into force with its WHERE, while the arguments of a function in a FROM list are still
looked up outside of it.  Reading an expression without queries only opens and closes brackets.
Queries other than those from a function in a FROM list are refused.
-/

namespace TypedQuery
namespace Server

/-- The relation that the rows of a function are under an alias.  The column goes by the name that
the function gives to its result, if it gives one, and by the alias otherwise. -/
def Relation.ofFunction? (function name : String) : Option Relation :=
  if function == "unnest" then some ⟨name, [name]⟩
  else if function == "jsonb_array_elements" then some ⟨name, ["value"]⟩
  else none

inductive Clause where
  | expression
  | output
  | outputBracket
  | source
  | function (name : String)
  | rows (function : String)
  | alias (function : String)
  | aliased
deriving DecidableEq

/-- What is read between two brackets, and the FROM lists in force there, innermost first. -/
structure Region where
  levels : List (List Relation)
  clause : Clause
deriving DecidableEq

namespace Token

def opens (token : Token) : Bool := token = .mark '(' || token = .mark '['

def closes (token : Token) : Bool := token = .mark ')' || token = .mark ']'

end Token

/-!
## Scanning
-/

def Region.step (region : Region) (outer : List Region) (token : Token) : Option (List Region) :=
  match region.clause with
  | .expression =>
      if token.opens then some (region :: region :: outer)
      else if token.closes then some outer
      else if token = .word "select" then some (⟨region.levels, .output⟩ :: outer)
      else some (region :: outer)
  | .output =>
      if token.opens then some (⟨region.levels, .outputBracket⟩ :: region :: outer)
      else if token.closes || token = .word "select" then none
      else if token = .word "from" then some (⟨region.levels, .source⟩ :: outer)
      else some (region :: outer)
  | .outputBracket =>
      if token.opens then some (region :: region :: outer)
      else if token.closes then some outer
      else if token = .word "select" then none
      else some (region :: outer)
  | .source =>
      match token with
      | .word name => some (⟨region.levels, .function name⟩ :: outer)
      | _ => none
  | .function name =>
      if token = .mark '(' then
        some (⟨region.levels, .expression⟩ :: ⟨region.levels, .rows name⟩ :: outer)
      else none
  | .rows function =>
      if token = .word "as" then some (⟨region.levels, .alias function⟩ :: outer) else none
  | .alias function =>
      match token with
      | .word name =>
          (Relation.ofFunction? function name).map fun relation =>
            ⟨[relation] :: region.levels, .aliased⟩ :: outer
      | _ => none
  | .aliased =>
      if token = .word "where" then some (⟨region.levels, .expression⟩ :: outer) else none

def scan : List Region -> List Token -> Option (List Region)
  | regions, [] => some regions
  | [], _ :: _ => none
  | region :: outer, token :: rest =>
      (region.step outer token).bind fun regions => scan regions rest

theorem scan_append (regions : List Region) (first second : List Token) :
    scan regions (first ++ second) =
      (scan regions first).bind fun reached => scan reached second := by
  induction first generalizing regions with
  | nil => cases regions <;> rfl
  | cons token rest ih =>
      cases regions with
      | nil => rfl
      | cons region outer =>
          rw [List.cons_append, scan, scan]
          cases region.step outer token with
          | none => rfl
          | some reached => exact ih reached

theorem scan_of_append {regions reached : List Region} {first second : List Token}
    (h : scan regions first = some reached) :
    scan regions (first ++ second) = scan reached second := by
  rw [scan_append, h, Option.bind_some]

/-- The FROM lists that a column is looked up in; names in the output of a query wait for its
FROM list. -/
def levels? : List Region -> Option (List (List Relation))
  | ⟨levels, .expression⟩ :: _ => some levels
  | _ => none

def levelsAt? (conforming : Bool) (outer : List Relation) (text : List Char) :
    Option (List (List Relation)) :=
  (Lexing.start.feed conforming text).bind fun (tokens, _) =>
    (scan [⟨[outer], .expression⟩] tokens).bind levels?

/-- The argument of a function in a FROM list is looked up outside of the query, its condition
within. -/
example :
    let text := "ARRAY(SELECT e FROM unnest(\"a\") AS e WHERE e <> \"a"
    levelsAt? true [⟨"t", ["a"]⟩] (text.toList.take 29) = some [[⟨"t", ["a"]⟩]] ∧
      levelsAt? true [⟨"t", ["a"]⟩] text.toList = some [[⟨"e", ["e"]⟩], [⟨"t", ["a"]⟩]] :=
  ⟨rfl, rfl⟩

/-!
## Expressions without queries

The grammar of expressions takes no query, so that brackets are all that scanning sees of what it
reads.
-/

def openItems : List Item -> Nat
  | [] => 0
  | item :: rest => if item.isOperator then openItems rest else openItems rest + 1

/-- The brackets that are open; that of an array type is not on the stack. -/
def State.depth (s : State) : Nat :=
  match s.phase with
  | .typeBracket _ _ => openItems s.stack + 1
  | _ => openItems s.stack

theorem openItems_of_collapse {level : Nat} {stack rest : List Item} {t u : Tree}
    (h : collapse level stack t = some (rest, u)) : openItems rest = openItems stack := by
  induction stack generalizing t with
  | nil =>
      cases h
      rfl
  | cons item more ih =>
      cases item with
      | binary l op left =>
          rw [collapse] at h
          split at h
          · cases h
            rfl
          split at h
          · cases h
          · exact ih h
      | unary l op =>
          rw [collapse] at h
          split at h
          · cases h
            rfl
          · exact ih h
      | _ =>
          cases h
          rfl

/-- What a token does to the number of open brackets; no query begins. -/
inductive Turns (token : Token) : Nat -> Nat -> Prop where
  | opening (h : token.opens = true) (depth : Nat) : Turns token depth (depth + 1)
  | closing (h : token.closes = true) (depth : Nat) : Turns token (depth + 1) depth
  | other (hopens : token.opens = false) (hcloses : token.closes = false)
      (hselect : token ≠ .word "select") (depth : Nat) : Turns token depth depth

section

variable {env : Nat -> Option Tree}

theorem valueStep_select (stack : List Item) (t : Tree) :
    valueStep stack t (.word "select") = none := rfl

theorem typeStep_select (stack : List Item) (t : Tree) (type : List Token) :
    typeStep stack t type (.word "select") = none := by
  unfold typeStep
  rw [if_neg (by decide)]
  split
  · contradiction
  · contradiction
  · exact valueStep_select stack _

theorem step_select (s : State) : step env s (.word "select") = none := by
  rcases s with ⟨stack, phase⟩
  cases phase with
  | quoted name => exact valueStep_select stack (.column none name)
  | closed t => exact valueStep_select stack t
  | typeName t type => exact typeStep_select stack t type
  | _ => rfl

theorem turns_closeParen {stack : List Item} {t : Tree} {next : State}
    (h : closeParen stack t = some next) : Turns (.mark ')') (openItems stack) next.depth := by
  unfold closeParen at h
  split at h
  · cases h
    exact .closing rfl _
  · split at h
    · cases h
      exact .closing rfl _
    · cases h
  · cases h
    exact .closing rfl _
  · cases h

theorem turns_closeBracket {stack : List Item} {t : Tree} {next : State}
    (h : closeBracket stack t = some next) : Turns (.mark ']') (openItems stack) next.depth := by
  unfold closeBracket at h
  split at h
  · cases h
    exact .closing rfl _
  · cases h
    exact .closing rfl _
  · cases h

theorem depth_nextItem {stack : List Item} {t : Tree} {next : State}
    (h : nextItem stack t = some next) : next.depth = openItems stack := by
  unfold nextItem at h
  split at h
  · cases h
    rfl
  · cases h

theorem turns_valueStep {stack : List Item} {t : Tree} {token : Token} {next : State}
    (h : valueStep stack t token = some next) : Turns token (openItems stack) next.depth := by
  have hselect : token ≠ .word "select" := by
    rintro rfl
    cases h
  unfold valueStep at h
  split at h
  · rename_i htoken
    subst htoken
    rcases Option.bind_eq_some_iff.mp h with ⟨⟨rest, whole⟩, hcollapse, hclose⟩
    exact openItems_of_collapse hcollapse ▸ turns_closeParen hclose
  split at h
  · rename_i htoken
    subst htoken
    rcases Option.bind_eq_some_iff.mp h with ⟨⟨rest, whole⟩, hcollapse, hclose⟩
    exact openItems_of_collapse hcollapse ▸ turns_closeBracket hclose
  rename_i hparen hbracket
  have hcloses : token.closes = false := by simp [Token.closes, hparen, hbracket]
  split at h
  · rename_i htoken
    subst htoken
    rcases Option.bind_eq_some_iff.mp h with ⟨⟨rest, whole⟩, hcollapse, hnext⟩
    rw [depth_nextItem hnext, openItems_of_collapse hcollapse]
    exact .other rfl rfl hselect _
  split at h
  · rename_i htoken
    subst htoken
    cases h
    exact .other rfl rfl hselect _
  split at h
  · rename_i htoken
    subst htoken
    rcases Option.map_eq_some_iff.mp h with ⟨⟨rest, left⟩, hcollapse, rfl⟩
    rw [<- openItems_of_collapse hcollapse]
    exact .other rfl rfl hselect _
  · rcases Option.bind_eq_some_iff.mp h with ⟨⟨op, level⟩, hlevel, h⟩
    rcases Option.map_eq_some_iff.mp h with ⟨⟨rest, left⟩, hcollapse, rfl⟩
    have hopens : token.opens = false := by
      cases token with
      | mark c => cases hlevel
      | _ => rfl
    rw [<- openItems_of_collapse hcollapse]
    exact .other hopens hcloses hselect _

theorem turns_word {name : String} (h : Token.word name ≠ .word "select") (depth : Nat) :
    Turns (.word name) depth depth := .other rfl rfl h depth

theorem depth_wordStep {stack : List Item} {name : String} {next : State}
    (h : wordStep stack name = some next) : next.depth = openItems stack := by
  unfold wordStep at h
  split at h
  · cases h
    rfl
  split at h
  · cases h
    rfl
  split at h
  · cases h
    rfl
  split at h
  · split at h
    · split at h
      · cases h
        rfl
      · cases h
    · cases h
  split at h
  · cases h
  · cases h
    rfl

theorem turns_operandStep {stack : List Item} {token : Token} {next : State}
    (hselect : token ≠ .word "select") (h : operandStep env stack token = some next) :
    Turns token (openItems stack) next.depth := by
  cases token with
  | word name =>
      rw [depth_wordStep h]
      exact turns_word hselect _
  | parameter index =>
      rcases Option.map_eq_some_iff.mp h with ⟨t, -, rfl⟩
      exact .other rfl rfl hselect _
  | operator symbol =>
      rw [operandStep] at h
      split at h
      · cases h
        exact .other rfl rfl hselect _
      · cases h
  | typecast => cases h
  | mark c =>
      unfold operandStep at h
      dsimp only at h
      split at h
      · rename_i hc
        cases h
        rw [beq_iff_eq.mp hc]
        exact .opening rfl _
      split at h
      · rename_i hc
        rw [beq_iff_eq.mp hc]
        split at h
        · split at h
          · cases h
            exact .closing rfl _
          · cases h
        · cases h
      · cases h
  | _ =>
      cases h
      exact .other rfl rfl hselect _

theorem turns_typeStep {stack : List Item} {t : Tree} {type : List Token} {token : Token}
    {next : State} (hselect : token ≠ .word "select")
    (h : typeStep stack t type token = some next) : Turns token (openItems stack) next.depth := by
  unfold typeStep at h
  split at h
  · rename_i htoken
    subst htoken
    cases h
    exact .opening rfl _
  split at h
  · cases h
    exact .other rfl rfl hselect _
  · cases h
    exact .other rfl rfl hselect _
  · exact turns_valueStep h

theorem turns_of_step {s next : State} {token : Token} (h : step env s token = some next) :
    Turns token s.depth next.depth := by
  have hselect : token ≠ .word "select" := by
    rintro rfl
    rw [step_select] at h
    cases h
  rcases s with ⟨stack, phase⟩
  cases phase with
  | operand => exact turns_operandStep hselect h
  | value t => exact turns_valueStep h
  | typeName t type => exact turns_typeStep hselect h
  | word name =>
      simp only [step] at h
      split at h
      · rename_i htoken
        subst htoken
        cases h
        exact .opening rfl _
      split at h
      · rename_i htoken
        simp only [Bool.and_eq_true, decide_eq_true_eq] at htoken
        rw [htoken.1] at hselect ⊢
        cases h
        exact .other rfl rfl hselect _
      · cases h
  | quoted name =>
      simp only [step] at h
      split at h
      · rename_i htoken
        subst htoken
        cases h
        exact .other rfl rfl hselect _
      · exact turns_valueStep h
  | dot qualifier =>
      simp only [step] at h
      split at h
      · cases h
        exact .other rfl rfl hselect _
      · cases h
  | arrayWord =>
      rcases Option.ite_none_right_eq_some.mp h with ⟨rfl, hnext⟩
      cases hnext
      exact .opening rfl _
  | quantifier op all left =>
      rcases Option.ite_none_right_eq_some.mp h with ⟨rfl, hnext⟩
      cases hnext
      exact .opening rfl _
  | closed t =>
      simp only [step] at h
      split at h
      · rename_i htoken
        subst htoken
        cases h
        exact .opening rfl _
      · exact turns_valueStep h
  | isWord t =>
      simp only [step] at h
      split at h
      · rename_i htoken
        subst htoken
        cases h
        exact .other rfl rfl hselect _
      split at h
      · rename_i htoken
        subst htoken
        cases h
        exact .other rfl rfl hselect _
      · cases h
  | isNot t =>
      rcases Option.ite_none_right_eq_some.mp h with ⟨rfl, hnext⟩
      cases hnext
      exact .other rfl rfl hselect _
  | typecast t =>
      simp only [step] at h
      split at h
      · split at h
        · cases h
          exact turns_word hselect _
        · cases h
      · cases h
        exact .other rfl rfl hselect _
      · cases h
  | typeDot t schema =>
      simp only [step] at h
      split at h
      · cases h
        exact .other rfl rfl hselect _
      · cases h
  | typeBracket t type =>
      rcases Option.ite_none_right_eq_some.mp h with ⟨rfl, hnext⟩
      cases hnext
      exact .closing rfl _

end

/-- Some brackets deep in an expression, where the same names are known as outside of them. -/
def bracketed (levels : List (List Relation)) (depth : Nat) (outer : List Region) : List Region :=
  List.replicate (depth + 1) ⟨levels, .expression⟩ ++ outer

theorem Turns.step_expression {token : Token} {depth next : Nat} (h : Turns token depth next)
    (levels : List (List Relation)) (outer : List Region) :
    scan (bracketed levels depth outer) [token] = some (bracketed levels next outer) := by
  have hstep : forall regions, scan (⟨levels, .expression⟩ :: regions) [token] =
      if token.opens then some (⟨levels, .expression⟩ :: ⟨levels, .expression⟩ :: regions)
      else if token.closes then some regions
      else if token = .word "select" then some (⟨levels, .output⟩ :: regions)
      else some (⟨levels, .expression⟩ :: regions) := by
    intro regions
    rw [scan]
    exact Option.bind_fun_some _
  rw [bracketed, List.replicate_succ, List.cons_append, hstep]
  cases h with
  | opening hopens =>
      rw [if_pos hopens]
      rfl
  | closing hcloses =>
      have hopens : token.opens = false := by
        cases token with
        | mark c =>
            simp only [Token.closes, Bool.or_eq_true, decide_eq_true_eq] at hcloses
            rcases hcloses with htoken | htoken <;> rw [htoken] <;> rfl
        | _ => rfl
      rw [hopens, if_neg Bool.false_ne_true, if_pos hcloses]
      rfl
  | other hopens hcloses hselect =>
      rw [hopens, hcloses, if_neg Bool.false_ne_true, if_neg Bool.false_ne_true, if_neg hselect]
      rfl

section

variable {env : Nat -> Option Tree}

/-- Tokens that the grammar of expressions takes leave the names that are known as they are. -/
theorem scan_of_run {s next : State} {tokens : List Token} (h : run env s tokens = some next)
    (levels : List (List Relation)) (outer : List Region) :
    scan (bracketed levels s.depth outer) tokens = some (bracketed levels next.depth outer) := by
  induction tokens generalizing s with
  | nil =>
      cases h
      rfl
  | cons token rest ih =>
      rw [run] at h
      rcases Option.bind_eq_some_iff.mp h with ⟨s', hstep, hrest⟩
      rw [<- List.singleton_append,
        scan_of_append ((turns_of_step hstep).step_expression levels outer)]
      exact ih hrest

theorem depth_of_settles {s : State} {level : Nat} {t : Tree} (h : s.Settles level [] t) :
    s.depth = 0 := by
  rcases h with ⟨u, hvalue, hcollapse⟩
  have hitems := openItems_of_collapse hcollapse
  rcases s with ⟨stack, phase⟩
  cases phase with
  | typeBracket t type => cases hvalue
  | _ => exact hitems.symm

end

/-!
## Texts one after another
-/

section

variable {conforming : Bool} {outer : List Relation} {before : List Char}
  {regions reached : List Region}

/-- Behind the text no token is open, and the regions are. -/
def Reaches (conforming : Bool) (outer : List Relation) (text : List Char)
    (regions : List Region) : Prop :=
  exists tokens, Opens conforming text tokens ∧
    scan [⟨[outer], .expression⟩] tokens = some regions

def Passes (conforming : Bool) (outer : List Relation) (text : List Char)
    (regions : List Region) : Prop :=
  exists tokens, Lexes conforming text tokens ∧
    scan [⟨[outer], .expression⟩] tokens = some regions

theorem reaches_nil (conforming : Bool) (outer : List Relation) :
    Reaches conforming outer [] [⟨[outer], .expression⟩] :=
  ⟨[], rfl, rfl⟩

theorem Reaches.passes (h : Reaches conforming outer before regions) :
    Passes conforming outer before regions := by
  rcases h with ⟨tokens, htokens, hscan⟩
  exact ⟨tokens, htokens.lexes, hscan⟩

def scanText? (conforming : Bool) (regions : List Region) (text : String) :
    Option (List Region) :=
  match Lexing.start.feed conforming text.toList with
  | some (tokens, .start) => scan regions tokens
  | _ => none

theorem exists_opens_of_scanText? {text : String}
    (h : scanText? conforming regions text = some reached) :
    exists tokens, Opens conforming text.toList tokens ∧ scan regions tokens = some reached := by
  unfold scanText? at h
  split at h
  · rename_i tokens hfeed
    exact ⟨tokens, hfeed, h⟩
  · cases h

theorem Reaches.text (h : Reaches conforming outer before regions) {text : String}
    (htext : scanText? conforming regions text = some reached) :
    Reaches conforming outer (before ++ text.toList) reached := by
  rcases h with ⟨tokens, hopens, hscan⟩
  rcases exists_opens_of_scanText? htext with ⟨more, hmore, hreached⟩
  exact ⟨tokens ++ more, Lexing.feed_of_append hopens hmore, (scan_of_append hscan).trans hreached⟩

theorem Passes.text (h : Passes conforming outer before regions) {text : String}
    (hdelimited : text.toList.head?.any isDelimiter = true)
    (htext : scanText? conforming regions text = some reached) :
    Reaches conforming outer (before ++ text.toList) reached := by
  rcases h with ⟨tokens, hlexes, hscan⟩
  rcases exists_opens_of_scanText? htext with ⟨more, hmore, hreached⟩
  cases hhead : text.toList with
  | nil =>
      rw [hhead] at hdelimited
      cases hdelimited
  | cons c rest =>
      rw [hhead] at hdelimited hmore
      exact ⟨tokens ++ more, hlexes.append_opens rfl hdelimited hmore,
        (scan_of_append hscan).trans hreached⟩

theorem Reaches.quoteIdent {levels : List (List Relation)}
    (h : Reaches conforming outer before (⟨levels, .expression⟩ :: regions)) (name : String) :
    Passes conforming outer (before ++ (Text.quoteIdent name).toList)
      (⟨levels, .expression⟩ :: regions) := by
  rcases h with ⟨tokens, hopens, hscan⟩
  exact ⟨_, hopens.append (lexes_quoteIdent name), (scan_of_append hscan).trans rfl⟩

theorem Reaches.qualifiedIdent {levels : List (List Relation)}
    (h : Reaches conforming outer before (⟨levels, .expression⟩ :: regions))
    (schema : Option String) (name : String) :
    Passes conforming outer (before ++ (Text.qualifiedIdent schema name).toList)
      (⟨levels, .expression⟩ :: regions) := by
  cases schema with
  | none => exact h.quoteIdent name
  | some schema =>
      rcases h with ⟨tokens, hopens, hscan⟩
      exact ⟨_, hopens.append (lexes_qualifiedIdent schema name), (scan_of_append hscan).trans rfl⟩

/-- Columns anywhere in an expression are looked up as before it, and so is what follows it. -/
theorem Reaches.expression {levels : List (List Relation)}
    (h : Reaches conforming outer before (⟨levels, .expression⟩ :: regions)) {text : List Char}
    {tokens : List Token} (hlexes : Lexes conforming text tokens) {env : Nat -> Option Tree}
    {t : Tree} (hreads : Reads env tokens t) :
    Passes conforming outer (before ++ text) (⟨levels, .expression⟩ :: regions) ∧
      forall first second, text = first ++ second ->
        levelsAt? conforming outer (before ++ first) = some levels := by
  rcases h with ⟨earlier, hopens, hscan⟩
  rcases hreads [] bounded_nil with ⟨s, hrun, hsettles⟩
  constructor
  · refine ⟨earlier ++ tokens, hopens.append hlexes, ?_⟩
    have hwhole := scan_of_run hrun levels regions
    rw [depth_of_settles hsettles] at hwhole
    exact (scan_of_append hscan).trans hwhole
  · rintro first second rfl
    rcases hlexes with ⟨done, q, last, hfeed, -, rfl⟩
    rw [Lexing.feed_append] at hfeed
    rcases Option.bind_eq_some_iff.mp hfeed with ⟨⟨cut, next⟩, hfirst, hrest⟩
    rcases Option.map_eq_some_iff.mp hrest with ⟨⟨more, final⟩, -, hdone⟩
    cases hdone
    rw [List.append_assoc, run_append] at hrun
    rcases Option.bind_eq_some_iff.mp hrun with ⟨s', hcut, -⟩
    have hprefix := scan_of_run hcut levels regions
    rw [levelsAt?, Lexing.feed_of_append hopens hfirst, Option.bind_some]
    change (scan _ (earlier ++ cut)).bind levels? = some levels
    rw [scan_of_append hscan]
    exact congrArg (Option.bind · levels?) hprefix

end

end Server
end TypedQuery
