import TypedQuery.Proofs.Server.Readable

/-!
# Queries in expressions

An expression may have queries over the elements of a list or of a JSON array in it, names of
columns without quotes, and array constructors without items.  The grammar of expressions refuses
all three, so that they are read around it: a step that it refuses begins or ends one of them, and
every other step is its own.
-/

namespace TypedQuery
namespace Server

/-- The queries over elements `e` that meet a condition. -/
inductive ElementQuery where
  /-- The elements of a list, as a list. -/
  | list
  /-- The elements of a JSON array, as a JSON array. -/
  | document

namespace ElementQuery

def opening : ElementQuery -> List Token
  | list => [.word "select", .word "e", .word "from", .word "unnest", .mark '(']
  | document =>
      [.word "select", .word "coalesce", .mark '(', .word "jsonb_agg", .mark '(', .word "e",
        .mark ')', .mark ',', .string "[]", .typecast, .word "jsonb", .mark ')', .word "from",
        .word "jsonb_array_elements", .mark '(']

def between : List Token := [.word "as", .word "e", .word "where"]

/-- A query is kept as a call of a function that no text has the name of. -/
def tree (source condition : Tree) : ElementQuery -> Tree
  | list => .call "ARRAY SELECT" [source, condition]
  | document => .call "SELECT jsonb_agg" [source, condition]

end ElementQuery

/-!
## Steps
-/

/-- What an expression in a query is: the source of the elements, or their condition.  The stack is
what is open around the query. -/
inductive QueryFrame where
  | source (query : ElementQuery) (stack : List Item)
  | condition (query : ElementQuery) (source : Tree) (stack : List Item)

inductive QueryState where
  /-- Within an expression. -/
  | within (frames : List QueryFrame) (s : State)
  /-- Before an expression, with the tokens that come first. -/
  | before (frames : List QueryFrame) (rest : List Token)

def State.named (s : State) : State :=
  match s.phase with
  | .word name => if isTableWord name then ⟨s.stack, .quoted name⟩ else s
  | _ => s

def queryStep (frames : List QueryFrame) (s : State) (token : Token) : Option QueryState :=
  if token = .mark '(' then
    match s.phase with
    | .arrayWord => some (.before (.source .list s.stack :: frames) ElementQuery.list.opening)
    | _ => none
  else if token = .word "select" then
    match s with
    | ⟨.group :: stack, .operand⟩ =>
        some (.before (.source .document stack :: frames) ElementQuery.document.opening.tail)
    | _ => none
  else if token = .mark ']' then
    match s with
    | ⟨.list .array [] :: stack, .operand⟩ => some (.within frames ⟨stack, .value (.array [])⟩)
    | _ => none
  else if token = .mark ')' then
    match frames, s.finish? with
    | .source query stack :: rest, some t =>
        some (.before (.condition query t stack :: rest) ElementQuery.between)
    | .condition query source stack :: rest, some t =>
        some (.within rest ⟨stack, .value (query.tree source t)⟩)
    | _, _ => none
  else none

namespace QueryState

def step (env : Nat -> Option Tree) (q : QueryState) (token : Token) : Option QueryState :=
  match q with
  | before frames rest =>
      match rest with
      | [] => none
      | [last] => if token = last then some (within frames ⟨[], .operand⟩) else none
      | first :: more => if token = first then some (before frames more) else none
  | within frames s =>
      match Server.step env s token with
      | some next => some (within frames next)
      | none =>
          match Server.step env s.named token with
          | some next => some (within frames next)
          | none => queryStep frames s.named token

def run (env : Nat -> Option Tree) : QueryState -> List Token -> Option QueryState
  | q, [] => some q
  | q, token :: rest => (q.step env token).bind fun next => run env next rest

def finish? : QueryState -> Option Tree
  | within [] s => s.named.finish?
  | _ => none

end QueryState

def parseQuery? (env : Nat -> Option Tree) (tokens : List Token) : Option Tree :=
  (QueryState.run env (.within [] ⟨[], .operand⟩) tokens).bind QueryState.finish?

/-- What the server reads in a text that may have queries in it. -/
def readQuery? (conforming : Bool) (env : Nat -> Option Tree) (text : String) : Option Tree :=
  (tokens? conforming text.toList).bind (parseQuery? env)

/-!
## Runs
-/

namespace QueryState

variable {env : Nat -> Option Tree}

theorem run_append (q : QueryState) (first second : List Token) :
    run env q (first ++ second) = (run env q first).bind fun next => run env next second := by
  induction first generalizing q with
  | nil => rfl
  | cons token rest ih =>
      rw [List.cons_append, run, run]
      cases q.step env token with
      | none => rfl
      | some next => exact ih next

theorem run_of_append {q next : QueryState} {first second : List Token}
    (h : run env q first = some next) : run env q (first ++ second) = run env next second := by
  rw [run_append, h, Option.bind_some]

theorem step_within {s next : State} {token : Token} (h : Server.step env s token = some next)
    (frames : List QueryFrame) : (within frames s).step env token = some (within frames next) := by
  rw [step, h]

/-- What the grammar of expressions reads is read in the same way inside of queries. -/
theorem run_within {s next : State} {tokens : List Token} (h : Server.run env s tokens = some next)
    (frames : List QueryFrame) : run env (within frames s) tokens = some (within frames next) := by
  induction tokens generalizing s with
  | nil =>
      cases h
      rfl
  | cons token rest ih =>
      rw [Server.run] at h
      rcases Option.bind_eq_some_iff.mp h with ⟨next', hstep, hrest⟩
      rw [run, step_within hstep, Option.bind_some]
      exact ih hrest

end QueryState

/-!
## Expressions with queries
-/

section

variable {env : Nat -> Option Tree}

def TakesAtom (env : Nat -> Option Tree) (tokens : List Token) (t : Tree) : Prop :=
  forall frames stack, exists phase,
    QueryState.run env (.within frames ⟨stack, .operand⟩) tokens =
        some (.within frames ⟨stack, phase⟩) ∧ phase.value? = some t

def Takes (env : Nat -> Option Tree) (tokens : List Token) (t : Tree) : Prop :=
  forall frames base, Bounded base -> exists s,
    QueryState.run env (.within frames ⟨base, .operand⟩) tokens = some (.within frames s) ∧
      s.Settles 0 base t

theorem ReadsAtom.takesAtom {tokens : List Token} {t : Tree} (h : ReadsAtom env tokens t) :
    TakesAtom env tokens t := by
  intro frames stack
  rcases h stack with ⟨phase, hrun, hvalue⟩
  exact ⟨phase, QueryState.run_within hrun frames, hvalue⟩

theorem Reads.takes {tokens : List Token} {t : Tree} (h : Reads env tokens t) :
    Takes env tokens t := by
  intro frames base hbase
  rcases h base hbase with ⟨s, hrun, hsettles⟩
  exact ⟨s, QueryState.run_within hrun frames, hsettles⟩

theorem TakesAtom.takes {tokens : List Token} {t : Tree} (h : TakesAtom env tokens t) :
    Takes env tokens t := by
  intro frames base hbase
  rcases h frames base with ⟨phase, hrun, hvalue⟩
  exact ⟨_, hrun, t, hvalue, hbase.collapse 0 t⟩

theorem State.named_of_value? {s : State} {t : Tree} (h : s.phase.value? = some t) :
    s.named = s := by
  rcases s with ⟨stack, phase⟩
  cases phase with
  | word name => cases h
  | _ => rfl

theorem State.Settles.finish? {s : State} {t : Tree} (h : s.Settles 0 [] t) :
    s.finish? = some t := by
  rcases h with ⟨u, hvalue, hcollapse⟩
  rw [State.finish?, hvalue, Option.bind_some, hcollapse]

theorem parseQuery?_of_takes {tokens : List Token} {t : Tree} (h : Takes env tokens t) :
    parseQuery? env tokens = some t := by
  rcases h [] [] bounded_nil with ⟨s, hrun, hsettles⟩
  rw [parseQuery?, hrun, Option.bind_some, QueryState.finish?,
    State.named_of_value? hsettles.choose_spec.1,
    hsettles.finish?]

/-!
## One token after an expression
-/

/-- A token after an expression that the grammar of expressions reads. -/
theorem Takes.run_step {tokens : List Token} {t : Tree} (h : Takes env tokens t)
    {base : List Item} (hbase : Bounded base) {token : Token} (hfollows : token.follows = true)
    {next : State}
    (hnext : forall stack u, collapse 0 stack u = some (base, t) ->
      valueStep stack u token = some next)
    (frames : List QueryFrame) (more : List Token) :
    QueryState.run env (.within frames ⟨base, .operand⟩) (tokens ++ token :: more) =
      QueryState.run env (.within frames next) more := by
  rcases h frames base hbase with ⟨s, hrun, u, hvalue, hcollapse⟩
  have hstep : step env s token = some next := by
    rw [show s = ⟨s.stack, s.phase⟩ from rfl, step_value hvalue hfollows]
    exact hnext s.stack u hcollapse
  rw [QueryState.run_of_append hrun, QueryState.run, QueryState.step_within hstep,
    Option.bind_some]

theorem Takes.run_comma {tokens : List Token} {t : Tree} (h : Takes env tokens t)
    {base : List Item} (hbase : Bounded base) {next : State} (hnext : nextItem base t = some next)
    (frames : List QueryFrame) (more : List Token) :
    QueryState.run env (.within frames ⟨base, .operand⟩) (tokens ++ .mark ',' :: more) =
      QueryState.run env (.within frames next) more := by
  refine h.run_step hbase rfl (fun stack u hcollapse => ?_) frames more
  have hparen : ¬ Token.mark ',' = .mark ')' := by decide
  have hbracket : ¬ Token.mark ',' = .mark ']' := by decide
  simp only [valueStep, if_neg hparen, if_neg hbracket, if_true, hcollapse, Option.bind_some, hnext]

theorem Takes.run_paren {tokens : List Token} {t : Tree} (h : Takes env tokens t)
    {base : List Item} (hbase : Bounded base) {next : State}
    (hnext : closeParen base t = some next) (frames : List QueryFrame) (more : List Token) :
    QueryState.run env (.within frames ⟨base, .operand⟩) (tokens ++ .mark ')' :: more) =
      QueryState.run env (.within frames next) more := by
  refine h.run_step hbase rfl (fun stack u hcollapse => ?_) frames more
  simp only [valueStep, if_true, hcollapse, Option.bind_some, hnext]

theorem Takes.run_end {tokens : List Token} {t : Tree} (h : Takes env tokens t)
    {frames : List QueryFrame} {next : QueryState}
    (hnext : forall s : State, s.finish? = some t -> queryStep frames s (.mark ')') = some next)
    (more : List Token) :
    QueryState.run env (.within frames ⟨[], .operand⟩) (tokens ++ .mark ')' :: more) =
      QueryState.run env next more := by
  rcases h frames [] bounded_nil with ⟨s, hrun, hsettles⟩
  rcases hsettles with ⟨u, hvalue, hcollapse⟩
  have hfinish : s.finish? = some t := State.Settles.finish? ⟨u, hvalue, hcollapse⟩
  have hnone : step env s (.mark ')') = none := by
    rw [show s = ⟨s.stack, s.phase⟩ from rfl, step_value hvalue rfl]
    simp only [valueStep, if_true, hcollapse, Option.bind_some]
    rfl
  rw [QueryState.run_of_append hrun, QueryState.run, QueryState.step, hnone,
    State.named_of_value? hvalue, hnone]
  dsimp only
  rw [hnext s hfinish, Option.bind_some]

/-!
## Queries
-/

theorem run_query (query : ElementQuery) {sourceTokens conditionTokens : List Token}
    {source condition : Tree} (hsource : Takes env sourceTokens source)
    (hcondition : Takes env conditionTokens condition) (frames : List QueryFrame)
    (stack : List Item) :
    QueryState.run env (.within (.source query stack :: frames) ⟨[], .operand⟩)
        (sourceTokens ++ .mark ')' :: (ElementQuery.between ++ (conditionTokens ++ [.mark ')']))) =
      some (.within frames ⟨stack, .value (query.tree source condition)⟩) := by
  have hbetween : forall more, QueryState.run env
      (.before (.condition query source stack :: frames) ElementQuery.between)
        (ElementQuery.between ++ more) =
      QueryState.run env (.within (.condition query source stack :: frames) ⟨[], .operand⟩) more :=
    fun _ => rfl
  have hfirst : forall s : State, s.finish? = some source ->
      queryStep (.source query stack :: frames) s (.mark ')') =
        some (.before (.condition query source stack :: frames) ElementQuery.between) := by
    intro s hs
    simp only [queryStep, hs]
    rfl
  have hlast : forall s : State, s.finish? = some condition ->
      queryStep (.condition query source stack :: frames) s (.mark ')') =
        some (.within frames ⟨stack, .value (query.tree source condition)⟩) := by
    intro s hs
    simp only [queryStep, hs]
    rfl
  rw [hsource.run_end hfirst, hbetween, hcondition.run_end hlast]
  rfl

theorem takesAtom_list {sourceTokens conditionTokens : List Token} {source condition : Tree}
    (hsource : Takes env sourceTokens source) (hcondition : Takes env conditionTokens condition) :
    TakesAtom env
      (.word "array" :: .mark '(' :: (ElementQuery.list.opening ++ (sourceTokens ++ .mark ')' ::
        (ElementQuery.between ++ (conditionTokens ++ [.mark ')'])))))
      (ElementQuery.list.tree source condition) := by
  intro frames stack
  exact ⟨_, run_query .list hsource hcondition frames stack, rfl⟩

theorem takesAtom_document {sourceTokens conditionTokens : List Token} {source condition : Tree}
    (hsource : Takes env sourceTokens source) (hcondition : Takes env conditionTokens condition) :
    TakesAtom env
      (.mark '(' :: (ElementQuery.document.opening ++ (sourceTokens ++ .mark ')' ::
        (ElementQuery.between ++ (conditionTokens ++ [.mark ')'])))))
      (ElementQuery.document.tree source condition) := by
  intro frames stack
  exact ⟨_, run_query .document hsource hcondition frames stack, rfl⟩

/-!
## Conditions on elements
-/

theorem run_element (stack : List Item) {base : List Item} {t : Tree} {symbol : String}
    (hcollapse : collapse Level.comparison stack (.column none "e") = some (base, t))
    (hlevel : binaryLevel? (.operator symbol) = some (symbol, Level.comparison))
    (frames : List QueryFrame) (more : List Token) :
    QueryState.run env (.within frames ⟨stack, .operand⟩)
        (.word "e" :: .operator symbol :: more) =
      QueryState.run env (.within frames ⟨.binary Level.comparison symbol t :: base, .operand⟩)
        more := by
  have hword : (QueryState.within frames ⟨stack, .operand⟩).step env (.word "e") =
      some (.within frames ⟨stack, .word "e"⟩) :=
    QueryState.step_within rfl frames
  have hoperator : (QueryState.within frames ⟨stack, .word "e"⟩).step env (.operator symbol) =
      some (.within frames ⟨.binary Level.comparison symbol t :: base, .operand⟩) := by
    have hrefused : step env ⟨stack, .word "e"⟩ (.operator symbol) = none := rfl
    have hnamed : step env (State.named ⟨stack, .word "e"⟩) (.operator symbol) =
        some ⟨.binary Level.comparison symbol t :: base, .operand⟩ := by
      rw [show State.named ⟨stack, .word "e"⟩ = ⟨stack, .quoted "e"⟩ from rfl,
        step_value rfl rfl, valueStep_binary hlevel, hcollapse]
      rfl
    rw [QueryState.step, hrefused]
    dsimp only
    rw [hnamed]
  rw [QueryState.run, hword, Option.bind_some, QueryState.run, hoperator, Option.bind_some]

theorem takes_compared {symbol : String}
    (hlevel : binaryLevel? (.operator symbol) = some (symbol, Level.comparison))
    {tokens : List Token} {t : Tree} (h : TakesAtom env tokens t) :
    Takes env (.word "e" :: .operator symbol :: tokens) (.binary symbol (.column none "e") t) := by
  intro frames base hbase
  rcases h frames (.binary Level.comparison symbol (.column none "e") :: base) with
    ⟨phase, hrun, hvalue⟩
  refine ⟨_, (run_element base (hbase.collapse _ _) hlevel frames tokens).trans hrun, t, hvalue, ?_⟩
  rw [collapse_binary (show 0 < Level.comparison by decide)]
  exact hbase.collapse 0 _

theorem takes_quantified {symbol : String}
    (hlevel : binaryLevel? (.operator symbol) = some (symbol, Level.comparison)) (all : Bool)
    {tokens : List Token} {t : Tree} (h : Takes env tokens t) :
    Takes env
      (.word "e" :: .operator symbol :: quantifierWord all :: .mark '(' ::
        (tokens ++ [.mark ')']))
      (.quantified symbol all (.column none "e") t) := by
  intro frames base hbase
  have hopen : forall more, QueryState.run env
      (.within frames ⟨.binary Level.comparison symbol (.column none "e") :: base, .operand⟩)
        (quantifierWord all :: .mark '(' :: more) =
      QueryState.run env
        (.within frames ⟨.quantified symbol all (.column none "e") :: base, .operand⟩) more := by
    intro more
    cases all <;> rfl
  refine ⟨⟨base, .value (.quantified symbol all (.column none "e") t)⟩, ?_, _, rfl,
    hbase.collapse 0 _⟩
  rw [run_element base (hbase.collapse _ _) hlevel, hopen, h.run_paren (bounded_cons rfl base) rfl]
  rfl

theorem Takes.negated {tokens : List Token} {t : Tree} (h : Takes env tokens t) :
    Takes env (.word "not" :: .mark '(' :: (tokens ++ [.mark ')'])) (.unary "NOT" t) := by
  intro frames base hbase
  have hopen : forall more, QueryState.run env (.within frames ⟨base, .operand⟩)
      (.word "not" :: .mark '(' :: more) =
        QueryState.run env
          (.within frames ⟨.group :: .unary Level.not "NOT" :: base, .operand⟩) more :=
    fun _ => rfl
  refine ⟨⟨.unary Level.not "NOT" :: base, .closed t⟩, ?_, t, rfl, ?_⟩
  · rw [hopen, h.run_paren (bounded_cons rfl _) rfl]
    rfl
  · rw [collapse_unary (Nat.zero_le _)]
    exact hbase.collapse 0 _

/-!
## Calls and parentheses
-/

def TakesItems (env : Nat -> Option Tree) (tokens : List Token) (items : List Tree) : Prop :=
  forall (name : String) (done : List Tree) (frames : List QueryFrame) (stack : List Item),
    takes name (done ++ items).length = true ->
      QueryState.run env (.within frames ⟨.list (.call name) done :: stack, .operand⟩)
          (tokens ++ [.mark ')']) =
        some (.within frames ⟨stack, .value (.call name (done ++ items))⟩)

theorem Takes.lastItem {tokens : List Token} {t : Tree} (h : Takes env tokens t) :
    TakesItems env tokens [t] := by
  intro name done frames stack htakes
  have hclose : closeParen (.list (.call name) done :: stack) t =
      some ⟨stack, .value (.call name (done ++ [t]))⟩ := by
    rw [closeParen, if_pos htakes]
  rw [h.run_paren (bounded_cons rfl stack) hclose]
  rfl

theorem Takes.consItem {tokens rest : List Token} {t : Tree} {items : List Tree}
    (h : Takes env tokens t) (hrest : TakesItems env rest items) :
    TakesItems env (tokens ++ .mark ',' :: rest) (t :: items) := by
  intro name done frames stack htakes
  have hnext := hrest name (done ++ [t]) frames stack (by simpa using htakes)
  rw [List.append_assoc, List.cons_append, h.run_comma (bounded_cons rfl stack) rfl]
  simpa using hnext

theorem TakesItems.call {tokens : List Token} {items : List Tree} (h : TakesItems env tokens items)
    {name : String} (hname : name ∉ reservedWords) (htakes : takes name items.length = true) :
    TakesAtom env (.word name :: .mark '(' :: (tokens ++ [.mark ')'])) (.call name items) := by
  intro frames stack
  have hopen := QueryState.run_within (@run_callOpen env _ hname stack) frames
  exact ⟨_, (QueryState.run_of_append hopen).trans (h name [] frames stack htakes), rfl⟩

theorem takesAtom_group {left right : List Token} {l r : Tree} {symbol : String}
    (hlevel : binaryLevel? (.operator symbol) = some (symbol, Level.other))
    (hleft : TakesAtom env left l) (hright : TakesAtom env right r) :
    TakesAtom env (.mark '(' :: (left ++ .operator symbol :: (right ++ [.mark ')'])))
      (.binary symbol l r) := by
  intro frames stack
  rcases hleft frames (.group :: stack) with ⟨phase, hrun, hvalue⟩
  rcases hright frames (.binary Level.other symbol l :: .group :: stack) with
    ⟨phase', hrun', hvalue'⟩
  have hopen : (QueryState.within frames ⟨stack, .operand⟩).step env (.mark '(') =
      some (.within frames ⟨.group :: stack, .operand⟩) :=
    QueryState.step_within rfl frames
  have hsymbol : (QueryState.within frames ⟨.group :: stack, phase⟩).step env (.operator symbol) =
      some (.within frames ⟨.binary Level.other symbol l :: .group :: stack, .operand⟩) := by
    apply QueryState.step_within
    rw [step_value hvalue rfl, valueStep_binary hlevel]
    rfl
  have hclose : (QueryState.within frames
      ⟨.binary Level.other symbol l :: .group :: stack, phase'⟩).step env (.mark ')') =
        some (.within frames ⟨stack, .closed (.binary symbol l r)⟩) := by
    apply QueryState.step_within
    rw [step_value hvalue' rfl]
    simp only [valueStep, if_true, collapse_binary (show 0 < Level.other from Nat.zero_lt_succ _)]
    rfl
  refine ⟨.closed (.binary symbol l r), ?_, rfl⟩
  rw [QueryState.run, hopen, Option.bind_some, QueryState.run_of_append hrun, QueryState.run,
    hsymbol, Option.bind_some, QueryState.run_of_append hrun', QueryState.run, hclose]
  rfl

end

/-!
## Texts
-/

section

variable (conforming : Bool) (env : Nat -> Option Tree)

/-- The text is one operand, perhaps with queries in it. -/
def QueryAtomText (text : List Char) (t : Tree) : Prop :=
  exists tokens, Lexes conforming text tokens ∧ TakesAtom env tokens t

def QueryText (text : List Char) (t : Tree) : Prop :=
  exists tokens, Lexes conforming text tokens ∧ Takes env tokens t

def QueryItemsText (text : List Char) (items : List Tree) : Prop :=
  exists tokens, Lexes conforming text tokens ∧ TakesItems env tokens items

end

section

variable {conforming : Bool} {env : Nat -> Option Tree}

theorem AtomText.query {text : List Char} {t : Tree} (h : AtomText conforming env text t)
    (hqualified : t.isQualified = true) : QueryAtomText conforming env text t := by
  rcases h with ⟨-, tokens, hlexes, hout⟩
  exact ⟨tokens, hlexes, (hout.reads hqualified).takesAtom⟩

theorem WholeText.query {text : List Char} {t : Tree} (h : WholeText conforming env text t)
    (hqualified : t.isQualified = true) : QueryText conforming env text t := by
  rcases h with ⟨tokens, hlexes, hout⟩
  exact ⟨tokens, hlexes, (hout.reads hqualified).takes⟩

theorem QueryAtomText.whole {text : List Char} {t : Tree}
    (h : QueryAtomText conforming env text t) : QueryText conforming env text t := by
  rcases h with ⟨tokens, hlexes, htakes⟩
  exact ⟨tokens, hlexes, htakes.takes⟩

theorem QueryText.readQuery? {text : String} {t : Tree}
    (h : QueryText conforming env text.toList t) : readQuery? conforming env text = some t := by
  rcases h with ⟨tokens, hlexes, htakes⟩
  rw [Server.readQuery?, tokens?_of_lexes hlexes]
  exact parseQuery?_of_takes htakes

theorem lexes_between {before text after : List Char} {opening tokens closing : List Token}
    (hbefore : Opens conforming before opening) (htext : Lexes conforming text tokens) {c : Char}
    {rest : List Char} (hafter : after = c :: rest) (hc : isDelimiter c = true)
    (hclosing : Lexes conforming after closing) :
    Lexes conforming (before ++ (text ++ after)) (opening ++ (tokens ++ closing)) :=
  hbefore.append (htext.append hafter hc hclosing)

/-!
## Queries and conditions as texts
-/

theorem lexes_query {before source condition : List Char} {opening sourceTokens
    conditionTokens : List Token} (hbefore : Opens conforming before opening)
    (hsource : Lexes conforming source sourceTokens)
    (hcondition : Lexes conforming condition conditionTokens) :
    Lexes conforming (before ++ (source ++ (") AS e WHERE ".toList ++ (condition ++ [')']))))
      (opening ++ (sourceTokens ++
        (.mark ')' :: (ElementQuery.between ++ (conditionTokens ++ [.mark ')']))))) := by
  have hwhere : Opens conforming ") AS e WHERE ".toList (.mark ')' :: ElementQuery.between) := rfl
  have hend := (lexes_enclosed hwhere hcondition (Or.inl rfl)).lexes
  exact lexes_between hbefore hsource rfl rfl hend

theorem QueryText.list {source condition : List Char} {s t : Tree}
    (hsource : QueryText conforming env source s)
    (hcondition : QueryText conforming env condition t) :
    QueryAtomText conforming env
      ("ARRAY(SELECT e FROM unnest(".toList ++
        (source ++ (") AS e WHERE ".toList ++ (condition ++ [')']))))
      (ElementQuery.list.tree s t) := by
  rcases hsource with ⟨sourceTokens, hlexes, hs⟩
  rcases hcondition with ⟨conditionTokens, hlexes', ht⟩
  have hopen : Opens conforming "ARRAY(SELECT e FROM unnest(".toList
      (.word "array" :: .mark '(' :: ElementQuery.list.opening) := by
    cases conforming <;> rfl
  exact ⟨_, lexes_query hopen hlexes hlexes', takesAtom_list hs ht⟩

theorem QueryText.document {source condition : List Char} {s t : Tree}
    (hsource : QueryText conforming env source s)
    (hcondition : QueryText conforming env condition t) :
    QueryAtomText conforming env
      ("(SELECT COALESCE(jsonb_agg(e), '[]'::jsonb) FROM jsonb_array_elements(".toList ++
        (source ++ (") AS e WHERE ".toList ++ (condition ++ [')']))))
      (ElementQuery.document.tree s t) := by
  rcases hsource with ⟨sourceTokens, hlexes, hs⟩
  rcases hcondition with ⟨conditionTokens, hlexes', ht⟩
  have hopen : Opens conforming
      "(SELECT COALESCE(jsonb_agg(e), '[]'::jsonb) FROM jsonb_array_elements(".toList
        (.mark '(' :: ElementQuery.document.opening) := by
    cases conforming <;> rfl
  exact ⟨_, lexes_query hopen hlexes hlexes', takesAtom_document hs ht⟩

theorem QueryAtomText.compared {text : List Char} {t : Tree}
    (h : QueryAtomText conforming env text t) :
    QueryText conforming env ("e <> ".toList ++ text) (.binary "<>" (.column none "e") t) := by
  rcases h with ⟨tokens, hlexes, htakes⟩
  have hopen : Opens conforming "e <> ".toList [.word "e", .operator "<>"] := rfl
  exact ⟨_, hopen.append hlexes, takes_compared rfl htakes⟩

theorem QueryText.all {text : List Char} {t : Tree} (h : QueryText conforming env text t) :
    QueryText conforming env ("e <> ALL(".toList ++ (text ++ [')']))
      (.quantified "<>" true (.column none "e") t) := by
  rcases h with ⟨tokens, hlexes, htakes⟩
  have hopen : Opens conforming "e <> ALL(".toList
      [.word "e", .operator "<>", quantifierWord true, .mark '('] := rfl
  exact ⟨_, (lexes_enclosed hopen hlexes (Or.inl rfl)).lexes, takes_quantified rfl true htakes⟩

/-- A query, a name without quotes and an array without items in one text. -/
example :
    readQuery? true (fun _ => none)
        "ARRAY(SELECT e FROM unnest(\"a\") AS e WHERE e <> ALL(ARRAY[]))" =
      some (ElementQuery.list.tree (.column none "a")
        (.quantified "<>" true (.column none "e") (.array []))) :=
  rfl

theorem QueryText.notAny {text : List Char} {t : Tree} (h : QueryText conforming env text t) :
    QueryText conforming env ("NOT (e = ANY(".toList ++ (text ++ [')', ')']))
      (.unary "NOT" (.quantified "=" false (.column none "e") t)) := by
  rcases h with ⟨tokens, hlexes, htakes⟩
  have hopen : Opens conforming "NOT (e = ANY(".toList
      [.word "not", .mark '(', .word "e", .operator "=", quantifierWord false, .mark '('] := rfl
  have hclose : Lexes conforming [')', ')'] [.mark ')', .mark ')'] :=
    Opens.lexes (show Opens conforming _ _ from rfl)
  refine ⟨_, lexes_between hopen hlexes rfl rfl hclose, ?_⟩
  have hequal : Takes env _ (.quantified "=" false (.column none "e") t) :=
    takes_quantified rfl false htakes
  have hnegated := hequal.negated
  simpa using hnegated

/-!
## Calls and parentheses as texts
-/

theorem QueryText.lastItem {text : List Char} {t : Tree} (h : QueryText conforming env text t) :
    QueryItemsText conforming env text [t] := by
  rcases h with ⟨tokens, hlexes, htakes⟩
  exact ⟨tokens, hlexes, htakes.lastItem⟩

theorem QueryText.consItem {text rest : List Char} {t : Tree} {items : List Tree}
    (h : QueryText conforming env text t) (hrest : QueryItemsText conforming env rest items) :
    QueryItemsText conforming env (text ++ (", ".toList ++ rest)) (t :: items) := by
  rcases h with ⟨tokens, hlexes, htakes⟩
  rcases hrest with ⟨restTokens, hlexes', htakes'⟩
  have hcomma : Opens conforming ", ".toList [.mark ','] := rfl
  exact ⟨_, hlexes.append rfl rfl (hcomma.append hlexes'), htakes.consItem htakes'⟩

theorem QueryItemsText.call {before text : List Char} {items : List Tree} {name : String}
    (h : QueryItemsText conforming env text items)
    (hopen : Opens conforming before [.word name, .mark '(']) (hname : name ∉ reservedWords)
    (htakes : takes name items.length = true) :
    QueryAtomText conforming env (before ++ (text ++ [')'])) (.call name items) := by
  rcases h with ⟨tokens, hlexes, hitems⟩
  exact ⟨_, (lexes_enclosed hopen hlexes (Or.inl rfl)).lexes, hitems.call hname htakes⟩

theorem QueryAtomText.reached {left right : List Char} {l r : Tree}
    (hleft : QueryAtomText conforming env left l) (hright : QueryAtomText conforming env right r) :
    QueryAtomText conforming env ("(".toList ++ (left ++ (" #> ".toList ++ (right ++ [')']))))
      (.binary "#>" l r) := by
  rcases hleft with ⟨leftTokens, hlexes, hl⟩
  rcases hright with ⟨rightTokens, hlexes', hr⟩
  have hopen : Opens conforming "(".toList [.mark '('] := rfl
  have harrow : Opens conforming " #> ".toList [.operator "#>"] := rfl
  have hend := (lexes_enclosed harrow hlexes' (Or.inl rfl)).lexes
  exact ⟨_, lexes_between hopen hlexes rfl rfl hend, takesAtom_group rfl hl hr⟩

end

end Server
end TypedQuery
