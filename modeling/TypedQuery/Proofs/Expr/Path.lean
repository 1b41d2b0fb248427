import TypedQuery.Proofs.Expr.Method

/-!
# Paths mean what they should

A column reads as a column, and the arrows of the JSON steps after it follow one another without
parentheses.  They are taken from left to right, as long as what stands before an arrow is a column
with arrows only, which a value that is JSON always is.
-/

namespace TypedQuery

open Server

/-!
## Columns
-/

theorem Scopes.tableAlias?_eq (scopes : Scopes) (slot : Slot) :
    scopes.tableAlias? slot = (scopes.tableName? slot).map aliasIdent := by
  unfold Scopes.tableAlias? Scopes.tableName? Binding.written? Binding.writtenName?
  cases scopes.binding? slot with
  | none => rfl
  | some b =>
      dsimp only
      split
      · rfl
      · rfl

theorem Scopes.qualifier?_eq (scopes : Scopes) (slot : Slot) :
    scopes.qualifier? slot = (scopes.qualifierName? slot).map aliasIdent := by
  rcases scopes with ⟨frames⟩
  cases frames with
  | nil => exact tableAlias?_eq ⟨[]⟩ slot
  | cons frame rest =>
      rcases frame with ⟨aliases, unqualified⟩
      cases unqualified with
      | false => exact tableAlias?_eq _ slot
      | true =>
          simp only [qualifier?, qualifierName?]
          split
          · rfl
          · exact tableAlias?_eq _ slot

section

variable {conforming : Bool} {env : Nat -> Option Tree}

theorem startable_quoteIdent (name : String) : Startable (Text.quoteIdent name).toList := by
  unfold Text.quoteIdent
  rw [String.toList_append, String.toList_append]
  exact Or.inl rfl

theorem startable_aliasIdent (name : String) : Startable (aliasIdent name).toList := by
  unfold aliasIdent
  split
  · rename_i hplain
    exact startable_plain hplain
  · exact startable_quoteIdent name

theorem outcome_qualified (qualifier name : String) :
    Outcome [aliasToken qualifier, .mark '.', .quoted name] (isQualifier qualifier)
      (ReadsAtom env [aliasToken qualifier, .mark '.', .quoted name]
        (.column (some qualifier) name)) := by
  constructor
  · intro h
    exact readsAtom_qualified h name
  · intro h
    simp only [isQualifier, Bool.or_eq_false_iff, Bool.not_eq_false'] at h
    rw [aliasToken, if_pos h.1]
    exact .here h.2 _

theorem atomText_column (scopes : Scopes) (slot : Slot) (name : String) :
    AtomText conforming env (scopes.columnText slot name).toList (scopes.columnTree slot name) := by
  unfold Scopes.columnText Scopes.columnTree
  rw [scopes.qualifier?_eq]
  cases scopes.qualifierName? slot with
  | none =>
      have hout : Outcome [.quoted name] true (ReadsAtom env [.quoted name] (.column none name)) :=
        .of_reads (readsAtom_column name)
      exact ⟨startable_quoteIdent name, _, lexes_quoteIdent name, hout⟩
  | some qualifier =>
      have hlex := (@opens_aliasIdent conforming qualifier).append
        (lexes_quoteIdent name)
      refine ⟨?_, _, ?_, outcome_qualified qualifier name⟩
      · simp only [Option.map_some, String.toList_append, List.append_assoc]
        exact (startable_aliasIdent qualifier).append _
      · simpa using hlex

end

/-!
## Steps
-/

namespace Reader

variable {r : Reader}

/-- The fragment means the tree, and where it is JSON it may stand before an arrow as it is. -/
structure Leads (r : Reader) (f : TypedFragment) (t : Tree) : Prop where
  means : r.Means f.query t
  chained : f.type.isJson = true -> exists s, r.Shows Level.other f.query s ∧ s.Presents t

theorem leads_column (slot : Slot) (name : String) (type : SqlType) :
    r.Leads ⟨Fragment.empty.column slot name, type⟩ (r.scopes.columnTree slot name) := by
  have hshows : r.Shows Level.other (Fragment.empty.column slot name)
      ⟨r.scopes.columnTree slot name, []⟩ := by
    intro written hwritten
    rcases hwritten.of_column with ⟨_, rfl, hempty⟩
    rw [hempty.eq_of_empty]
    exact (atomText_column r.scopes slot name).operand.spine (Nat.le_refl _)
  have hpresents : Spine.Presents ⟨r.scopes.columnTree slot name, []⟩
      (r.scopes.columnTree slot name) :=
    Spine.presents_operand (Tree.Agrees.refl rfl) rfl
  constructor
  · exact ⟨_, fun written h => (hshows written h).mono (Nat.zero_le _), hpresents⟩
  · intro _
    exact ⟨_, hshows, hpresents⟩

theorem Leads.jsonStep {f g : TypedFragment} {t : Tree} (hf : r.Leads f t) (key : Typed)
    {asText : Bool} (h : f.jsonStep key asText = .ok g) :
    r.Leads g (.binary (arrowSymbol asText) t key.tree) := by
  unfold TypedFragment.jsonStep at h
  split at h
  · rename_i hjson
    cases h
    rcases hf.chained hjson with ⟨s, hshows, hs⟩
    have harrow : r.Shows Level.other
        (((Fragment.empty.nested f.query).text (if asText then "->>" else "->")).value key)
        (s.snoc (.binary (arrowSymbol asText) key.tree)) := by
      intro written hwritten
      rcases operandText_of_value hwritten with ⟨_, value, rfl, hfirst, hkey⟩
      rcases hfirst.of_text with ⟨_, rfl, hnested⟩
      rcases hnested.of_nested with ⟨_, text, rfl, hempty, htext⟩
      rw [hempty.eq_of_empty, List.nil_append, List.append_assoc]
      exact (hshows text htext).arrow asText hkey
    have hpresents := hs.snoc_arrow key.agrees_tree key.inert_tree.isTight asText
    constructor
    · exact ⟨_, fun written h => (harrow written h).mono (Nat.zero_le _), hpresents⟩
    · intro _
      exact ⟨_, harrow, hpresents⟩
  · cases h

theorem Leads.derived {f g : TypedFragment} {t : Tree} (hf : r.Leads f t) {accessor : Accessor}
    {property : Tree -> Tree} (haccessor : r.AccessorMeans accessor property)
    (h : accessor f = .ok g) : r.Leads g (property t) := by
  rcases haccessor hf.means h with ⟨hjson, hmeans⟩
  refine ⟨hmeans, ?_⟩
  -- No property is JSON, so that no arrow follows one.
  intro htrue
  rw [hjson] at htrue
  cases htrue

theorem leads_step {p q : ResolvedPath} {t : Tree} (hp : r.Leads p.expr t) {step : PathStep}
    (h : p.step CallRegistry.builtin step = .ok q) :
    r.Leads q.expr (step.tree p.expr.type t) := by
  cases step with
  | table slot => cases h
  | column name => cases h
  | key k asText =>
      rcases Result.bind_eq_ok.mp h with ⟨expr, hexpr, hq⟩
      cases hq
      exact hp.jsonStep _ hexpr
  | index n asText =>
      rcases Result.bind_eq_ok.mp h with ⟨expr, hexpr, hq⟩
      cases hq
      exact hp.jsonStep _ hexpr
  | derived name =>
      unfold ResolvedPath.step at h
      rcases @lookup_accessor r p.expr.type.kind name with
        ⟨hnone, -⟩ | ⟨accessor, property, hsome, hproperty, hmeans⟩
      · simp only [hnone] at h
        cases h
      · simp only [hsome] at h
        rcases Result.bind_eq_ok.mp h with ⟨expr, hexpr, hq⟩
        cases hq
        have htree : PathStep.tree p.expr.type t (.derived name) = property t := by
          simp only [PathStep.tree, hproperty]
        rw [htree]
        exact hp.derived hmeans hexpr

theorem leads_steps {steps : List PathStep} {p q : ResolvedPath} {t : Tree}
    (hp : r.Leads p.expr t)
    (h : steps.foldlM (ResolvedPath.step CallRegistry.builtin) p = .ok q) :
    r.Leads q.expr (p.tree CallRegistry.builtin t steps) := by
  induction steps generalizing p t with
  | nil =>
      cases h
      exact hp
  | cons step rest ih =>
      rw [List.foldlM_cons] at h
      rcases Result.bind_eq_ok.mp h with ⟨next, hnext, hrest⟩
      rw [ResolvedPath.tree, hnext]
      exact ih (leads_step hp hnext) hrest

end Reader

/-!
## Whole paths
-/

theorem resolvePath_cases {c : Compiler} {path : List PathStep} {q : ResolvedPath}
    (h : resolvePath c.scope c.calls path = .ok q) :
    exists slot column start steps, c.start? path = .ok (slot, column, start, steps) ∧
      start.expr = ⟨Fragment.empty.column slot column.name, column.type⟩ ∧
        steps.foldlM (ResolvedPath.step c.calls) start = .ok q := by
  rcases Result.bind_eq_ok.mp h with ⟨⟨slot, rest⟩, hslot, h⟩
  rcases Result.bind_eq_ok.mp h with ⟨t, htable, h⟩
  rcases Result.bind_eq_ok.mp h with ⟨⟨start, steps⟩, hstart, hsteps⟩
  unfold columnOfPath at hstart
  split at hstart
  · rcases Result.bind_eq_ok.mp hstart with ⟨⟨index, column⟩, hcolumn, hpair⟩
    cases hpair
    refine ⟨slot, column, _, steps, ?_, rfl, hsteps⟩
    simp only [Compiler.start?, hslot, htable, hcolumn, Result.ok_bind, Result.pure_eq_ok]
  · cases hstart
  · cases hstart

theorem Reader.means_path {r : Reader} {c : Compiler} (hcalls : c.calls = .builtin)
    {path : List PathStep} {q : ResolvedPath}
    (h : resolvePath c.scope c.calls path = .ok q) :
    r.Means q.expr.query (c.pathTree r.scopes path) := by
  rcases resolvePath_cases h with ⟨slot, column, start, steps, hstart, hexpr, hsteps⟩
  have hleads : r.Leads start.expr (r.scopes.columnTree slot column.name) := by
    rw [hexpr]
    exact Reader.leads_column slot column.name column.type
  rw [hcalls] at hsteps
  unfold Compiler.pathTree
  rw [hstart, hcalls]
  exact (Reader.leads_steps hleads hsteps).means

end TypedQuery
