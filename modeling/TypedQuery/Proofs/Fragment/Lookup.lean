import TypedQuery.Proofs.Expr.Rendered
import TypedQuery.Proofs.Fragment.Anchor
import TypedQuery.Proofs.Fragment.Reference
import TypedQuery.Proofs.Server.Scope

/-!
# Where columns of a fragment are looked up

The server reads the text of a fragment from the left, and looks every column up in the FROM lists
that are in force where it stands.  A fragment that reads as an expression brings none into force;
texts around such fragments may.
-/

namespace TypedQuery

open Server

/-- A reference to a column and the FROM lists that it is looked up in, innermost first. -/
structure Lookup where
  reference : Reference
  levels? : Option (List (List Relation))
deriving DecidableEq

/-- How a fragment is written and read: the mode and the frames, how the server takes backslashes,
and the FROM list that is in force from the beginning. -/
structure Situation where
  mode : RenderMode
  scopes : Scopes
  conforming : Bool
  outer : List Relation

namespace Situation

def write (s : Situation) (r : Rendered) (parts : List Part) : Rendered :=
  s.mode.writeParts s.scopes r parts

def lookupsOf (s : Situation) : Rendered -> List Placed -> List Lookup
  | _, [] => []
  | r, p :: rest =>
      let next := s.mode.writeLeaf r p
      match p.leaf with
      | .column slot name =>
          ⟨p.scopes.reference slot name, levelsAt? s.conforming s.outer next.sql.toList⟩ ::
            s.lookupsOf next rest
      | _ => s.lookupsOf next rest

def lookups (s : Situation) (r : Rendered) (parts : List Part) : List Lookup :=
  s.lookupsOf r (Part.allLeaves s.scopes parts)

end Situation

def Fragment.lookups (f : Fragment) (s : Situation) : List Lookup := s.lookups {} f.parts

/-!
## Leaves one after another
-/

theorem Part.allLeaves_nested (scopes : Scopes) (parts : List Part) :
    allLeaves scopes [.nested parts] = allLeaves scopes parts := by
  rw [allLeaves, allLeaves, List.append_nil, leaves]

namespace Situation

variable {s : Situation}

theorem write_eq_foldl (s : Situation) (r : Rendered) (parts : List Part) :
    s.write r parts = (Part.allLeaves s.scopes parts).foldl s.mode.writeLeaf r :=
  s.mode.writeParts_eq_foldl s.scopes r parts

theorem write_append (s : Situation) (r : Rendered) (xs ys : List Part) :
    s.write r (xs ++ ys) = s.write (s.write r xs) ys := by
  rw [write_eq_foldl, write_eq_foldl, write_eq_foldl, Part.allLeaves_append, List.foldl_append]

theorem write_nested (s : Situation) (r : Rendered) (parts : List Part) :
    s.write r [.nested parts] = s.write r parts := by
  rw [write_eq_foldl, write_eq_foldl, Part.allLeaves_nested]

theorem toList_write_text (s : Situation) (r : Rendered) (text : String) :
    (s.write r [.text text]).sql.toList = r.sql.toList ++ text.toList :=
  String.toList_append

theorem lookupsOf_append (s : Situation) (r : Rendered) (ps qs : List Placed) :
    s.lookupsOf r (ps ++ qs) =
      s.lookupsOf r ps ++ s.lookupsOf (ps.foldl s.mode.writeLeaf r) qs := by
  induction ps generalizing r with
  | nil => rfl
  | cons p rest ih =>
      rw [List.cons_append, lookupsOf, lookupsOf, List.foldl_cons]
      split
      · rw [ih, List.cons_append]
      · exact ih _

theorem lookups_append (s : Situation) (r : Rendered) (xs ys : List Part) :
    s.lookups r (xs ++ ys) = s.lookups r xs ++ s.lookups (s.write r xs) ys := by
  rw [lookups, Part.allLeaves_append, lookupsOf_append, <- write_eq_foldl]
  rfl

theorem lookups_nested (s : Situation) (r : Rendered) (parts : List Part) :
    s.lookups r [.nested parts] = s.lookups r parts := by
  rw [lookups, lookups, Part.allLeaves_nested]

theorem lookups_text (s : Situation) (r : Rendered) (text : String) :
    s.lookups r [.text text] = [] := rfl

theorem lookupsOf_scopes (s : Situation) (scopes : Scopes) (r : Rendered)
    (leaves : List Placed) : { s with scopes }.lookupsOf r leaves = s.lookupsOf r leaves := by
  induction leaves generalizing r with
  | nil => rfl
  | cons p rest ih =>
      rw [lookupsOf, lookupsOf]
      split
      · exact congrArg _ (ih _)
      · exact ih _

theorem lookups_frame (s : Situation) (r : Rendered) (aliases : AliasMap) (unqualified : Bool)
    (parts : List Part) :
    s.lookups r [.frame aliases unqualified parts] =
      { s with scopes := s.scopes.push aliases unqualified }.lookups r parts := by
  rw [lookups, Part.allLeaves, Part.allLeaves, List.append_nil, Part.leaves]
  exact (s.lookupsOf_scopes _ r _).symm

theorem exists_written_behind (mode : RenderMode) (r : Rendered) (leaves : List Placed) :
    exists more, (leaves.foldl mode.writeLeaf r).sql.toList = r.sql.toList ++ more := by
  induction leaves generalizing r with
  | nil => exact ⟨[], (List.append_nil _).symm⟩
  | cons p rest ih =>
      have hleaf : exists text, (mode.writeLeaf r p).sql.toList = r.sql.toList ++ text := by
        rw [RenderMode.writeLeaf_eq]
        unfold RenderMode.writePiece
        split
        · exact ⟨_, String.toList_append⟩
        · split
          · exact ⟨_, String.toList_append⟩
          · dsimp only
            rw [String.append_assoc, String.toList_append]
            exact ⟨_, rfl⟩
      rcases hleaf with ⟨text, htext⟩
      rcases ih (mode.writeLeaf r p) with ⟨more, hmore⟩
      exact ⟨text ++ more, by rw [List.foldl_cons, hmore, htext, List.append_assoc]⟩

/-- Where the same FROM lists are in force from one end of the leaves to the other, all columns are
looked up in them. -/
theorem lookupsOf_eq {levels : List (List Relation)} {r : Rendered} {leaves : List Placed}
    (h : forall first second,
      (leaves.foldl s.mode.writeLeaf r).sql.toList = r.sql.toList ++ (first ++ second) ->
        levelsAt? s.conforming s.outer (r.sql.toList ++ first) = some levels) :
    s.lookupsOf r leaves = leaves.filterMap fun p =>
      p.column?.map fun ref => ⟨p.scopes.reference ref.1 ref.2, some levels⟩ := by
  induction leaves generalizing r with
  | nil => rfl
  | cons p rest ih =>
      rcases exists_written_behind s.mode r [p] with ⟨text, htext⟩
      rcases exists_written_behind s.mode (s.mode.writeLeaf r p) rest with ⟨more, hmore⟩
      rw [List.foldl_cons, List.foldl_nil] at htext
      have hrest := @ih (s.mode.writeLeaf r p) fun first second hall => by
        rw [htext, List.append_assoc] at hall ⊢
        exact h (text ++ first) second (by rw [List.foldl_cons, hall, List.append_assoc])
      have hlevels : levelsAt? s.conforming s.outer (s.mode.writeLeaf r p).sql.toList =
          some levels := by
        rw [htext]
        exact h text more (by rw [List.foldl_cons, hmore, htext, List.append_assoc])
      rw [lookupsOf, hrest]
      rcases p with ⟨scopes, leaf⟩
      cases leaf with
      | column slot name =>
          dsimp only
          rw [hlevels]
          rfl
      | _ => rfl

end Situation

/-!
## Mentions
-/

/-- A column that a fragment names, with the relations of the queries of the fragment that stand
around it, innermost first. -/
structure Mention where
  column : String
  around : List Relation := []
deriving DecidableEq

namespace Mention

def inside (relation : Relation) (m : Mention) : Mention := ⟨m.column, m.around ++ [relation]⟩

def lookup (levels : List (List Relation)) (m : Mention) : Lookup :=
  ⟨⟨none, m.column⟩, some (m.around.map ([·]) ++ levels)⟩

theorem lookup_inside (relation : Relation) (levels : List (List Relation)) (m : Mention) :
    (m.inside relation).lookup levels = m.lookup ([relation] :: levels) := by
  simp [lookup, inside]

end Mention

def Fragment.mentions (f : Fragment) : List Mention := f.columns.map fun ref => ⟨ref.2, []⟩

namespace Situation

variable {s : Situation} {r : Rendered} {regions : List Region}
  {levels : List (List Relation)} {parts : List Part} {found : List Lookup}

/-- Wherever the fragment is written in an expression, the server goes on with this expression
behind it and looks its columns up as the mentions say. -/
def Finds (s : Situation) (f : Fragment) (mentions : List Mention) : Prop :=
  forall ⦃r : Rendered⦄ ⦃levels : List (List Relation)⦄ ⦃regions : List Region⦄,
    Reaches s.conforming s.outer r.sql.toList (⟨levels, .expression⟩ :: regions) ->
      Passes s.conforming s.outer (s.write r f.parts).sql.toList
          (⟨levels, .expression⟩ :: regions) ∧
        s.lookups r f.parts = mentions.map (·.lookup levels)

/-!
## Texts and fragments in turn
-/

/-- Behind the parts these regions are open, no token is, and the columns among the parts are looked
up so. -/
structure Opened (s : Situation) (r : Rendered) (parts : List Part) (regions : List Region)
    (found : List Lookup) : Prop where
  reaches : Reaches s.conforming s.outer (s.write r parts).sql.toList regions
  lookups : s.lookups r parts = found

structure Passed (s : Situation) (r : Rendered) (parts : List Part) (regions : List Region)
    (found : List Lookup) : Prop where
  passes : Passes s.conforming s.outer (s.write r parts).sql.toList regions
  lookups : s.lookups r parts = found

theorem opened_nil (h : Reaches s.conforming s.outer r.sql.toList regions) :
    s.Opened r [] regions [] :=
  ⟨h, rfl⟩

theorem Opened.passed (h : s.Opened r parts regions found) : s.Passed r parts regions found :=
  ⟨h.reaches.passes, h.lookups⟩

theorem Opened.text (h : s.Opened r parts regions found) (text : String)
    (reached : List Region) (htext : scanText? s.conforming regions text = some reached) :
    s.Opened r (parts ++ [.text text]) reached found := by
  constructor
  · rw [write_append, toList_write_text]
    exact h.reaches.text htext
  · rw [lookups_append, h.lookups, lookups_text, List.append_nil]

theorem Passed.text (h : s.Passed r parts regions found) (text : String)
    (reached : List Region) (hdelimited : text.toList.head?.any isDelimiter = true)
    (htext : scanText? s.conforming regions text = some reached) :
    s.Opened r (parts ++ [.text text]) reached found := by
  constructor
  · rw [write_append, toList_write_text]
    exact h.passes.text hdelimited htext
  · rw [lookups_append, h.lookups, lookups_text, List.append_nil]

theorem Opened.table {parts : List Part}
    (h : s.Opened r parts (⟨levels, .expression⟩ :: regions) found) {slot : Slot}
    (halias : s.scopes.tableAlias? slot = none) (t : Table) :
    s.Passed r (parts ++ [.table slot t]) (⟨levels, .expression⟩ :: regions) found := by
  constructor
  · have hwrite : (s.write (s.write r parts) [.table slot t]).sql.toList =
        (s.write r parts).sql.toList ++ t.qualifiedName.toList := by
      change (RenderMode.writeTable s.scopes (s.write r parts) slot t).sql.toList = _
      rw [RenderMode.writeTable, halias]
      exact String.toList_append
    rw [write_append, hwrite]
    exact h.reaches.qualifiedIdent t.schema t.name
  · rw [lookups_append, h.lookups]
    exact List.append_nil found

theorem Opened.append (h : s.Opened r parts (⟨levels, .expression⟩ :: regions) found)
    {f : Fragment} {mentions : List Mention} (hf : s.Finds f mentions) :
    s.Passed r (parts ++ f.parts) (⟨levels, .expression⟩ :: regions)
      (found ++ mentions.map (·.lookup levels)) := by
  rcases hf h.reaches with ⟨hpasses, hlookups⟩
  constructor
  · rw [write_append]
    exact hpasses
  · rw [lookups_append, h.lookups, hlookups]

theorem Finds.nested {f : Fragment} {mentions : List Mention} (h : s.Finds f mentions) :
    s.Finds ⟨[.nested f.parts]⟩ mentions := by
  intro r levels regions hreaches
  rw [write_nested, lookups_nested]
  exact h hreaches

theorem Opened.nested (h : s.Opened r parts (⟨levels, .expression⟩ :: regions) found)
    {f : Fragment} {mentions : List Mention} (hf : s.Finds f mentions) :
    s.Passed r (parts ++ [.nested f.parts]) (⟨levels, .expression⟩ :: regions)
      (found ++ mentions.map (·.lookup levels)) :=
  h.append hf.nested

/-!
## Expressions
-/

/-- What is written for a fragment behind other text, as the values of placeholders decide how it
reads. -/
theorem exists_writtenAs (f : Fragment) {mode : RenderMode} (hmode : mode ≠ .bound .atSign)
    (scopes : Scopes) (conforming : Bool) (r : Rendered) :
    exists env text,
      (mode.writeParts scopes r f.parts).sql.toList = r.sql.toList ++ text ∧
        f.WrittenAs (Reader.spelled ⟨conforming, env, scopes⟩) scopes text := by
  rw [RenderMode.writeParts_eq_pieces]
  cases mode with
  | simple =>
      refine ⟨fun _ => none, _, ?_, written_simple ?_⟩
      · rw [Piece.foldl_writePiece_simple]
        exact String.toList_append
      · intro v hv
        exact v.value.literal_text.2 (Value.isInteger_of_bound (inlineLiteral?_of_mem_pieces hv))
  | bound placeholder =>
      cases placeholder with
      | atSign => exact absurd rfl hmode
      | dollar =>
          refine ⟨fun index => (Parameters.get?
            ⟨r.params.values ++ Piece.values (Part.pieces scopes f.parts) ++ []⟩ index).map
              fun v => v.value.tree, _, ?_, @written_bound _ .dollar r.params.values [] _ ?_⟩
          · rw [Piece.foldl_writePiece_bound]
            exact String.toList_append
          · intro index v _ hget
            exact atomText_dollar (congrArg (Option.map fun v => v.value.tree) hget)

/-- A fragment that is an expression: everything that may be written for it reads as one. -/
def IsExpression (s : Situation) (f : Fragment) : Prop :=
  forall env, exists t, Reader.Means ⟨s.conforming, env, s.scopes⟩ f t ∧ t.isQualified = true

def NamesBare (s : Situation) (f : Fragment) : Prop :=
  forall part, part ∈ f.anchors ->
    exists slot name, part = .column slot name ∧ s.scopes.qualifierName? slot = none

theorem filterMap_eq_mentions {f : Fragment} (h : s.NamesBare f)
    (levels : List (List Relation)) :
    ((Part.allLeaves s.scopes f.parts).filterMap fun p =>
      p.column?.map fun ref => Lookup.mk (p.scopes.reference ref.1 ref.2) (some levels)) =
        f.mentions.map (·.lookup levels) := by
  rw [Fragment.mentions, Fragment.columns_eq_flatMap,
    Part.filterMap_allLeaves (fun _ _ => rfl) (fun _ _ => rfl), <- Fragment.anchors]
  unfold NamesBare at h
  generalize f.anchors = anchors at h ⊢
  induction anchors with
  | nil => rfl
  | cons part rest ih =>
      rcases h part List.mem_cons_self with ⟨slot, name, rfl, hbare⟩
      have hrest := ih fun part hpart => h part (List.mem_cons_of_mem _ hpart)
      rw [List.flatMap_cons, List.flatMap_cons, List.map_append, List.map_append, hrest]
      have href : s.scopes.reference slot name = ⟨none, name⟩ := by
        rw [Scopes.reference, hbare]
      simp [Part.leaves, Placed.column?, Mention.lookup, href]

theorem finds_of_isExpression (hmode : s.mode ≠ .bound .atSign) {f : Fragment}
    (hf : s.IsExpression f) (hbare : s.NamesBare f) : s.Finds f f.mentions := by
  intro r levels regions hreaches
  rcases exists_writtenAs f hmode s.scopes s.conforming r with ⟨env, text, hwrite, hwritten⟩
  rcases hf env with ⟨t, ⟨spine, hshows, hpresents⟩, hqualified⟩
  rcases hshows text hwritten with ⟨-, tokens, hlexes, houtcome⟩
  rw [<- hpresents.agrees.qualified_eq] at hqualified
  rcases hreaches.expression hlexes (houtcome.reads hqualified).reads with ⟨hpasses, hlevels⟩
  constructor
  · rw [write, hwrite]
    exact hpasses
  · rw [lookups, lookupsOf_eq, filterMap_eq_mentions hbare levels]
    intro first second hall
    rw [<- write_eq_foldl, write, hwrite] at hall
    exact hlevels first second (List.append_cancel_left hall)

end Situation
end TypedQuery
