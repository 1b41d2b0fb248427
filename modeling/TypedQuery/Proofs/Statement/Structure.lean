import TypedQuery.Proofs.Statement.Assignment

/-!
# The structure of a statement

What is written between quotes decides nothing about the tokens of a statement: statements that
differ in it alone are cut alike, and each name and each constant comes back as it was.  Names are
taken as they are written; that the server refuses empty names and cuts long ones short is decided
afterwards, by the name alone.
-/

namespace TypedQuery

open Server

namespace Fragment

/-- The statements that builders make of drafted expressions, with registries that keep fragments
whole as the built-in one does. -/
inductive Drafted : Fragment -> Prop where
  | select {α : Type} {s : Select α} (hcalls : s.calls.KeepsWhole)
      (hexprs : forall e, e ∈ s.exprs -> e.Drafted []) {statement : Statement (List α)}
      (h : s.build = .ok statement) : Drafted statement.query
  | count {α : Type} {s : Select α} (hcalls : s.calls.KeepsWhole)
      (hexprs : forall e, e ∈ s.exprs -> e.Drafted []) {statement : Statement Int64}
      (h : s.count = .ok statement) : Drafted statement.query
  | insert {i : Insert}
      (hsources : forall index q, (index, .subquery q) ∈ i.sources ->
        (Expr.subquery q).Drafted [])
      {statement : Statement Inserted} (h : i.build = .ok statement) : Drafted statement.query
  | update {m : Model} {calls : List Update.Call}
      (hcalls : forall call, call ∈ calls -> call.Drafted) {statement : Statement Nat}
      (h : (Update.made m calls).build = .ok statement) : Drafted statement.query
  | delete {d : Delete} (hcalls : d.calls.KeepsWhole)
      (hfilters : forall e, e ∈ d.filters -> e.Drafted []) {statement : Statement Nat}
      (h : d.build = .ok statement) : Drafted statement.query

theorem Drafted.whole {f : Fragment} (h : f.Drafted) : f.Whole := by
  cases h with
  | select hcalls hexprs h =>
      exact Select.whole_build ⟨hcalls, fun e he => (hexprs e he).isWhole_nil⟩ h
  | count hcalls hexprs h =>
      exact Select.whole_count ⟨hcalls, fun e he => (hexprs e he).isWhole_nil⟩ h
  | insert hsources h =>
      refine Insert.whole_build ?_ h
      intro index q hq
      exact (hsources index q hq).isWhole_nil.subquery q List.mem_cons_self
  | update hcalls h => exact Update.whole_build (Update.isWhole_made _ hcalls) h
  | delete hcalls hfilters h =>
      exact Delete.whole_build hcalls (fun e he => (hfilters e he).isWhole_nil) h

/-- A whole fragment has a sketch, and the lexer cuts it. -/
theorem Whole.exists_draws {f : Fragment} (h : f.Whole) :
    (exists all, Sketch.Draws all f) ∧
      forall conforming, exists tokens, tokens? conforming f.renderSimple.toList = some tokens := by
  rcases h with ⟨all, hparts, hwhole⟩
  have hdraws : Sketch.Draws all f := ⟨hparts, (hwhole {}).separate⟩
  refine ⟨⟨all, hdraws⟩, ?_⟩
  intro conforming
  rcases (hwhole {}).cut conforming with ⟨tokens, htokens⟩
  rw [<- hdraws.spell_wordsOf]
  exact ⟨tokens, tokens?_of_lexes htokens⟩

/-- A statement has a sketch that says where its names and constants stand.  A fragment with a
sketch that is alike is cut into tokens of the same kinds, whatever the setting for backslashes,
and the quoted tokens of both are the names and constants of their sketches, in order. -/
theorem Drafted.same_tokens {f : Fragment} (hf : f.Drafted) :
    (exists all, Sketch.Draws all f) ∧
      forall {all all' : List Sketch} {f' : Fragment}, Sketch.Draws all f ->
        Sketch.parts all' = f'.parts -> Sketch.AllAlike all all' -> forall conforming : Bool,
          exists tokens tokens',
            tokens? conforming f.renderSimple.toList = some tokens ∧
              tokens? conforming f'.renderSimple.toList = some tokens' ∧
              List.Forall₂ Token.Alike tokens tokens' ∧
              tokens.filter Token.isQuoted = Word.quotes (Sketch.wordsOf all) ∧
              tokens'.filter Token.isQuoted = Word.quotes (Sketch.wordsOf all') := by
  rcases hf.whole.exists_draws with ⟨hexists, hcut⟩
  refine ⟨hexists, ?_⟩
  intro all all' f' hdraws hparts halike conforming
  rcases hcut conforming with ⟨tokens, htokens⟩
  rcases hdraws.exists_tokens (hdraws.of_alike hparts halike) halike htokens with
    ⟨tokens', htokens', hkinds, hquoted, hquoted'⟩
  exact ⟨tokens, tokens', htokens, htokens', hkinds, hquoted, hquoted'⟩

def bodyTable (name column : String) : Table where
  model := "Note"
  name := name
  schema := some "app"
  columns := [{ field := "body", name := column, type := .text }]

def rewordingSketch (name column body : String) : List Sketch :=
  [.frame (.single .root (bodyTable name column)) true
    [.words [.sql "UPDATE "], .table .root (bodyTable name column), .words [.sql " SET "],
      .nested [.words [.ident column, .sql " = "], .nested [.value ⟨.text body, .text⟩]]]]

def rewording (name column body : String) : Fragment :=
  ⟨Sketch.parts (rewordingSketch name column body)⟩

theorem drafted_rewording (name column body : String) : (rewording name column body).Drafted := by
  have hbuild : (Update.made ⟨"Note", .ok (bodyTable name column), []⟩
      [.set "body" (.constant ⟨.text body, .text⟩)]).build =
        .ok ⟨rewording name column body, fun result => .ok result.affected⟩ := rfl
  refine .update ?_ hbuild
  intro call hcall
  rw [List.mem_singleton.mp hcall]
  exact Expr.drafted_of_isPlain rfl

theorem alike_rewordingSketch {name name' column column' body body' : String}
    (hbody : body.length < inlineTextLimit <-> body'.length < inlineTextLimit) :
    Sketch.AllAlike (rewordingSketch name column body) (rewordingSketch name' column' body') := by
  have hvalue : Typed.Alike ⟨.text body, .text⟩ ⟨.text body', .text⟩ := by
    refine Typed.alike_of_length (.text body body') (.refl .text) ?_
    rintro _ _ ⟨⟩ ⟨⟩
    exact hbody
  have haliases : (AliasMap.single .root (bodyTable name column)).Alike
      (.single .root (bodyTable name' column')) := by
    refine AliasMap.alike_of_forall₂ (.cons ⟨rfl, ?_⟩ .nil)
    simp [Binding.writtenName?]
  have hset : Sketch.Alike (.nested [.words [.ident column, .sql " = "],
      .nested [.value ⟨.text body, .text⟩]])
      (.nested [.words [.ident column', .sql " = "], .nested [.value ⟨.text body', .text⟩]]) :=
    .nested (.cons (.words (.cons (.ident column column') (.cons (.sql " = ") .nil)))
      (.cons (.nested (.cons (.value hvalue) .nil)) .nil))
  have hupdate : Sketch.Alike (.words [.sql "UPDATE "]) (.words [.sql "UPDATE "]) :=
    .words (.cons (.sql _) .nil)
  have hbetween : Sketch.Alike (.words [.sql " SET "]) (.words [.sql " SET "]) :=
    .words (.cons (.sql _) .nil)
  exact .cons (.frame haliases true (.cons hupdate (.cons (.table .root rfl)
    (.cons hbetween (.cons hset .nil))))) .nil

/-- Quotes, a backslash and a comment sign in the names and in the text stay in them. -/
theorem same_tokens_rewording :
    (rewording "note" "body" "hello").Drafted ∧
      exists tokens tokens',
        tokens? false (rewording "note" "body" "hello").renderSimple.toList = some tokens ∧
          tokens? false (rewording "a\"; --" "b'" "it's \\' OR 1=1 --").renderSimple.toList =
            some tokens' ∧
          List.Forall₂ Token.Alike tokens tokens' ∧
          tokens.filter Token.isQuoted =
            [.quoted "app", .quoted "note", .quoted "body", .string "hello"] ∧
          tokens'.filter Token.isQuoted =
            [.quoted "app", .quoted "a\"; --", .quoted "b'", .string "it's \\' OR 1=1 --"] := by
  have hdrafted := drafted_rewording "note" "body" "hello"
  have hdraws : Sketch.Draws (rewordingSketch "note" "body" "hello")
      (rewording "note" "body" "hello") := ⟨rfl, by decide⟩
  have halike : Sketch.AllAlike (rewordingSketch "note" "body" "hello")
      (rewordingSketch "a\"; --" "b'" "it's \\' OR 1=1 --") :=
    alike_rewordingSketch (by decide)
  exact ⟨hdrafted, (Drafted.same_tokens hdrafted).2 hdraws rfl halike false⟩

end Fragment
end TypedQuery
