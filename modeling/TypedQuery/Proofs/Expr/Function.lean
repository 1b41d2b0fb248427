import TypedQuery.Proofs.Expr.Method

/-!
# Calls of functions mean what they should

The grammar takes every function of the catalog with the numbers of arguments that the catalog
accepts.  The texts of arguments that are left out read as expressions of their own.
-/

namespace TypedQuery

open Server

namespace SqlFunction

def defaultTexts : List String := ["' '", "now()", "1"]

/-- What the grammar asks of a function of the catalog. -/
def isCallable (f : SqlFunction) : Bool :=
  isPlainAlias f.name && !reservedWords.contains f.name &&
    (if f.name == "nullif" then f.required == 2 && f.defaults.isEmpty && !f.variadic
      else if ["coalesce", "greatest", "least", "trim"].contains f.name then 0 < f.required
      else !columnWords.contains f.name) &&
    f.defaults.all defaultTexts.contains && (f.defaults.isEmpty || 0 < f.required)

theorem catalog_isCallable : forall f, f ∈ catalog -> f.isCallable = true := by
  decide +kernel

theorem mem_of_lookup? {name : String} {f : SqlFunction} (h : lookup? name = some f) :
    f ∈ catalog :=
  List.mem_of_find?_eq_some h

variable {f : SqlFunction}

theorem isCallable_of_lookup? {name : String} (h : lookup? name = some f) :
    f.isCallable = true :=
  catalog_isCallable f (mem_of_lookup? h)

theorem takes_of_accepts (h : f.isCallable = true) {count : Nat}
    (haccepts : f.accepts count = true) : takes f.name count = true := by
  simp only [isCallable, Bool.and_eq_true] at h
  rcases h with ⟨⟨⟨-, hname⟩, -⟩, -⟩
  simp only [accepts, Bool.and_eq_true, Bool.or_eq_true, decide_eq_true_eq] at haccepts
  rcases haccepts with ⟨hleast, hmost⟩
  unfold takes
  split at hname
  · rename_i hnullif
    simp only [Bool.and_eq_true, beq_iff_eq, List.isEmpty_iff, Bool.not_eq_true'] at hname
    rcases hname with ⟨⟨hrequired, hdefaults⟩, hvariadic⟩
    rw [if_pos hnullif]
    rw [hvariadic, hrequired, hdefaults, List.length_nil] at hmost
    simp only [Bool.false_eq_true, false_or] at hmost
    rw [beq_iff_eq]
    omega
  · rename_i hnullif
    rw [if_neg hnullif]
    split at hname
    · rename_i hsome
      rw [if_pos hsome]
      simp only [decide_eq_true_eq] at hname ⊢
      omega
    · rename_i hsome
      rw [if_neg hsome]
      exact hname

theorem isCall_of_accepts (h : f.isCallable = true) {count : Nat}
    (haccepts : f.accepts count = true) : isCall f.name count = true := by
  have htakes := takes_of_accepts h haccepts
  simp only [isCallable, Bool.and_eq_true] at h
  rcases h with ⟨⟨⟨⟨hplain, hname⟩, -⟩, -⟩, -⟩
  rw [isCall, hplain, hname, htakes]
  rfl

/-- A call is still accepted after the arguments that were left out are written. -/
theorem accepts_filled {count : Nat} (h : f.accepts count = true) :
    f.accepts (count + (f.missingDefaults count).length) = true := by
  simp only [accepts, Bool.and_eq_true, Bool.or_eq_true, decide_eq_true_eq, missingDefaults,
    List.length_drop] at h ⊢
  rcases h with ⟨hleast, hvariadic | hmost⟩
  · exact ⟨by omega, Or.inl hvariadic⟩
  · exact ⟨by omega, Or.inr (by omega)⟩

theorem mem_defaultTexts (h : f.isCallable = true) {count : Nat} {text : String}
    (htext : text ∈ f.missingDefaults count) : text ∈ defaultTexts := by
  simp only [isCallable, Bool.and_eq_true] at h
  have hall := List.all_eq_true.mp h.1.2 text (List.mem_of_mem_drop htext)
  simpa using hall

theorem missingDefaults_zero (h : f.isCallable = true) (haccepts : f.accepts 0 = true) :
    f.missingDefaults 0 = [] := by
  simp only [isCallable, Bool.and_eq_true, Bool.or_eq_true, decide_eq_true_eq,
    List.isEmpty_iff] at h
  simp only [accepts, Bool.and_eq_true, decide_eq_true_eq] at haccepts
  rcases h.2 with hdefaults | hrequired
  · simp [missingDefaults, hdefaults]
  · omega

end SqlFunction

/-!
## Arguments that are left out
-/

variable {conforming : Bool} {env : Nat -> Option Tree}

theorem defaultTree_blank : defaultTree "' '" = .string " " := rfl

theorem defaultTree_now : defaultTree "now()" = .call "now" [] := rfl

theorem defaultTree_one : defaultTree "1" = .number 1 := rfl

theorem wholeText_defaultTree {text : String} (h : text ∈ SqlFunction.defaultTexts) :
    WholeText conforming env text.toList (defaultTree text) := by
  simp only [SqlFunction.defaultTexts, List.mem_cons, List.not_mem_nil, or_false] at h
  rcases h with rfl | rfl | rfl
  · have hblank : AtomText conforming env "' '".toList (.string " ") :=
      Reader.atomText_literal rfl
    rw [defaultTree_blank]
    exact hblank.whole
  · have hnow : AtomText conforming env ("now".toList ++ ['(', ')']) (.call "now" []) :=
      atomText_call_nil rfl
    rw [defaultTree_now]
    exact hnow.whole
  · have hone : OperandText conforming env (Value.int 1).literal.toList (.number 1) :=
      (Value.int 1).literal_text.1
    rw [defaultTree_one]
    exact hone.whole

theorem agrees_defaultTree {text : String} (h : text ∈ SqlFunction.defaultTexts) :
    (defaultTree text).Agrees (defaultTree text) := by
  simp only [SqlFunction.defaultTexts, List.mem_cons, List.not_mem_nil, or_false] at h
  rcases h with rfl | rfl | rfl
  · rw [defaultTree_blank]
    exact Tree.Agrees.refl rfl
  · rw [defaultTree_now]
    exact Tree.Agrees.refl rfl
  · rw [defaultTree_one]
    exact Tree.Agrees.refl rfl

theorem wholeText_defaults {texts : List String}
    (h : forall text, text ∈ texts -> text ∈ SqlFunction.defaultTexts) :
    List.Forall₂ (WholeText conforming env) (texts.map String.toList)
      (texts.map defaultTree) := by
  induction texts with
  | nil => exact .nil
  | cons text rest ih =>
      have hrest := ih fun t ht => h t (List.mem_cons_of_mem _ ht)
      exact .cons (wholeText_defaultTree (h text List.mem_cons_self)) hrest

theorem agrees_defaults {texts : List String}
    (h : forall text, text ∈ texts -> text ∈ SqlFunction.defaultTexts) :
    List.Forall₂ Tree.Agrees (texts.map defaultTree) (texts.map defaultTree) := by
  induction texts with
  | nil => exact .nil
  | cons text rest ih =>
      have hrest := ih fun t ht => h t (List.mem_cons_of_mem _ ht)
      exact .cons (agrees_defaultTree (h text List.mem_cons_self)) hrest

theorem toList_defaults (texts : List String) :
    ((if texts.isEmpty then "" else ", ") ++ ", ".intercalate texts).toList =
      commaTail (texts.map String.toList) := by
  cases texts with
  | nil => rfl
  | cons text rest =>
      induction rest generalizing text with
      | nil => simp [commaTail]
      | cons next more ih =>
          have hrest := ih next
          simp only [List.isEmpty_cons, Bool.false_eq_true, if_false, String.toList_append]
            at hrest ⊢
          rw [String.intercalate_cons_cons, String.toList_append, String.toList_append,
            List.append_assoc, hrest]
          simp [commaTail]

/-!
## Calls
-/

namespace Reader

variable {r : Reader}

theorem means_callNil {name before after : String} (hbefore : before.toList = name.toList ++ ['('])
    (hafter : after.toList = [')']) (hcall : isCall name 0 = true) :
    r.Means ((Fragment.empty.text before).text after) (.call name []) := by
  have hagrees : (Tree.call name []).Agrees (.call name []) := Tree.Agrees.refl rfl
  refine ⟨⟨.call name [], []⟩, ?_, Spine.presents_operand hagrees rfl⟩
  intro written hwritten
  rcases hwritten.of_text with ⟨_, rfl, hopening⟩
  rcases hopening.of_text with ⟨_, rfl, hempty⟩
  have hatom : AtomText r.conforming r.env (name.toList ++ ['(', ')']) (.call name []) :=
    atomText_call_nil hcall
  rw [hempty.eq_of_empty, hbefore, hafter]
  simpa using hatom.spine

theorem means_functionCall {f : SqlFunction} (hcallable : f.isCallable = true)
    {args : List TypedFragment} {ts : List Tree}
    (hargs : List.Forall₂ r.Means (args.map (·.query)) ts) {g : TypedFragment}
    (h : Compiler.functionCall f args = .ok g) :
    r.Means g.query
      (.call f.name (ts ++ (f.missingDefaults ts.length).map defaultTree)) := by
  have hlength : args.length = ts.length := by
    rw [<- hargs.length_eq, List.length_map]
  have hbefore : (f.name ++ "(").toList = f.name.toList ++ ['('] := String.toList_append
  unfold Compiler.functionCall at h
  dsimp only at h
  rw [hlength] at h
  split at h
  · rename_i haccepts
    cases h
    cases args with
    | nil =>
        -- A function that takes no arguments has none to leave out either.
        cases hargs
        have hnone := f.missingDefaults_zero hcallable haccepts
        rw [List.length_nil, hnone]
        exact means_callNil hbefore rfl (f.isCall_of_accepts hcallable haccepts)
    | cons first rest =>
        cases hargs with
        | @cons _ t _ ts hfirst hrest =>
            have hmem : forall text, text ∈ f.missingDefaults (t :: ts).length ->
                text ∈ SqlFunction.defaultTexts :=
              fun text => f.mem_defaultTexts hcallable
            have hcall := f.isCall_of_accepts hcallable (f.accepts_filled haccepts)
            refine hfirst.joined hrest hbefore ?_ (wholeText_defaults hmem) (agrees_defaults hmem)
              ?_
            · have htail := toList_defaults (f.missingDefaults (t :: ts).length)
              rw [String.toList_append, <- htail]
              rfl
            · simpa [Nat.add_assoc, Nat.add_comm 1] using hcall
  · cases h

theorem AllAnswer.compiled {args : List Argument} {ms : List Meant} (h : r.AllAnswer args ms)
    {fs : List TypedFragment} (hfs : args.mapM (·.compiled) = .ok fs) :
    List.Forall₂ r.Means (fs.map (·.query)) (ms.map (·.tree)) := by
  induction h generalizing fs with
  | nil =>
      cases hfs
      exact .nil
  | cons hfirst _ ih =>
      rw [List.mapM_cons] at hfs
      rcases Result.bind_eq_ok.mp hfs with ⟨f, hf, hfs⟩
      rcases Result.bind_eq_ok.mp hfs with ⟨rest, hrest, hfs⟩
      cases hfs
      exact .cons (hfirst.means f hf).2 (ih hrest)

theorem means_sqlFunction {name : String} {receiver : Option TypedFragment} {ts : List Tree}
    (hreceiver : List.Forall₂ r.Means (receiver.toList.map (·.query)) ts)
    {args : List Argument} {ms : List Meant} (hargs : r.AllAnswer args ms) {g : TypedFragment}
    (h : Compiler.sqlFunction name receiver args = .ok g) :
    r.Means g.query (functionTree name (ts ++ ms.map (·.tree))) := by
  unfold Compiler.sqlFunction at h
  unfold functionTree
  split at h
  · cases h
  · rename_i f hlookup
    rcases Result.bind_eq_ok.mp h with ⟨fs, hfs, hcall⟩
    have hall : List.Forall₂ r.Means ((receiver.toList ++ fs).map (·.query))
        (ts ++ ms.map (·.tree)) := by
      rw [List.map_append]
      exact List.rel_append hreceiver (hargs.compiled hfs)
    rw [hlookup]
    exact means_functionCall (SqlFunction.isCallable_of_lookup? hlookup) hall hcall

end Reader

end TypedQuery
