import TypedQuery.Expr.Compile
import TypedQuery.Proofs.Fragment.Anchor
import TypedQuery.Proofs.Host.RoundTrip
import TypedQuery.Proofs.Wire.Outgoing

/-!
# Host values as parameters

What is written for a host value fits the type that goes with it, element by element.  So a
constant that may be a parameter at all has its bytes, and a statement that is sent prepared never
fails on one.
-/

namespace TypedQuery

/-!
## Values of a fragment
-/

theorem Part.allValues_append (parts others : List Part) :
    allValues (parts ++ others) = allValues parts ++ allValues others := by
  induction parts with
  | nil => rfl
  | cons part rest ih => rw [List.cons_append, allValues, ih, allValues, List.append_assoc]

namespace Fragment

/-- All values of a fragment, those that are written inline too. -/
def allValues (f : Fragment) : List Typed := Part.allValues f.parts

theorem allValues_push (f : Fragment) (part : Part) :
    (f.push part).allValues = f.allValues ++ part.values := by
  rcases pushPart_cases part f.parts with hpush | ⟨before, s, t, hparts, rfl, hpush⟩
  · rw [allValues, push, hpush, Part.allValues_append]
    simp [allValues, Part.allValues]
  · rw [allValues, push, hpush, allValues, hparts, Part.allValues_append, Part.allValues_append]
    simp [Part.allValues, Part.values]

@[simp] theorem allValues_empty : Fragment.empty.allValues = [] := rfl

@[simp] theorem allValues_text (f : Fragment) (s : String) : (f.text s).allValues = f.allValues :=
  (f.allValues_push (.text s)).trans (List.append_nil _)

@[simp] theorem allValues_value (f : Fragment) (v : Typed) :
    (f.value v).allValues = f.allValues ++ [v] :=
  f.allValues_push (.value v)

@[simp] theorem allValues_nested (f inner : Fragment) :
    (f.nested inner).allValues = f.allValues ++ inner.allValues :=
  f.allValues_push (.nested inner.parts)

end Fragment

namespace Wire

/-!
## Elements
-/

def Fits (type : SqlType) (v : Value) : Prop :=
  exists element, elementOid? type = some element ∧
    exists bytes, elementBytes element v = .ok bytes

theorem exists_elementOid {type : SqlType} (h : type.isArray = false) :
    exists element, elementOid? type = some element := by
  cases type with
  | array item => cases h
  | _ => exact ⟨_, rfl⟩

theorem fits_null {type : SqlType} (h : type.isArray = false) : Fits type .null := by
  rcases exists_elementOid h with ⟨element, helement⟩
  exact ⟨element, helement, none, rfl⟩

theorem fits_base {r : EnumRegistry} {b : HostBase} {v : b.Carrier} {w : Value} {type : SqlType}
    (hw : b.write r v = .ok w) (htype : b.sqlType r = .ok type) : Fits type w := by
  cases b with
  | nat64 =>
      change (if v.toNat < Number.twoPow 63 then _ else _) = _ at hw
      split at hw
      · cases hw
        cases htype
        exact ⟨_, rfl, _, rfl⟩
      · cases hw
  | shape s =>
      rcases Result.bind_eq_ok.mp hw with ⟨document, -, hdocument⟩
      cases hdocument
      cases htype
      exact ⟨_, rfl, _, rfl⟩
  | enum e =>
      rcases Result.bind_eq_ok.mp hw with ⟨registered, -, hlabel⟩
      cases hlabel
      change r.sqlType e = .ok type at htype
      unfold EnumRegistry.sqlType at htype
      split at htype
      · cases htype
        exact ⟨_, rfl, _, rfl⟩
      · cases htype
  | _ =>
      cases hw
      cases htype
      exact ⟨_, rfl, _, rfl⟩

theorem fits_host {r : EnumRegistry} {t : HostType} {v : t.Carrier} {w : Value} {type : SqlType}
    (hw : t.write r v = .ok w) (htype : t.sqlType r = .ok type) (harray : type.isArray = false) :
    Fits type w := by
  induction t generalizing w with
  | base b => exact fits_base hw htype
  | option t ih =>
      cases v with
      | none =>
          cases hw
          exact fits_null harray
      | some v => exact ih hw htype
  | list t ih =>
      rcases Result.bind_eq_ok.mp htype with ⟨item, -, hitem⟩
      cases hitem
      cases harray

/-!
## Parameters
-/

theorem exists_bind_of_single {v : Typed} (h : forall items, v.value ≠ .array items) :
    exists b, bind v = .ok b := by
  rcases v with ⟨value, type⟩
  cases value with
  | array items => exact absurd rfl (h items)
  | _ => exact ⟨_, rfl⟩

theorem exists_bind_of_fits {type item : SqlType} {items : List Value}
    (htype : type.item? = some item) (harray : item.isArray = false)
    (h : forall v, v ∈ items -> Fits item v) : exists b, bind ⟨.array items, type⟩ = .ok b := by
  rcases exists_elementOid harray with ⟨element, helement⟩
  have hitems : forall v, v ∈ items -> exists bytes, elementBytes element v = .ok bytes := by
    intro v hv
    rcases h v hv with ⟨own, hown, hbytes⟩
    rw [helement] at hown
    cases hown
    exact hbytes
  rcases Result.exists_mapM_iff.mpr hitems with ⟨elements, helements⟩
  refine ⟨⟨(Oid.arrayOf? element).getD 0, some (arrayBytes element elements)⟩, ?_⟩
  simp only [bind, bindArray, htype, Option.getD_some, helement, helements, Result.ok_bind]
  rfl

theorem Fits.ne_array {type : SqlType} {v : Value} (h : Fits type v) (items : List Value) :
    v ≠ .array items := by
  rintro rfl
  rcases h with ⟨element, -, bytes, hbytes⟩
  cases hbytes

theorem exists_bind_of_write {r : EnumRegistry} {t : HostType} {v : t.Carrier} {w : Value}
    {type : SqlType} (hw : t.write r v = .ok w) (htype : t.sqlType r = .ok type)
    (hbindable : isBindable ⟨w, type⟩ = true) : exists b, bind ⟨w, type⟩ = .ok b := by
  induction t generalizing w with
  | base b => exact exists_bind_of_single (fits_base hw htype).ne_array
  | option t ih =>
      cases v with
      | none =>
          cases hw
          exact exists_bind_of_single fun _ => Value.noConfusion
      | some v => exact ih hw htype hbindable
  | list t ih =>
      rcases Result.bind_eq_ok.mp hw with ⟨items, hitems, harray⟩
      rcases Result.bind_eq_ok.mp htype with ⟨item, hitem, hlist⟩
      cases harray
      cases hlist
      have hsingle : item.isArray = false := by
        simpa [isBindable, SqlType.item?] using hbindable
      refine exists_bind_of_fits rfl hsingle ?_
      intro written hmem
      rcases Result.exists_origin_of_mapM hitems hmem with ⟨host, -, hwritten⟩
      exact fits_host hwritten hitem hsingle

/-!
## Lists that an enum is looked for in
-/

theorem retyped_cases (receiver : SqlType) (v : Typed) :
    Compiler.retyped receiver v = v ∨
      exists e, receiver = .enum e ∧ v.type.item? = some .text ∧
        Compiler.retyped receiver v = { v with type := .array receiver } := by
  unfold Compiler.retyped
  split
  · rename_i h
    rcases Bool.and_eq_true_iff.mp h with ⟨henum, htext⟩
    cases receiver with
    | enum e => exact Or.inr ⟨e, rfl, of_decide_eq_true htext, rfl⟩
    | _ => cases henum
  · exact Or.inl rfl

/-- Labels travel as the texts they were. -/
theorem bind_retyped (receiver : SqlType) (v : Typed) :
    bind (Compiler.retyped receiver v) = bind v := by
  rcases retyped_cases receiver v with hsame | ⟨e, rfl, htext, hretyped⟩
  · rw [hsame]
  · rw [hretyped]
    rcases v with ⟨value, type⟩
    cases value with
    | array items =>
        simp only at htext
        simp only [bind, bindArray, htext]
        rfl
    | _ => rfl

theorem isBindable_retyped (receiver : SqlType) (v : Typed) :
    isBindable (Compiler.retyped receiver v) = isBindable v := by
  rcases retyped_cases receiver v with hsame | ⟨e, rfl, htext, hretyped⟩
  · rw [hsame]
  · rw [hretyped, isBindable, isBindable, htext]
    rfl

theorem allValues_membership {receiver test : TypedFragment} {values : Argument} {c : Typed}
    {negated : Bool} (hvalues : values.expr = .constant c)
    (h : Compiler.membership receiver values negated = .ok test) :
    test.query.allValues = receiver.query.allValues ++ [Compiler.retyped receiver.type c] := by
  unfold Compiler.membership at h
  rw [hvalues] at h
  split at h
  · rename_i items type heq
    cases heq
    have hmember : forall v, (((((Fragment.empty.text "(").nested receiver.query).text
        (if negated then ") <> ALL(" else ") = ANY(")).value v).text ")").allValues =
          receiver.query.allValues ++ [v] := by
      intro v
      simp
    dsimp only at h
    split at h
    · split at h
      · cases h
        exact hmember _
      · cases h
    · cases h
      exact hmember _
  · rename_i heq
    cases heq
  · cases h

/-!
## Statements
-/

/-- What statements hold as values: constants of the host program, these as a membership test has
retyped them, and values of the builders' own that are no arrays. -/
inductive Hosted (r : EnumRegistry) : Typed -> Prop where
  | converted {host : HostValue} {c : Typed} (h : Typed.ofHost r host = .ok c) : Hosted r c
  | retyped {c : Typed} (h : Hosted r c) (receiver : SqlType) :
      Hosted r (Compiler.retyped receiver c)
  | single {v : Typed} (h : forall items, v.value ≠ .array items) : Hosted r v

theorem exists_bind_of_hosted {r : EnumRegistry} {v : Typed} (h : Hosted r v)
    (hbindable : isBindable v = true) : exists b, bind v = .ok b := by
  induction h with
  | converted h =>
      rcases Result.bind_eq_ok.mp h with ⟨value, hvalue, htyped⟩
      rcases Result.bind_eq_ok.mp htyped with ⟨type, htype, hc⟩
      cases hc
      exact exists_bind_of_write hvalue htype hbindable
  | retyped _ receiver ih =>
      rw [isBindable_retyped] at hbindable
      rw [bind_retyped]
      exact ih hbindable
  | single h => exact exists_bind_of_single h

theorem values_of_prepared {f : Fragment} {sent : Rendered}
    (h : Outgoing.ofCommand (.single f) = .prepared sent) :
    sent.params.values = f.boundValues ∧ forall v, v ∈ f.boundValues -> isBindable v = true := by
  have hrender : (Command.single f).render (.bound .dollar) = f.renderWith (.bound .dollar) := rfl
  unfold Outgoing.ofCommand at h
  rw [hrender, Fragment.renderWith_bound] at h
  dsimp only at h
  split at h
  · rename_i hprepared
    cases h
    exact ⟨rfl, List.all_eq_true.mp hprepared.2.2⟩
  · cases h

/-- Every constant of the host program that may be a parameter is bound, also where a membership
test has retyped it; so a statement with such values never fails for having been sent alone. -/
theorem bindable_host_constants_bind (r : EnumRegistry) :
    (forall host c, Typed.ofHost r host = .ok c -> isBindable c = true ->
      exists b, bind c = .ok b) ∧
    (forall (host : HostValue) c receiver (values : Argument) negated test,
      Typed.ofHost r host = .ok c -> values.expr = .constant c ->
      Compiler.membership receiver values negated = .ok test ->
      test.query.allValues = receiver.query.allValues ++ [Compiler.retyped receiver.type c] ∧
        (isBindable (Compiler.retyped receiver.type c) = true ->
          exists b, bind (Compiler.retyped receiver.type c) = .ok b)) ∧
    (forall f : Fragment, (forall v, v ∈ f.boundValues -> Hosted r v) ->
      match Outgoing.ofCommand (.single f) with
      | .prepared sent => exists bounds, sent.params.values.mapM bind = .ok bounds
      | .simple sql => sql = f.renderSimple) := by
  refine ⟨?_, ?_, ?_⟩
  · intro host c hc hbindable
    exact exists_bind_of_hosted (.converted hc) hbindable
  · intro host c receiver values negated test hc hvalues htest
    refine ⟨allValues_membership hvalues htest, fun hbindable => ?_⟩
    exact exists_bind_of_hosted (.retyped (.converted hc) receiver.type) hbindable
  · intro f hhosted
    cases ofCommand_single f with
    | inr hsimple => rw [hsimple]
    | inl hprepared =>
        rcases values_of_prepared hprepared with ⟨hvalues, hbindable⟩
        rw [hprepared]
        dsimp only
        rw [hvalues]
        refine Result.exists_mapM_iff.mpr ?_
        intro v hv
        exact exists_bind_of_hosted (hhosted v hv) (hbindable v hv)

def calmOrNone : Typed := ⟨.array [.text "calm", .null], .array .text⟩

theorem calmOrNone_binds_as_moods :
    exists b, bind (Compiler.retyped (.enum HostType.mood) calmOrNone) = .ok b := by
  have hmember := (bindable_host_constants_bind {}).2.1
    ⟨.list (.option (.base .text)), ([some "calm", none] : List (Option String))⟩ calmOrNone
    ⟨Fragment.empty.column .root "mood", .enum HostType.mood⟩
    ⟨.constant calmOrNone, .ok (.ofValue calmOrNone)⟩ false
  exact (hmember _ rfl rfl rfl).2 rfl

end Wire
end TypedQuery
