import Mathlib.Data.List.Forall2
import TypedQuery.Host.Conversion
import TypedQuery.Proofs.Result

/-!
# Host values that come back

Reading undoes writing.  Options and lists carry this over from the type they are made of; an
option can only do so because what it may hold is never written as NULL, which is why an option
must not hold an option.
-/

namespace TypedQuery

/-!
## Members of a document
-/

/-- Entries that are put one after the other are all found again if no key comes twice. -/
theorem get_foldl_put {σ α β : Type} [DecidableEq α] {put : σ -> α × β -> σ}
    (get : σ -> α -> Option β)
    (hput : forall s entry key, get (put s entry) key =
      if key = entry.1 then some entry.2 else get s key)
    {entries : List (α × β)} {key : α} {value : β} (hnodup : (entries.map (·.1)).Nodup)
    (hmem : (key, value) ∈ entries) (start : σ) :
    get (entries.foldl put start) key = some value := by
  suffices hfold : forall s : σ,
      (key, value) ∈ entries ∨ (key ∉ entries.map (·.1) ∧ get s key = some value) ->
        get (entries.foldl put s) key = some value from hfold start (Or.inl hmem)
  clear hmem
  induction entries with
  | nil =>
      rintro s (hmem | ⟨-, hs⟩)
      · cases hmem
      · exact hs
  | cons entry rest ih =>
      rw [List.map_cons, List.nodup_cons] at hnodup
      intro s h
      rw [List.foldl_cons]
      apply ih hnodup.2
      rcases h with hmem | ⟨hfresh, hs⟩
      · rcases List.mem_cons.mp hmem with rfl | hmem
        · right
          rw [hput, if_pos rfl]
          exact ⟨hnodup.1, rfl⟩
        · exact Or.inl hmem
      · right
        rw [List.map_cons, List.mem_cons, not_or] at hfresh
        rw [hput, if_neg hfresh.1]
        exact ⟨hfresh.2, hs⟩

namespace Json

theorem member?_cons (key other : String) (value : Json) (members : List (String × Json)) :
    (object ((key, value) :: members)).member? other =
      if other = key then some value else (object members).member? other := by
  by_cases hother : other = key
  · simp [member?, hother]
  · simp [member?, hother, Ne.symm hother]

theorem member?_setMember (key other : String) (value : Json) (members : List (String × Json)) :
    (object (setMember key value members)).member? other =
      if other = key then some value else (object members).member? other := by
  induction members with
  | nil => exact member?_cons key other value []
  | cons entry rest ih =>
      rcases entry with ⟨k, v⟩
      unfold setMember
      split
      · rename_i hkey
        subst hkey
        rw [member?_cons, member?_cons]
        split <;> rfl
      · rename_i hkey
        split
        · exact member?_cons key other value _
        · rw [member?_cons, member?_cons, ih]
          by_cases hother : other = k
          · have hne : other ≠ key := fun heq => hkey (heq.symm.trans hother)
            rw [if_pos hother, if_neg hne, if_pos hother]
          · rw [if_neg hother, if_neg hother]

theorem member?_ofMembers {members : List (String × Json)} {key : String} {value : Json}
    (hnodup : (members.map (·.1)).Nodup) (hmem : (key, value) ∈ members) :
    (ofMembers members).member? key = some value :=
  get_foldl_put (fun sorted key => (object sorted).member? key)
    (fun sorted entry key => member?_setMember entry.1 key entry.2 sorted) hnodup hmem []

end Json

/-!
## Shapes
-/

namespace Shape

def Inverts (s : Shape) (v : s.Carrier) : Prop :=
  forall document, s.write v = .ok document -> s.read? document = some v

/-- The texts of a record with these fields: one for each field, and only an optional field may
be without one. -/
def Fits (fields : List ShapeField) (texts : List (Option String)) : Prop :=
  List.Forall₂ (fun field text => text = none -> field.optional = true) fields texts

def textMember (entry : ShapeField × Option String) : String × Json :=
  (entry.1.name, match entry.2 with | some text => .string text | none => .null)

theorem readFields_eq_some {document : Json} {fields : List ShapeField}
    {texts : List (Option String)} (hfits : Fits fields texts)
    (hmembers : forall entry, entry ∈ fields.zip texts ->
      document.member? entry.1.name = some (textMember entry).2) :
    readFields document fields = some texts := by
  induction hfits with
  | nil => rfl
  | @cons field text fields texts hfield _ ih =>
      have hfirst : document.member? field.name = some (textMember (field, text)).2 :=
        hmembers (field, text) List.mem_cons_self
      have hrest : readFields document fields = some texts :=
        ih fun entry hentry => hmembers entry (List.mem_cons_of_mem _ hentry)
      have hread : readField field (textMember (field, text)).2 = some text := by
        cases text with
        | some text => rfl
        | none =>
            have hoptional := hfield rfl
            simp [textMember, readField, hoptional]
      unfold readFields at hrest ⊢
      rw [List.mapM_cons, hfirst, hrest]
      simp [hread]

/-- A record whose fields have different names is read as it was written. -/
theorem inverts_of_fits {name : String} {fields : List ShapeField} {texts : List (Option String)}
    (hnodup : (fields.map (·.name)).Nodup) (hfits : Fits fields texts) :
    Inverts ⟨name, .record fields⟩ texts := by
  intro document hwrite
  cases hwrite
  have hkeys : ((fields.zip texts).map textMember).map (·.1) = fields.map (·.name) := by
    have hlength : fields.length ≤ texts.length := Nat.le_of_eq hfits.length_eq
    have hname : Prod.fst ∘ textMember = ShapeField.name ∘ Prod.fst := rfl
    rw [List.map_map, hname, <- List.map_map, List.map_fst_zip hlength]
  apply readFields_eq_some hfits
  intro entry hentry
  exact Json.member?_ofMembers (hkeys ▸ hnodup) (List.mem_map_of_mem hentry)

end Shape

/-!
## Base types
-/

namespace HostBase

theorem bounded_eq_ok {α : Type} {low high n : Int} (hlow : low ≤ n) (hhigh : n ≤ high)
    (make : Int -> α) : bounded low high n make = .ok (make n) := by
  unfold bounded
  rw [if_neg (Int.not_lt.mpr hlow), if_neg (Int.not_lt.mpr hhigh)]

theorem read_int16 (n : Int16) : read int16 (.int n.toInt32) = .ok n := by
  have h : bounded (-32768) 32767 n.toInt Int16.ofInt = .ok (Int16.ofInt n.toInt) :=
    bounded_eq_ok n.le_toInt n.toInt_le Int16.ofInt
  rw [Int16.ofInt_toInt, <- Int16.toInt_toInt32] at h
  exact h

theorem read_nat64 {n : UInt64} (h : n.toNat < Number.twoPow 63) :
    read nat64 (.bigint (Int64.ofNat n.toNat)) = .ok n := by
  have hpow : Number.twoPow 63 = 2 ^ 63 := rfl
  have hint : (Int64.ofNat n.toNat).toInt = n.toNat := by
    rw [hpow] at h
    exact Int64.toInt_ofNat_of_lt h
  have hbounded : bounded 0 (Number.twoPow 63 - 1) n.toNat (fun n => UInt64.ofNat n.toNat)
      = .ok (UInt64.ofNat (n.toNat : Int).toNat) :=
    bounded_eq_ok (by omega) (by omega) fun n => UInt64.ofNat n.toNat
  rw [Int.toNat_natCast, UInt64.ofNat_toNat, <- hint] at hbounded
  exact hbounded

/-- What the type assumes of its shape: that the value is read as it was written. -/
def ShapeInverts : (b : HostBase) -> b.Carrier -> Prop
  | shape s, v => s.Inverts v
  | _, _ => True

theorem readLabel_val {e : EnumType} (v : { l : String // l ∈ e.labels }) :
    readLabel e v.val = .ok v := by
  unfold readLabel
  rw [dif_pos v.property]

theorem read_of_write {r : EnumRegistry} {b : HostBase} {v : b.Carrier} {w : Value}
    (hshape : b.ShapeInverts v) (h : b.write r v = .ok w) : b.read w = .ok v := by
  cases b with
  | int16 =>
      cases h
      exact read_int16 v
  | nat64 =>
      change (if v.toNat < Number.twoPow 63 then _ else _) = _ at h
      split at h
      · rename_i hsmall
        cases h
        exact read_nat64 hsmall
      · cases h
  | shape s =>
      rcases Result.bind_eq_ok.mp h with ⟨document, hdocument, hw⟩
      cases hw
      change readShape s (some document) = .ok v
      unfold readShape
      rw [Option.bind_some, hshape document hdocument]
  | enum e =>
      rcases Result.bind_eq_ok.mp h with ⟨_, -, hw⟩
      cases hw
      exact readLabel_val v
  | _ =>
      cases h
      rfl

theorem write_ne_null {r : EnumRegistry} {b : HostBase} {v : b.Carrier} :
    b.write r v ≠ .ok .null := by
  intro h
  cases b with
  | nat64 =>
      change (if v.toNat < Number.twoPow 63 then _ else _) = _ at h
      split at h <;> cases h
  | shape s =>
      rcases Result.bind_eq_ok.mp h with ⟨document, -, hw⟩
      cases hw
  | enum e =>
      rcases Result.bind_eq_ok.mp h with ⟨_, -, hw⟩
      cases hw
  | _ => cases h

end HostBase

/-!
## Options and lists
-/

namespace HostType

def hasNestedOption : HostType -> Bool
  | base _ => false
  | option (option _) => true
  | option t => t.hasNestedOption
  | list t => t.hasNestedOption

def enum? : HostType -> Option EnumType
  | base (.enum e) => some e
  | base _ => none
  | option t => t.enum?
  | list t => t.enum?

/-- Every value of a shape inside is read as it was written. -/
def ShapesInvert : (t : HostType) -> t.Carrier -> Prop
  | base b, v => b.ShapeInverts v
  | option _, none => True
  | option t, some v => t.ShapesInvert v
  | list t, (vs : List t.Carrier) => forall v, v ∈ vs -> t.ShapesInvert v

theorem read_option {t : HostType} {w : Value} (hw : w ≠ .null) :
    (option t).read w = (do return some (<- t.read w)) := by
  cases w with
  | null => exact absurd rfl hw
  | _ => rfl

theorem write_ne_null {r : EnumRegistry} {t : HostType} {v : t.Carrier}
    (hoption : forall inner, t ≠ option inner) : t.write r v ≠ .ok .null := by
  cases t with
  | base b => exact HostBase.write_ne_null
  | option inner => exact absurd rfl (hoption inner)
  | list t =>
      intro h
      rcases Result.bind_eq_ok.mp h with ⟨items, -, hitems⟩
      cases hitems

theorem read_of_write {r : EnumRegistry} {t : HostType} {v : t.Carrier} {w : Value}
    (hnested : t.hasNestedOption = false) (hshapes : t.ShapesInvert v)
    (h : t.write r v = .ok w) : t.read w = .ok v := by
  induction t generalizing w with
  | base b => exact HostBase.read_of_write hshapes h
  | option t ih =>
      cases v with
      | none =>
          cases h
          rfl
      | some v =>
          have hoption : forall inner, t ≠ option inner := by
            rintro inner rfl
            cases hnested
          have hinner : t.hasNestedOption = false := by
            cases t with
            | option inner => exact absurd rfl (hoption inner)
            | _ => exact hnested
          have hvalue : t.read w = .ok v := ih hinner hshapes h
          have hne : w ≠ .null := by
            rintro rfl
            exact write_ne_null hoption h
          rw [read_option hne, hvalue]
          rfl
  | list t ih =>
      rcases Result.bind_eq_ok.mp h with ⟨items, hitems, hw⟩
      cases hw
      apply Result.mapM_of_inverse hitems
      intro v hv w hw
      exact ih hnested (hshapes v hv) hw

/-!
## Reading with the type
-/

/-- The value type of a host type is an enum only if the host type is one, possibly behind an
option; then the value is NULL or one of its labels. -/
theorem label_of_write {r : EnumRegistry} {t : HostType} {v : t.Carrier} {w : Value}
    {e : EnumType} (hregistered : forall e', t.enum? = some e' -> r.lookup? e'.host = some e')
    (htype : t.sqlType r = .ok (.enum e)) (h : t.write r v = .ok w) :
    w = .null ∨ exists label, w = .enum label ∧ e.hasLabel label = true := by
  induction t with
  | base b =>
      right
      cases b with
      | enum e' =>
          have hlookup : r.sqlType e' = .ok (.enum e') := by
            unfold EnumRegistry.sqlType
            rw [hregistered e' rfl]
          have he : Except.ok (SqlType.enum e') = (Except.ok (.enum e) : Result SqlType) :=
            hlookup.symm.trans htype
          cases he
          rcases Result.bind_eq_ok.mp h with ⟨_, -, hw⟩
          cases hw
          exact ⟨v.val, rfl, List.contains_iff_mem.mpr v.property⟩
      | _ => cases htype
  | option t ih =>
      cases v with
      | none =>
          cases h
          exact Or.inl rfl
      | some v => exact ih hregistered htype h
  | list t ih =>
      rcases Result.bind_eq_ok.mp htype with ⟨item, -, hitem⟩
      cases hitem

/-- A host value that is converted, and read with the type it was converted to, comes back. -/
theorem readAs_ofHost {r : EnumRegistry} {t : HostType} {v : t.Carrier} {w : Value} {type : SqlType}
    (hnested : t.hasNestedOption = false)
    (hregistered : forall e, t.enum? = some e -> r.lookup? e.host = some e)
    (hshapes : t.ShapesInvert v) (h : Typed.ofHost r ⟨t, v⟩ = .ok ⟨w, type⟩) :
    t.readAs type w = .ok v := by
  rcases Result.bind_eq_ok.mp h with ⟨w', hwrite, h⟩
  rcases Result.bind_eq_ok.mp h with ⟨type', htype, heq⟩
  cases heq
  have hread : t.read w = .ok v := read_of_write hnested hshapes hwrite
  cases type with
  | enum e =>
      rcases label_of_write hregistered htype hwrite with rfl | ⟨label, rfl, hlabel⟩
      · exact hread
      · unfold readAs
        dsimp only
        rw [if_pos hlabel]
        exact hread
  | _ => exact hread

def mood : EnumType where
  host := "tracker::Mood"
  name := "mood"
  schema := none
  labels := ["calm", "it's late"]

def moods : HostType := option (list (option (base (.enum mood))))

def moodsOfWeek : moods.Carrier :=
  some [some ⟨"it's late", by decide⟩, none, some ⟨"calm", by decide⟩]

def addressFields : List ShapeField := [⟨"street", false⟩, ⟨"zip", true⟩]

def addresses : HostType := list (option (base (.shape ⟨"Address", .record addressFields⟩)))

def homes : addresses.Carrier :=
  [some [some "12 Low Road", none], none, some [some "", some "null"]]

theorem moods_and_homes_readAs :
    moods.readAs (.array (.enum mood))
        (.array [.enum "it's late", .null, .enum "calm"]) = .ok moodsOfWeek ∧
      addresses.readAs (.array (.json (some "Address")))
        (.array [
          .json (.object [("street", .string "12 Low Road"), ("zip", .null)]),
          .null,
          .json (.object [("street", .string ""), ("zip", .string "null")])]) = .ok homes := by
  constructor
  · apply readAs_ofHost (r := ⟨[mood]⟩) rfl
    · intro e he
      cases he
      rfl
    · intro label hlabel
      cases label <;> trivial
    · rfl
  · apply readAs_ofHost (r := {}) rfl
    · intro e he
      cases he
    · have hnames : (addressFields.map (·.name)).Nodup := by decide
      rintro home (_ | ⟨_, _ | ⟨_, _ | ⟨_, hnil⟩⟩⟩)
      · exact Shape.inverts_of_fits hnames (.cons (by simp) (.cons (by simp) .nil))
      · trivial
      · exact Shape.inverts_of_fits hnames (.cons (by simp) (.cons (by simp) .nil))
      · cases hnil
    · rfl

end HostType
end TypedQuery
