import TypedQuery.Proofs.Expr.AsWritten

/-!
# Types of compiled expressions

The type of a fragment put together by an operator follows from the types of its operands alone.
Constants whose values match their types are folded to such constants, and of the type that the
operator gives: except for two reals, the arithmetic of which is done on doubles.
-/

namespace TypedQuery

def typeOf? : Result TypedFragment -> Option SqlType
  | .ok f => some f.type
  | .error _ => none

theorem typeOf?_bind {x : Result TypedFragment} {k : TypedFragment -> Result TypedFragment}
    {type : SqlType -> Option SqlType} (h : forall f, typeOf? (k f) = type f.type) :
    typeOf? (x >>= k) = (typeOf? x).bind type := by
  cases x with
  | error e => rfl
  | ok f => exact h f

theorem typeOf?_eq_some {x : Result TypedFragment} {t : SqlType} :
    typeOf? x = some t <-> exists f, x = .ok f ∧ f.type = t := by
  cases x with
  | error e =>
      constructor
      · intro h
        cases h
      · rintro ⟨f, hf, -⟩
        cases hf
  | ok f =>
      constructor
      · intro h
        exact ⟨f, rfl, Option.some.inj h⟩
      · rintro ⟨g, hg, htype⟩
        cases hg
        exact congrArg some htype

theorem SqlType.exists_of_isJson {t : SqlType} (h : t.isJson = true) :
    exists shape, t = .json shape := by
  cases t with
  | json shape => exact ⟨shape, rfl⟩
  | _ => cases h

theorem SqlType.exists_of_isEnum {t : SqlType} (h : t.isEnum = true) : exists e, t = .enum e := by
  cases t with
  | enum e => exact ⟨e, rfl⟩
  | _ => cases h

/-!
## Operators
-/

def SqlType.isTruth : SqlType -> Bool
  | .boolean | .null => true
  | _ => false

def UnaryOp.result? : UnaryOp -> SqlType -> Option SqlType
  | .not, t => if t.isTruth then some .boolean else none
  | .cast type, _ => some type
  | .arrayLength, t => if t.isArray then some .integer else none

namespace BinaryOp

def isArithmetic : BinaryOp -> Bool
  | add | sub | mul | div => true
  | _ => false

def arithmeticResult? (op : BinaryOp) (l r : SqlType) : Option SqlType :=
  if op = .add && (l = .text || r = .text) && TypedFragment.isTextual l &&
    TypedFragment.isTextual r then some .text
  else if op = .add && l.isArray && (r.isArray || r = .null) then some l
  else SqlType.arithmetic? op l r

def result? (op : BinaryOp) (l r : SqlType) : Option SqlType :=
  match op with
  | .and | .or => if l.isTruth && r.isTruth then some .boolean else none
  | .add | .sub | .mul | .div => op.arithmeticResult? l r
  | _ => if l.isJson || r.isJson || l.comparable r then some .boolean else none

end BinaryOp

namespace TypedFragment

theorem requireBoolean_eq (op : String) (f : TypedFragment) :
    requireBoolean op f =
      if f.type.isTruth then .ok () else .error (.compile (.booleanOperands op f.type)) := by
  unfold requireBoolean SqlType.isTruth
  split <;> simp_all

theorem typeOf?_unary (op : UnaryOp) (f : TypedFragment) :
    typeOf? (unary op f) = op.result? f.type := by
  cases op with
  | not =>
      rw [unary, requireBoolean_eq, UnaryOp.result?]
      split <;> rfl
  | cast type => rfl
  | arrayLength =>
      rw [unary, UnaryOp.result?]
      split <;> rfl

theorem typeOf?_logic (op : BinaryOp) (f g : TypedFragment) :
    typeOf? (logic op f g) = if f.type.isTruth && g.type.isTruth then some .boolean else none := by
  rw [logic, requireBoolean_eq, requireBoolean_eq]
  cases f.type.isTruth <;> cases g.type.isTruth <;> rfl

theorem typeOf?_arithmetic (op : BinaryOp) (f g : TypedFragment) :
    typeOf? (arithmetic op f g) = op.arithmeticResult? f.type g.type := by
  unfold arithmetic BinaryOp.arithmeticResult?
  dsimp only
  split
  · rfl
  split
  · rfl
  · split
    · rename_i hresult
      exact hresult.symm
    · rename_i hresult
      exact hresult.symm

theorem typeOf?_comparison (op : BinaryOp) (f g : TypedFragment) :
    typeOf? (comparison op f g) =
      if f.type.isJson || g.type.isJson || f.type.comparable g.type then some .boolean
      else none := by
  unfold comparison
  dsimp only
  cases hf : f.type.isJson <;> cases hg : g.type.isJson
  · cases f.type.comparable g.type <;> rfl
  · rfl
  · rfl
  · rcases SqlType.exists_of_isJson hf with ⟨a, ha⟩
    rcases SqlType.exists_of_isJson hg with ⟨b, hb⟩
    rw [ha, hb]
    rfl

theorem typeOf?_operator (op : BinaryOp) (f g : TypedFragment) :
    typeOf? (operator op f g) = op.result? f.type g.type := by
  cases op with
  | and => exact typeOf?_logic .and f g
  | or => exact typeOf?_logic .or f g
  | add => exact typeOf?_arithmetic .add f g
  | sub => exact typeOf?_arithmetic .sub f g
  | mul => exact typeOf?_arithmetic .mul f g
  | div => exact typeOf?_arithmetic .div f g
  | _ => exact typeOf?_comparison _ f g

end TypedFragment

/-!
## Numbers and labels among the operands
-/

theorem SqlType.comparable_self (t : SqlType) : t.comparable t = true := by
  induction t with
  | array item ih => exact ih
  | enum e => exact decide_eq_true rfl
  | _ => rfl

namespace BinaryOp

theorem result?_of_isNumeric (op : BinaryOp) {l r : SqlType} (hl : l.isNumeric = true)
    (hr : r.isNumeric = true) :
    (op.isComparison = true -> op.result? l r = some .boolean) ∧
      (op.isArithmetic = true -> op.result? l r = some (SqlType.wider l r)) := by
  cases l <;> cases hl
  all_goals cases r <;> cases hr
  all_goals cases op <;> refine ⟨fun h => ?_, fun h => ?_⟩ <;> first | rfl | cases h

theorem result?_self {op : BinaryOp} (h : op.isComparison = true) (t : SqlType) :
    op.result? t t = some .boolean := by
  have ht := t.comparable_self
  cases op <;> cases h <;> simp [result?, ht]

/-- A text next to an enum counts as one of its labels, except that it can be added to one. -/
theorem result?_text_of_isEnum {op : BinaryOp} (h : op ≠ .add) {t : SqlType}
    (ht : t.isEnum = true) : op.result? t .text = op.result? t t := by
  rcases SqlType.exists_of_isEnum ht with ⟨e, rfl⟩
  cases op <;> first | exact absurd rfl h | simp [result?, arithmeticResult?, SqlType.comparable,
    SqlType.isTruth, SqlType.arithmetic?, SqlType.isNumeric, SqlType.isMoment, SqlType.kind]

end BinaryOp

/-!
## Constants
-/

namespace Value

mutual

/-- Whether a value matches a type; NULL matches every type. -/
def fits : Value -> SqlType -> Bool
  | .null, _ => true
  | .bool _, .boolean => true
  | .int _, .integer => true
  | .bigint _, .bigint => true
  | .float _, .real => true
  | .double _, .double => true
  | .decimal _, .numeric => true
  | .text _, .text => true
  | .uuid _, .uuid => true
  | .date _, .date => true
  | .time _, .time => true
  | .timestamp _, .timestamp => true
  | .interval _, .interval => true
  | .bytes _, .bytea => true
  | .json _, .json _ => true
  | .enum _, .enum _ => true
  | .array items, .array item => allFit items item
  | _, _ => false

def allFit : List Value -> SqlType -> Bool
  | [], _ => true
  | v :: rest, t => v.fits t && allFit rest t

end

def type? : Value -> Option SqlType
  | .bool _ => some .boolean
  | .int _ => some .integer
  | .bigint _ => some .bigint
  | .float _ => some .real
  | .double _ => some .double
  | .decimal _ => some .numeric
  | .text _ => some .text
  | _ => none

theorem type_of_fits {v : Value} {t s : SqlType} (h : v.fits t = true) (hs : v.type? = some s) :
    t = s := by
  cases v <;> cases hs
  all_goals cases t <;> first | rfl | cases h

end Value

namespace Typed

def fits (v : Typed) : Bool := v.value.fits v.type

/-- A constant with the one type of its value. -/
def Exact (v : Typed) : Prop := v.value.type? = some v.type

theorem Exact.fits {v : Typed} (h : v.Exact) : v.fits = true := by
  rcases v with ⟨value, type⟩
  cases value <;> cases h <;> rfl

theorem Exact.isNull_eq {v : Typed} (h : v.Exact) : v.value.isNull = false := by
  rcases v with ⟨value, type⟩
  cases value <;> cases h <;> rfl

end Typed

namespace Fold

def Computes (op : BinaryOp) (w : Typed) (t : SqlType) : Prop :=
  w.Exact ∧
    (op.isComparison = true ∧ w.type = .boolean ∨ op.isArithmetic = true ∧ w.type = t)

theorem compared_eq_some {op : BinaryOp} {order : Ordering} {w : Typed}
    (h : compared op order = some w) : op.isComparison = true ∧ exists b, w = boolean b := by
  cases op <;> cases h <;> exact ⟨rfl, _, rfl⟩

theorem equated_eq_some {op : BinaryOp} {equal : Bool} {w : Typed}
    (h : equated op equal = some w) : op.isComparison = true ∧ exists b, w = boolean b := by
  cases op <;> cases h <;> exact ⟨rfl, _, rfl⟩

theorem computes_compared {op : BinaryOp} {order : Ordering} {w : Typed} (t : SqlType)
    (h : compared op order = some w) : Computes op w t := by
  rcases compared_eq_some h with ⟨hop, b, rfl⟩
  exact ⟨rfl, Or.inl ⟨hop, rfl⟩⟩

theorem computes_integers {op : BinaryOp} {narrow : Bool} {a b : Int64} {w : Typed}
    (h : integers op narrow a b = some w) :
    Computes op w (if narrow then .integer else .bigint) := by
  unfold integers at h
  split at h
  · exact computes_compared _ h
  · rcases Option.bind_eq_some_iff.mp h with ⟨number, hnumber, h⟩
    rcases Option.bind_eq_some_iff.mp h with ⟨result, -, h⟩
    have hop : op.isArithmetic = true := by
      cases op <;> first | rfl | cases hnumber
    split at h
    · rename_i hnarrow
      rcases Option.bind_eq_some_iff.mp h with ⟨n, -, hw⟩
      cases hw
      exact ⟨rfl, Or.inr ⟨hop, (if_pos hnarrow).symm⟩⟩
    · rename_i hwide
      cases h
      exact ⟨rfl, Or.inr ⟨hop, (if_neg hwide).symm⟩⟩

theorem computes_decimals {op : BinaryOp} {a b : Number.Decimal} {w : Typed}
    (h : decimals op a b = some w) : Computes op w .numeric := by
  unfold decimals at h
  split at h
  · exact computes_compared _ h
  · dsimp only at h
    split at h
    all_goals rcases Option.bind_eq_some_iff.mp h with ⟨result, hresult, hw⟩
    · cases hw
      exact ⟨rfl, Or.inr ⟨rfl, rfl⟩⟩
    · cases hw
      exact ⟨rfl, Or.inr ⟨rfl, rfl⟩⟩
    · cases hw
      exact ⟨rfl, Or.inr ⟨rfl, rfl⟩⟩
    · cases hresult

theorem computes_doubles {op : BinaryOp} {a b : Float} {w : Typed}
    (h : doubles op a b = some w) : Computes op w .double := by
  unfold doubles at h
  split at h
  · rcases Option.bind_eq_some_iff.mp h with ⟨order, -, h⟩
    exact computes_compared _ h
  · have hfinite : forall {x : Float},
        ((some x).bind fun result =>
          if (Number.Double.ofFloat result).isFinite then
            some (⟨.double (Number.Double.ofFloat result), .double⟩ : Typed)
          else none) = some w -> w.Exact ∧ w.type = .double := by
      intro x hx
      rw [Option.bind_some] at hx
      split at hx
      · cases hx
        exact ⟨rfl, rfl⟩
      · cases hx
    dsimp only at h
    split at h
    · exact ⟨(hfinite h).1, Or.inr ⟨rfl, (hfinite h).2⟩⟩
    · exact ⟨(hfinite h).1, Or.inr ⟨rfl, (hfinite h).2⟩⟩
    · exact ⟨(hfinite h).1, Or.inr ⟨rfl, (hfinite h).2⟩⟩
    · split at h
      · cases h
      · exact ⟨(hfinite h).1, Or.inr ⟨rfl, (hfinite h).2⟩⟩
    · cases h

theorem Computes.result {op : BinaryOp} {w : Typed} {l r t : SqlType} (h : Computes op w t)
    (hl : l.isNumeric = true) (hr : r.isNumeric = true) (ht : SqlType.wider l r = t) :
    w.Exact ∧ op.result? l r = some w.type := by
  have hnumeric := op.result?_of_isNumeric hl hr
  rcases h with ⟨hexact, ⟨hop, htype⟩ | ⟨hop, htype⟩⟩
  · exact ⟨hexact, by rw [hnumeric.1 hop, htype]⟩
  · exact ⟨hexact, by rw [hnumeric.2 hop, ht, htype]⟩

theorem result_booleans {op : BinaryOp} {a b : Bool} {w : Typed} (h : booleans op a b = some w) :
    w.Exact ∧ op.result? .boolean .boolean = some w.type := by
  unfold booleans at h
  split at h
  · cases h
    exact ⟨rfl, rfl⟩
  · cases h
    exact ⟨rfl, rfl⟩
  · rcases equated_eq_some h with ⟨hop, _, rfl⟩
    exact ⟨rfl, BinaryOp.result?_self hop _⟩

theorem result_texts {op : BinaryOp} {a b : String} {w : Typed} (h : texts op a b = some w) :
    w.Exact ∧ op.result? .text .text = some w.type := by
  unfold texts at h
  split at h
  · cases h
    exact ⟨rfl, rfl⟩
  · rcases equated_eq_some h with ⟨hop, _, rfl⟩
    exact ⟨rfl, BinaryOp.result?_self hop _⟩

theorem result_others {op : BinaryOp} {l r w : Typed} (h : others op l r = some w) :
    w.Exact ∧ op.result? l.type r.type = some w.type := by
  unfold others at h
  split at h
  · rename_i htypes
    rcases equated_eq_some h with ⟨hop, _, rfl⟩
    rw [<- htypes.1]
    exact ⟨rfl, BinaryOp.result?_self hop _⟩
  · cases h

theorem integer?_cases {v : Value} {n : Int64} (h : integer? v = some n) :
    (exists m, v = .int m) ∨ exists m, v = .bigint m := by
  cases v with
  | int m => exact Or.inl ⟨m, rfl⟩
  | bigint m => exact Or.inr ⟨m, rfl⟩
  | _ => cases h

theorem decimal?_cases {v : Value} {d : Number.Decimal} (h : decimal? v = some d) :
    (exists e, v = .decimal e) ∨ (exists m, v = .int m) ∨ exists m, v = .bigint m := by
  cases v with
  | decimal e => exact Or.inl ⟨e, rfl⟩
  | int m => exact Or.inr (Or.inl ⟨m, rfl⟩)
  | bigint m => exact Or.inr (Or.inr ⟨m, rfl⟩)
  | _ => cases h

theorem double?_cases {v : Value} {x : Float} (h : double? v = some x) :
    (exists y, v = .float y) ∨ (exists y, v = .double y) ∨ (exists m, v = .int m) ∨
      exists m, v = .bigint m := by
  cases v with
  | float y => exact Or.inl ⟨y, rfl⟩
  | double y => exact Or.inr (Or.inl ⟨y, rfl⟩)
  | int m => exact Or.inr (Or.inr (Or.inl ⟨m, rfl⟩))
  | bigint m => exact Or.inr (Or.inr (Or.inr ⟨m, rfl⟩))
  | _ => cases h

/-- Two reals are computed as doubles, where the operator gives a real. -/
def Widens (op : BinaryOp) (l r w : Typed) : Prop :=
  (exists x y, l = ⟨.float x, .real⟩ ∧ r = ⟨.float y, .real⟩) ∧ op.isArithmetic = true ∧
    w.type = .double

/-- What is computed is made of two truth values, two texts, two numbers or two values of one type.
Numbers are computed in the wider type of the two, but two reals as doubles. -/
theorem binary?_cases {op : BinaryOp} {l r w : Typed} (h : binary? op l r = some w)
    (hl : l.fits = true) (hr : r.fits = true) :
    (l.type = .boolean ∧ r.type = .boolean ∧ exists a b, booleans op a b = some w) ∨
      (l.type = .text ∧ r.type = .text ∧ exists a b, texts op a b = some w) ∨
      (l.type.isNumeric = true ∧ r.type.isNumeric = true ∧ exists t, Computes op w t ∧
        (SqlType.wider l.type r.type = t ∨
          t = .double ∧ exists x y, l = ⟨.float x, .real⟩ ∧ r = ⟨.float y, .real⟩)) ∨
      (l.type = r.type ∧ others op l r = some w) := by
  rcases l with ⟨l, lt⟩
  rcases r with ⟨r, rt⟩
  unfold binary? at h
  dsimp only at h
  split at h
  · cases h
  split at h
  · cases Value.type_of_fits hl rfl
    cases Value.type_of_fits hr rfl
    exact Or.inl ⟨rfl, rfl, _, _, h⟩
  · cases Value.type_of_fits hl rfl
    cases Value.type_of_fits hr rfl
    exact Or.inr (Or.inr (Or.inl ⟨rfl, rfl, _, computes_integers h, Or.inl rfl⟩))
  · cases Value.type_of_fits hl rfl
    cases Value.type_of_fits hr rfl
    exact Or.inr (Or.inl ⟨rfl, rfl, _, _, h⟩)
  · rename_i hints _
    -- A branch meets only the pairs that no branch before it takes, so the type it computes in is
    -- the wider of the two, unless both are reals.
    right
    right
    split at h
    · rcases Option.bind_eq_some_iff.mp h with ⟨a, ha, h⟩
      rcases Option.bind_eq_some_iff.mp h with ⟨b, hb, h⟩
      left
      rcases integer?_cases ha with ⟨n, rfl⟩ | ⟨n, rfl⟩ <;>
        rcases integer?_cases hb with ⟨m, rfl⟩ | ⟨m, rfl⟩ <;>
        cases Value.type_of_fits hl rfl <;> cases Value.type_of_fits hr rfl
      · exact absurd rfl (hints n m rfl)
      all_goals exact ⟨rfl, rfl, _, computes_integers h, Or.inl rfl⟩
    split at h
    · rename_i hints _
      rcases Option.bind_eq_some_iff.mp h with ⟨a, ha, h⟩
      rcases Option.bind_eq_some_iff.mp h with ⟨b, hb, h⟩
      left
      rcases decimal?_cases ha with ⟨d, rfl⟩ | ⟨n, rfl⟩ | ⟨n, rfl⟩ <;>
        rcases decimal?_cases hb with ⟨e, rfl⟩ | ⟨m, rfl⟩ | ⟨m, rfl⟩ <;>
        cases Value.type_of_fits hl rfl <;> cases Value.type_of_fits hr rfl <;>
        first | exact absurd rfl hints | exact ⟨rfl, rfl, _, computes_decimals h, Or.inl rfl⟩
    split at h
    · rename_i hints _ _
      rcases Option.bind_eq_some_iff.mp h with ⟨a, ha, h⟩
      rcases Option.bind_eq_some_iff.mp h with ⟨b, hb, h⟩
      left
      rcases double?_cases ha with ⟨x, rfl⟩ | ⟨x, rfl⟩ | ⟨n, rfl⟩ | ⟨n, rfl⟩ <;>
        rcases double?_cases hb with ⟨y, rfl⟩ | ⟨y, rfl⟩ | ⟨m, rfl⟩ | ⟨m, rfl⟩ <;>
        cases Value.type_of_fits hl rfl <;> cases Value.type_of_fits hr rfl
      · exact ⟨rfl, rfl, _, computes_doubles h, Or.inr ⟨rfl, x, y, rfl, rfl⟩⟩
      all_goals
        first | exact absurd rfl hints | exact ⟨rfl, rfl, _, computes_doubles h, Or.inl rfl⟩
    · have htypes := h
      unfold others at htypes
      split at htypes
      · rename_i hsame
        exact Or.inr ⟨hsame.1, h⟩
      · cases htypes

/-- A constant that is computed has the type that the operator gives, unless two reals are
computed. -/
theorem binary?_typed {op : BinaryOp} {l r w : Typed} (h : binary? op l r = some w)
    (hl : l.fits = true) (hr : r.fits = true) :
    (w.Exact ∧ op.result? l.type r.type = some w.type) ∨ (w.Exact ∧ Widens op l r w) := by
  rcases binary?_cases h hl hr with ⟨hlt, hrt, a, b, h⟩ | ⟨hlt, hrt, a, b, h⟩ |
    ⟨hlt, hrt, t, hcomputes, ht | ⟨rfl, x, y, rfl, rfl⟩⟩ | ⟨-, h⟩
  · rw [hlt, hrt]
    exact Or.inl (result_booleans h)
  · rw [hlt, hrt]
    exact Or.inl (result_texts h)
  · exact Or.inl (hcomputes.result hlt hrt ht)
  · rcases hcomputes with ⟨hexact, ⟨hop, htype⟩ | ⟨hop, htype⟩⟩
    · exact Or.inl ⟨hexact, htype ▸ BinaryOp.result?_self hop _⟩
    · exact Or.inr ⟨hexact, ⟨x, y, rfl, rfl⟩, hop, htype⟩
  · exact Or.inl (result_others h)

theorem unary?_typed {op : UnaryOp} {v w : Typed} (h : unary? op v = some w)
    (hv : v.fits = true) : w.Exact ∧ op.result? v.type = some w.type := by
  rcases v with ⟨value, type⟩
  unfold unary? at h
  dsimp only at h
  split at h
  · cases h
    cases Value.type_of_fits hv rfl
    exact ⟨rfl, rfl⟩
  · rcases Option.map_eq_some_iff.mp h with ⟨n, -, rfl⟩
    cases type with
    | array item => exact ⟨rfl, rfl⟩
    | _ => cases hv
  · cases h

theorem onText?_exact {name subject : String} {args : List Expr} {w : Typed}
    (h : onText? name subject args = some w) : w.Exact := by
  rcases onText?_cases h with ⟨-, -, text, rfl⟩ | ⟨-, -, n, rfl⟩ | ⟨-, _, _, b, -, -, rfl⟩
  · rfl
  · rfl
  · rfl

theorem type_of_reals {op : BinaryOp} {x y : Number.Single} {w : Typed}
    (hop : op.isArithmetic = true)
    (h : binary? op ⟨.float x, .real⟩ ⟨.float y, .real⟩ = some w) : w.type = .double := by
  have hdoubles : doubles op x.widen.toFloat y.widen.toFloat = some w := h
  rcases computes_doubles hdoubles with ⟨-, ⟨hcompares, -⟩ | ⟨-, htype⟩⟩
  · cases op <;> cases hop <;> cases hcompares
  · exact htype

theorem binary?_enum_text {op : BinaryOp} {l : Typed} (hl : l.fits = true)
    (henum : l.type.isEnum = true) (text : String) : binary? op l ⟨.text text, .text⟩ = none := by
  rcases l with ⟨value, type⟩
  rcases SqlType.exists_of_isEnum henum with ⟨labels, rfl⟩
  cases value <;> cases hl <;> rfl

theorem binary?_not_null {op : BinaryOp} {l r w : Typed} (h : binary? op l r = some w) :
    l.value.isNull = false ∧ r.value.isNull = false := by
  unfold binary? at h
  dsimp only at h
  split at h
  · cases h
  · rename_i hnull
    rw [Bool.or_eq_true, not_or, Bool.not_eq_true, Bool.not_eq_true] at hnull
    exact hnull

end Fold

/-!
## Expressions with typed constants
-/

namespace Expr

mutual

def isTyped : Expr -> Bool
  | .constant v => v.fits
  | .unary _ operand => operand.isTyped
  | .binary _ left right => left.isTyped && right.isTyped
  | .method _ receiver args _ => receiver.isTyped && allTyped args
  | .function _ args => allTyped args
  | _ => true

def allTyped : List Expr -> Bool
  | [] => true
  | e :: rest => e.isTyped && allTyped rest

end

/-- What membership is tested in: a constant array or a subquery. -/
def isSet : Expr -> Bool
  | .constant ⟨.array _, _⟩ => true
  | .subquery _ => true
  | _ => false

end Expr

namespace Fold

theorem exact_of_unaryNode {op : UnaryOp} {operand : Expr} {w : Typed}
    (htyped : operand.isTyped = true) (h : unaryNode op operand = .constant w) : w.Exact := by
  rcases unaryNode_cases op operand with ⟨v, u, rfl, hu, hnode⟩ | hsame
  · cases hnode.symm.trans h
    exact (unary?_typed hu htyped).1
  · cases hsame.symm.trans h

theorem exact_of_binaryNode {op : BinaryOp} {left right : Expr} {w : Typed}
    (hleft : left.isTyped = true) (hright : right.isTyped = true)
    (h : binaryNode op left right = .constant w) : w.Exact := by
  rcases binaryNode_cases op left right with ⟨l, r, u, rfl, rfl, hu, hnode⟩ | hsame
  · cases hnode.symm.trans h
    rcases binary?_typed hu hleft hright with ⟨hexact, -⟩ | ⟨hexact, -⟩
    · exact hexact
    · exact hexact
  · cases hsame.symm.trans h

theorem exact_of_methodNode {name : String} {receiver : Expr} {args : List Expr}
    {onServer : Bool} {w : Typed} (h : methodNode name receiver args onServer = .constant w) :
    w.Exact := by
  rcases methodNode_cases name receiver args onServer with ⟨subject, u, -, hu, hnode⟩ | hsame
  · cases hnode.symm.trans h
    exact onText?_exact hu
  · cases hsame.symm.trans h

mutual

theorem isTyped_fold {e : Expr} (h : e.isTyped = true) : (fold e).isTyped = true := by
  cases e with
  | unary op operand =>
      have hoperand : (fold operand).isTyped = true := isTyped_fold h
      rw [fold]
      rcases unaryNode_cases op (fold operand) with ⟨_, v, -, -, hv⟩ | hsame
      · rw [hv]
        exact (exact_of_unaryNode hoperand hv).fits
      · rw [hsame]
        exact hoperand
  | binary op left right =>
      rw [Expr.isTyped, Bool.and_eq_true] at h
      have hleft : (fold left).isTyped = true := isTyped_fold h.1
      have hright : (fold right).isTyped = true := isTyped_fold h.2
      rw [fold]
      rcases binaryNode_cases op (fold left) (fold right) with ⟨_, _, v, -, -, -, hv⟩ | hsame
      · rw [hv]
        exact (exact_of_binaryNode hleft hright hv).fits
      · rw [hsame, Expr.isTyped, hleft, hright]
        rfl
  | method name receiver args onServer =>
      rw [Expr.isTyped, Bool.and_eq_true] at h
      rw [fold]
      rcases methodNode_cases name (fold receiver) (foldAll args) onServer with
        ⟨_, v, -, -, hv⟩ | hsame
      · rw [hv]
        exact (exact_of_methodNode hv).fits
      · rw [hsame, Expr.isTyped, isTyped_fold h.1, allTyped_foldAll h.2]
        rfl
  | function name args =>
      rw [fold]
      exact allTyped_foldAll h
  | _ => exact h

theorem allTyped_foldAll {es : List Expr} (h : Expr.allTyped es = true) :
    Expr.allTyped (foldAll es) = true := by
  cases es with
  | nil => rfl
  | cons e rest =>
      rw [Expr.allTyped, Bool.and_eq_true] at h
      rw [foldAll, Expr.allTyped, isTyped_fold h.1, allTyped_foldAll h.2]
      rfl

end

theorem eq_of_text? {e : Expr} {text : String} (htyped : e.isTyped = true)
    (h : text? e = some text) : e = .constant ⟨.text text, .text⟩ := by
  unfold text? at h
  split at h
  · cases h
    cases Value.type_of_fits htyped rfl
    rfl
  · cases h

theorem fits_of_fold {e : Expr} (htyped : e.isTyped = true) {v : Typed}
    (h : fold e = .constant v) : v.fits = true := by
  have hfolded := isTyped_fold htyped
  rwa [h] at hfolded

/-- An expression is folded to a constant only if it is that constant, or to an exact one. -/
theorem exact_of_fold {e : Expr} (htyped : e.isTyped = true) {w : Typed}
    (h : fold e = .constant w) : e = .constant w ∨ w.Exact := by
  cases e with
  | constant v => exact Or.inl h
  | unary op operand =>
      have hoperand : (fold operand).isTyped = true := isTyped_fold htyped
      rw [fold] at h
      exact Or.inr (exact_of_unaryNode hoperand h)
  | binary op left right =>
      rw [Expr.isTyped, Bool.and_eq_true] at htyped
      rw [fold] at h
      exact Or.inr (exact_of_binaryNode (isTyped_fold htyped.1) (isTyped_fold htyped.2) h)
  | method name receiver args onServer =>
      rw [fold] at h
      exact Or.inr (exact_of_methodNode h)
  | _ => cases h

theorem fold_eq_subquery {e : Expr} {s : Subquery} (h : fold e = .subquery s) :
    e = .subquery s := by
  cases e with
  | unary op operand =>
      rw [fold] at h
      rcases unaryNode_cases op (fold operand) with ⟨_, v, -, -, hv⟩ | hsame
      · cases hv.symm.trans h
      · cases hsame.symm.trans h
  | binary op left right =>
      rw [fold] at h
      rcases binaryNode_cases op (fold left) (fold right) with ⟨_, _, v, -, -, -, hv⟩ | hsame
      · cases hv.symm.trans h
      · cases hsame.symm.trans h
  | method name receiver args onServer =>
      rw [fold] at h
      rcases methodNode_cases name (fold receiver) (foldAll args) onServer with
        ⟨_, v, -, -, hv⟩ | hsame
      · cases hv.symm.trans h
      · cases hsame.symm.trans h
  | function name args => cases h
  | _ => exact h

theorem isNullConstant_fold {e : Expr} (htyped : e.isTyped = true) :
    (fold e).isNullConstant = e.isNullConstant := by
  cases hfold : fold e with
  | constant w =>
      rcases exact_of_fold htyped hfold with rfl | hexact
      · rfl
      · cases e with
        | constant v =>
            cases hfold
            rfl
        | _ => exact hexact.isNull_eq
  | _ =>
      cases e with
      | constant v => cases hfold
      | _ => rfl

theorem fold_eq_of_isSet {e : Expr} (htyped : e.isTyped = true)
    (h : e.isSet = true ∨ (fold e).isSet = true) : fold e = e := by
  rcases h with h | h
  · cases e with
    | constant v => rfl
    | subquery s => rfl
    | _ => cases h
  · cases hfold : fold e with
    | constant w =>
        rcases exact_of_fold htyped hfold with rfl | hexact
        · rfl
        · rcases w with ⟨value, type⟩
          rw [hfold] at h
          cases value with
          | array items => cases hexact
          | _ => cases h
    | subquery s => exact (fold_eq_subquery hfold).symm
    | _ =>
        rw [hfold] at h
        cases h

end Fold
end TypedQuery
