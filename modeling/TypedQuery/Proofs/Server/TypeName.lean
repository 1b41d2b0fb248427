import TypedQuery.Proofs.Server.Typing

/-!
# Names of types

A cast names a type to the server, and the same name declares it.
-/

namespace TypedQuery
namespace SqlType

/-!
## Types that are the same to the server
-/

/-- The same type, whatever shape its documents have and whatever host type and labels its enum. -/
inductive SameType : SqlType -> SqlType -> Prop where
  | refl (t : SqlType) : SameType t t
  | json (shape other : Option String) : SameType (.json shape) (.json other)
  | enum {e f : EnumType} (hschema : e.schema = f.schema) (hname : e.name = f.name) :
      SameType (.enum e) (.enum f)
  | array {a b : SqlType} (h : SameType a b) : SameType (.array a) (.array b)

variable {a b : SqlType}

theorem SameType.cast_eq (h : a.SameType b) : a.cast = b.cast := by
  induction h with
  | refl t => rfl
  | json shape other => rfl
  | enum hschema hname => rw [cast, cast, hschema, hname]
  | array h ih => rw [cast, cast, ih]

theorem tokens_inj_of_cast (h : a.cast = b.cast) : a.tokens = b.tokens := by
  have ha := Server.tokens?_of_lexes (@Server.lexes_cast true a)
  rw [h, Server.tokens?_of_lexes (Server.lexes_cast b)] at ha
  exact (Option.some.inj ha).symm

theorem bracketPairs_injective : Function.Injective bracketPairs := by
  intro n m h
  have hn := ServerType.brackets?_bracketPairs n
  rw [h, ServerType.brackets?_bracketPairs] at hn
  exact (Option.some.inj hn).symm

theorem onServer_root_inj (h : a.cast = b.cast) :
    a.root.onServer = b.root.onServer ∧ a.dimensions = b.dimensions := by
  have ha := ServerType.ofName?_tokens a.root_isArray a.dimensions
  rw [<- tokens_eq, tokens_inj_of_cast h, tokens_eq,
    ServerType.ofName?_tokens b.root_isArray b.dimensions] at ha
  injection ha with ha
  injection ha with htype hbrackets
  exact ⟨htype.symm, (bracketPairs_injective hbrackets).symm⟩

/-- Apart from arrays, types are the same that the server takes for the same. -/
theorem sameType_of_onServer (ha : a.isArray = false) (hb : b.isArray = false)
    (h : a.onServer = b.onServer) : a.SameType b := by
  cases a with
  | array item => cases ha
  | json shape =>
      cases b with
      | array item => cases hb
      | json other => exact .json shape other
      | _ => cases h
  | enum e =>
      cases b with
      | array item => cases hb
      | enum f =>
          injection h with hschema hname
          exact .enum hschema hname
      | _ => cases h
  | _ =>
      cases b with
      | array item => cases hb
      | _ => cases h <;> exact .refl _

theorem sameType_of_root (hroot : a.root.SameType b.root) (h : a.dimensions = b.dimensions) :
    a.SameType b := by
  induction a generalizing b with
  | array item ih =>
      cases b with
      | array other => exact .array (ih hroot (Nat.succ.inj h))
      | _ => cases h
  | _ =>
      cases b with
      | array other => cases h
      | _ => exact hroot

/-!
## Declarations
-/

def unshaped : SqlType -> SqlType
  | json _ => json none
  | array item => array item.unshaped
  | t => t

theorem toList_qualifiedIdent (schema : Option String) (name : String) :
    exists inner, (Text.qualifiedIdent schema name).toList = '"' :: inner ++ ['"'] := by
  cases schema with
  | none => exact ⟨Text.doubled '"' name.toList, Text.toList_quoteIdent name⟩
  | some schema =>
      refine ⟨Text.doubled '"' schema.toList ++ '"' :: '.' :: '"' :: Text.doubled '"' name.toList,
        ?_⟩
      simp [Text.qualifiedIdent, Text.toList_quoteIdent]

theorem ofDeclaration_cast (t : SqlType) : ofDeclaration t.cast =
    if t.root = .null ∨ t.root.isEnum = true then
      .error (String.ofList (t.root.cast.toList.map Char.toLower))
    else .ok t.unshaped := by
  induction t with
  | array item ih =>
      rw [cast, ofDeclaration_brackets, ih, root]
      split <;> rfl
  | enum e =>
      rcases toList_qualifiedIdent e.schema e.name with ⟨inner, hinner⟩
      rw [if_pos (.inr rfl)]
      exact ofDeclaration_of_quotes hinner
  | null =>
      have hlower : String.ofList (null.root.cast.toList.map Char.toLower) = "unknown" := rfl
      rw [if_pos (.inl rfl), hlower]
      rfl
  | json shape =>
      have hname : ofDeclaration "jsonb" = .ok (json none) := rfl
      rw [if_neg (by simp [root, isEnum]), cast, hname, unshaped]
  | _ =>
      rw [if_neg (by simp [root, isEnum])]
      rfl

/-- A cast names one type to the server, but for the shape behind documents and for what the host
knows about an enum.  Declared, it is that type again, without the shape; the name of an enum and of
no type in particular declare none, however many brackets follow. -/
theorem casts_identify_types :
    (forall a b : SqlType, a.cast = b.cast <-> a.SameType b) ∧
      forall t : SqlType, ofDeclaration t.cast =
        if t.root = .null ∨ t.root.isEnum = true then
          .error (String.ofList (t.root.cast.toList.map Char.toLower))
        else .ok t.unshaped := by
  refine ⟨fun a b => ⟨fun h => ?_, SameType.cast_eq⟩, ofDeclaration_cast⟩
  rcases onServer_root_inj h with ⟨hroot, hdimensions⟩
  exact sameType_of_root (sameType_of_onServer a.root_isArray b.root_isArray hroot) hdimensions

end SqlType
end TypedQuery
