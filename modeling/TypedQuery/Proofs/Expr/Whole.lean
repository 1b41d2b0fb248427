import TypedQuery.Proofs.Expr.Composed
import TypedQuery.Proofs.Expr.Function
import TypedQuery.Proofs.Fragment.Drawn

/-!
# Compiled expressions are whole

Every operator, method and function puts whole operands between texts that keep them apart, so that
an expression compiles to a whole fragment when its subqueries and the fragments compiled beforehand
are whole.  A registry carries this when its handlers do.
-/

namespace TypedQuery

open Fragment

/-!
## Operators
-/

namespace TypedFragment

variable {f left right : TypedFragment}

theorem whole_ofValue (v : Typed) : (ofValue v).query.Whole := opening_empty.value v

theorem whole_surround {before after : String} (hbefore : IsOpener before)
    (hf : f.query.Whole) (hafter : IsCloser after) (type : SqlType) :
    (surround before f after type).query.Whole :=
  ((opening_empty.text hbefore).nested hf).closer hafter

theorem whole_combine (hleft : left.query.Whole) {op : String}
    (hop : IsJoiner (") " ++ op ++ " (")) (hright : right.query.Whole) (type : SqlType) :
    (combine left op right type).query.Whole := by
  have hopen : IsOpener "(" := isOpener_sql rfl
  have hclose : IsCloser ")" := isCloser_sql rfl rfl
  exact ((((opening_empty.text hopen).nested hleft).joiner hop).nested hright).closer hclose

theorem isJoiner_sql (op : BinaryOp) : IsJoiner (") " ++ op.sql ++ " (") := by
  cases op <;> exact Fragment.isJoiner_sql rfl rfl

theorem isJoiner_symbol (op : BinaryOp) (type : SqlType) :
    IsJoiner (") " ++ op.symbol type ++ " (") := by
  unfold BinaryOp.symbol
  split
  · exact Fragment.isJoiner_sql rfl rfl
  · exact isJoiner_sql op

theorem whole_toJsonb (hf : f.query.Whole) : f.toJsonb.query.Whole := by
  unfold toJsonb
  split
  · exact whole_surround (isOpener_sql rfl) hf (isCloser_sql rfl rfl) _
  · exact whole_surround (isOpener_sql rfl) hf (isCloser_sql rfl rfl) _

theorem isCloser_cast (type : SqlType) : IsCloser (")::" ++ type.cast) := by
  have hcolons : IsJoiner ")::" := Fragment.isJoiner_sql rfl rfl
  exact hcolons.whole ⟨type.words, type.spell_words, type.whole_words⟩

theorem whole_unary {op : UnaryOp} {operand : TypedFragment} (hoperand : operand.query.Whole)
    (h : unary op operand = .ok f) : f.query.Whole := by
  cases op with
  | not =>
      rcases Result.bind_eq_ok.mp h with ⟨_, _, hf⟩
      cases hf
      exact whole_surround (isOpener_sql rfl) hoperand (isCloser_sql rfl rfl) _
  | cast type =>
      cases h
      exact whole_surround (isOpener_sql rfl) hoperand (isCloser_cast type) _
  | arrayLength =>
      simp only [unary] at h
      split at h
      · cases h
        exact whole_surround (isOpener_sql rfl) hoperand (isCloser_sql rfl rfl) _
      · cases h

theorem whole_arithmetic {op : BinaryOp} (hleft : left.query.Whole) (hright : right.query.Whole)
    (h : arithmetic op left right = .ok f) : f.query.Whole := by
  rw [arithmetic_eq h]
  exact whole_combine hleft (isJoiner_symbol op _) hright _

theorem whole_logic {op : BinaryOp} (hleft : left.query.Whole) (hright : right.query.Whole)
    (h : logic op left right = .ok f) : f.query.Whole := by
  rcases Result.bind_eq_ok.mp h with ⟨_, _, h⟩
  rcases Result.bind_eq_ok.mp h with ⟨_, _, h⟩
  cases h
  exact whole_combine hleft (isJoiner_sql op) hright _

theorem whole_comparison {op : BinaryOp} (hleft : left.query.Whole) (hright : right.query.Whole)
    (h : comparison op left right = .ok f) : f.query.Whole := by
  have hop := isJoiner_sql op
  unfold comparison at h
  dsimp only at h
  split at h
  · cases h
    exact whole_combine hleft hop (whole_toJsonb hright) _
  split at h
  · cases h
    exact whole_combine (whole_toJsonb hleft) hop hright _
  split at h
  · cases h
    exact whole_combine hleft hop hright _
  · cases h

theorem whole_operator {op : BinaryOp} (hleft : left.query.Whole) (hright : right.query.Whole)
    (h : operator op left right = .ok f) : f.query.Whole := by
  unfold operator at h
  split at h
  · exact whole_logic hleft hright h
  · exact whole_logic hleft hright h
  · exact whole_arithmetic hleft hright h
  · exact whole_arithmetic hleft hright h
  · exact whole_arithmetic hleft hright h
  · exact whole_arithmetic hleft hright h
  · exact whole_comparison hleft hright h

theorem whole_jsonStep {base : TypedFragment} {key : Typed} {asText : Bool}
    (hbase : base.query.Whole) (h : base.jsonStep key asText = .ok f) : f.query.Whole := by
  unfold jsonStep at h
  split at h
  · cases h
    exact ((opening_empty.nested hbase).arrow asText).value key
  · cases h

theorem whole_of_enumLabel? {target : SqlType} {e : Expr} (h : enumLabel? target e = some f) :
    f.query.Whole := by
  unfold enumLabel? at h
  split at h
  · cases h
    exact whole_ofValue _
  · cases h

end TypedFragment

/-!
## Arguments
-/

structure Argument.IsWhole (a : Argument) : Prop where
  compiled : forall f, a.compiled = .ok f -> f.query.Whole
  subquery : forall q, a.expr = .subquery q -> q.frame.query.Whole

namespace Argument

variable {a : Argument} {args : List Argument} {f : TypedFragment} {name : String}

theorem IsWhole.next (ha : a.IsWhole) (h : a.next = .ok f) : f.query.Whole := by
  unfold Argument.next at h
  dsimp only at h
  split at h
  · cases h
    exact TypedFragment.whole_ofValue _
  · rcases Result.bind_eq_ok.mp h with ⟨g, hg, hsum⟩
    exact TypedFragment.whole_arithmetic (ha.compiled g hg) (TypedFragment.whole_ofValue _) hsum

theorem isWhole_of_single (hargs : forall a, a ∈ args -> a.IsWhole)
    (h : Argument.single name args = .ok a) : a.IsWhole := by
  cases Argument.single_eq_ok h
  exact hargs a List.mem_cons_self

theorem whole_textArgument (hargs : forall a, a ∈ args -> a.IsWhole)
    (h : TextMethod.textArgument name args = .ok f) : f.query.Whole := by
  rcases Result.bind_eq_ok.mp h with ⟨a, ha, h⟩
  rcases Result.bind_eq_ok.mp h with ⟨g, hg, h⟩
  have hfg : f = g := by
    split at h <;> cases h <;> rfl
  rw [hfg]
  exact (isWhole_of_single hargs ha).compiled g hg

end Argument

theorem Compiler.isCloser_nullTest (negated : Bool) :
    IsCloser (")" ++ Server.nullTest negated) := by
  cases negated <;> exact isCloser_sql rfl rfl

theorem Compiler.whole_binary {op : BinaryOp} {left right : Argument} {f : TypedFragment}
    (hleft : left.IsWhole) (hright : right.IsWhole) (h : binary op left right = .ok f) :
    f.query.Whole := by
  unfold binary at h
  split at h
  · rename_i subject test hnull
    rcases Result.bind_eq_ok.mp h with ⟨g, hg, hf⟩
    cases hf
    have hopen : IsOpener "(" := isOpener_sql rfl
    rw [Reader.nullTest?_eq] at hnull
    split at hnull
    · cases hnull
      exact TypedFragment.whole_surround hopen (hleft.compiled g hg) (isCloser_nullTest _) _
    split at hnull
    · cases hnull
      exact TypedFragment.whole_surround hopen (hright.compiled g hg) (isCloser_nullTest _) _
    · cases hnull
  · rcases Result.bind_eq_ok.mp h with ⟨l, hl, h⟩
    split at h
    · rename_i label hlabel
      have hright := TypedFragment.whole_of_enumLabel? hlabel
      exact TypedFragment.whole_operator (hleft.compiled l hl) hright h
    · rcases Result.bind_eq_ok.mp h with ⟨k, hk, h⟩
      exact TypedFragment.whole_operator (hleft.compiled l hl) (hright.compiled k hk) h

/-!
## Handlers
-/

def MethodHandler.KeepsWhole (handler : MethodHandler) : Prop :=
  forall {receiver : TypedFragment} {args : List Argument} {f : TypedFragment},
    receiver.query.Whole -> (forall a, a ∈ args -> a.IsWhole) -> handler receiver args = .ok f ->
      f.query.Whole

def Accessor.KeepsWhole (accessor : Accessor) : Prop :=
  forall {f g : TypedFragment}, f.query.Whole -> accessor f = .ok g -> g.query.Whole

structure CallRegistry.KeepsWhole (calls : CallRegistry) : Prop where
  methods : forall entry, entry ∈ calls.methods -> MethodHandler.KeepsWhole entry.2
  accessors : forall entry, entry ∈ calls.accessors -> Accessor.KeepsWhole entry.2

namespace CallRegistry

variable {calls : CallRegistry} {kind : TypeKind} {name : String}

theorem KeepsWhole.method (h : calls.KeepsWhole) {handler : MethodHandler}
    (hmethod : calls.method? kind name = some handler) : handler.KeepsWhole := by
  rcases Option.map_eq_some_iff.mp hmethod with ⟨entry, hentry, rfl⟩
  exact h.methods entry (List.mem_of_find?_eq_some hentry)

theorem KeepsWhole.accessor (h : calls.KeepsWhole) {accessor : Accessor}
    (haccessor : calls.accessor? kind name = some accessor) : accessor.KeepsWhole := by
  rcases Option.map_eq_some_iff.mp haccessor with ⟨entry, hentry, rfl⟩
  exact h.accessors entry (List.mem_of_find?_eq_some hentry)

end CallRegistry

namespace TextMethod

theorem isJoiner_any : IsJoiner (") " ++ "LIKE" ++ " (" ++ "'%' || escape_like(") := by
  have hbefore : IsJoiner ") LIKE (" := isJoiner_sql rfl rfl
  have hafter : IsJoiner " || escape_like(" := isJoiner_sql rfl rfl
  exact hbefore.append ((isWholeText_quoteLiteral "%").joiner hafter)

theorem isJoiner_anchor : IsJoiner (") " ++ "~*" ++ " (" ++ "'^' || escape_regexp(") := by
  have hbefore : IsJoiner ") ~* (" := isJoiner_sql rfl rfl
  have hafter : IsJoiner " || escape_regexp(" := isJoiner_sql rfl rfl
  exact hbefore.append ((isWholeText_quoteLiteral "^").joiner hafter)

theorem isCloser_any : IsCloser ") || '%')" := by
  have hbefore : IsJoiner ") || " := isJoiner_sql rfl rfl
  have hafter : IsCloser ")" := isCloser_sql rfl rfl
  exact hbefore.whole ((isWholeText_quoteLiteral "%").closer hafter)

theorem pattern_keepsWhole {handler : MethodHandler} {name op before after : String}
    (hhandler : forall receiver args, handler receiver args =
      (textArgument name args).bind fun argument =>
        .ok (pattern receiver op before argument after))
    (hbefore : IsJoiner (") " ++ op ++ " (" ++ before)) (hafter : IsCloser after) :
    handler.KeepsWhole := by
  intro receiver args f hreceiver hargs h
  rw [hhandler] at h
  rcases Result.bind_eq_ok.mp h with ⟨g, hg, hf⟩
  cases hf
  have hargument := Argument.whole_textArgument hargs hg
  have hopen : IsOpener "(" := isOpener_sql rfl
  exact ((((opening_empty.text hopen).nested hreceiver).joiner hbefore).nested hargument).closer
    hafter

theorem substring_keepsWhole : MethodHandler.KeepsWhole substring := by
  intro receiver args f hreceiver hargs h
  have hopen : IsOpener "substr(" := isOpener_sql rfl
  have hcomma : IsJoiner ", " := isJoiner_sql rfl rfl
  have hclose : IsCloser ")" := isCloser_sql rfl rfl
  have hfirst := ((opening_empty.text hopen).nested hreceiver).joiner hcomma
  cases args with
  | nil => cases h
  | cons start rest =>
      have hstart := hargs start List.mem_cons_self
      cases rest with
      | nil =>
          rcases Result.bind_eq_ok.mp h with ⟨⟨_, _⟩, hshape, h⟩
          cases hshape
          rcases Result.bind_eq_ok.mp h with ⟨g, hg, hf⟩
          cases hf
          have hposition := hstart.next (Reader.position_eq_ok hg)
          exact (hfirst.nested hposition).closer hclose
      | cons length rest =>
          have hlength := hargs length (List.mem_cons_of_mem _ List.mem_cons_self)
          cases rest with
          | nil =>
              rcases Result.bind_eq_ok.mp h with ⟨⟨_, _⟩, hshape, h⟩
              cases hshape
              rcases Result.bind_eq_ok.mp h with ⟨g, hg, h⟩
              rcases Result.bind_eq_ok.mp h with ⟨k, hk, hf⟩
              cases hf
              have hposition := hstart.next (Reader.position_eq_ok hg)
              have hcount := hlength.compiled k (Reader.position_eq_ok hk)
              exact (((hfirst.nested hposition).joiner hcomma).nested hcount).closer hclose
          | cons _ _ => cases h

end TextMethod

namespace Property

theorem around_keepsWhole {before after : String} (hbefore : IsOpener before)
    (hafter : IsCloser after) (type : SqlType) :
    Accessor.KeepsWhole (around before after type) := by
  intro f g hf h
  cases h
  exact TypedFragment.whole_surround hbefore hf hafter type

theorem isOpener_datePart {field : String}
    (hfield : Text.quoteLiteral field = "'" ++ field ++ "'") :
    IsOpener ("date_part('" ++ field ++ "', ") := by
  have hname : IsOpener "date_part(" := isOpener_sql rfl
  have hcomma : IsJoiner ", " := isJoiner_sql rfl rfl
  have hall := hname.append ((isWholeText_quoteLiteral field).joiner hcomma)
  rw [hfield] at hall
  have htext : "date_part(" ++ ("'" ++ field ++ "'" ++ ", ") = "date_part('" ++ field ++ "', " := by
    rw [show "date_part('" = "date_part(" ++ "'" from rfl, show "', " = "'" ++ ", " from rfl]
    simp only [String.append_assoc]
  exact htext ▸ hall

theorem datePart_keepsWhole {field : String}
    (hfield : Text.quoteLiteral field = "'" ++ field ++ "'") :
    Accessor.KeepsWhole (datePart field) :=
  around_keepsWhole (isOpener_datePart hfield) (isCloser_sql rfl rfl) _

theorem isOpener_second : IsOpener "floor(date_part('second', " := by
  have hname : IsOpener "floor(date_part(" := isOpener_sql rfl
  have hcomma : IsJoiner ", " := isJoiner_sql rfl rfl
  exact hname.append ((isWholeText_quoteLiteral "second").joiner hcomma)

end Property

theorem CallRegistry.builtin_keepsWhole : CallRegistry.builtin.KeepsWhole := by
  constructor
  · intro entry h
    simp only [builtin, List.mem_cons, List.not_mem_nil, or_false] at h
    rcases h with rfl | rfl | rfl | rfl | rfl
    · exact TextMethod.pattern_keepsWhole (fun _ _ => rfl) (isJoiner_sql rfl rfl)
        TextMethod.isCloser_any
    · exact TextMethod.pattern_keepsWhole (fun _ _ => rfl) TextMethod.isJoiner_any
        (isCloser_sql rfl rfl)
    · exact TextMethod.pattern_keepsWhole (fun _ _ => rfl) TextMethod.isJoiner_any
        TextMethod.isCloser_any
    · exact TextMethod.pattern_keepsWhole (fun _ _ => rfl) TextMethod.isJoiner_anchor
        (isCloser_sql rfl rfl)
    · exact TextMethod.substring_keepsWhole
  · intro entry h
    simp only [builtin, List.mem_cons, List.not_mem_nil, or_false] at h
    rcases h with rfl | rfl | rfl | rfl | rfl | rfl | rfl | rfl | rfl | rfl | rfl | rfl
    · exact Property.datePart_keepsWhole rfl
    · exact Property.datePart_keepsWhole rfl
    · exact Property.datePart_keepsWhole rfl
    · exact Property.datePart_keepsWhole rfl
    · exact Property.datePart_keepsWhole rfl
    · exact Property.around_keepsWhole Property.isOpener_second (isCloser_sql rfl rfl) _
    all_goals exact Property.around_keepsWhole (isOpener_sql rfl) (isCloser_sql rfl rfl) _

/-!
## Calls
-/

theorem Subquery.whole_expression {s : Subquery} {f : TypedFragment} (hs : s.frame.query.Whole)
    (h : s.expression = .ok f) : f.query.Whole := by
  have hopen : IsOpener "(" := isOpener_sql rfl
  unfold expression at h
  split at h
  · cases h
    exact ((opening_empty.text hopen).frame hs).closer (isCloser_sql rfl rfl)
  · cases h

namespace Compiler

variable {receiver f : TypedFragment} {args : List Argument}

theorem whole_containsItem {item : Argument} (hreceiver : receiver.query.Whole)
    (hitem : item.IsWhole) (h : containsItem receiver item = .ok f) : f.query.Whole := by
  rcases Result.bind_eq_ok.mp h with ⟨g, hg, h⟩
  have hopen : IsOpener "(" := isOpener_sql rfl
  have hany : IsJoiner ") = ANY(" := isJoiner_sql rfl rfl
  have hclose : IsCloser ")" := isCloser_sql rfl rfl
  split at h
  · cases h
  split at h
  · cases h
    have hfirst := (opening_empty.text hopen).nested (hitem.compiled g hg)
    exact ((hfirst.joiner hany).nested hreceiver).closer hclose
  · cases h

theorem whole_indexed {index : Argument} (hreceiver : receiver.query.Whole)
    (hindex : index.IsWhole) (h : indexed receiver index = .ok f) : f.query.Whole := by
  have hopen : IsOpener "(" := isOpener_sql rfl
  have hfirst := (opening_empty.text hopen).nested hreceiver
  unfold Compiler.indexed at h
  split at h
  · rcases Result.bind_eq_ok.mp h with ⟨g, hg, h⟩
    have hbracket : IsJoiner ")[" := isJoiner_sql rfl rfl
    have hclose : IsCloser "]" := isCloser_sql rfl rfl
    have hposition := ((hfirst.joiner hbracket).nested (hindex.next hg)).closer hclose
    split at h
    · cases h
      exact hposition
    · cases h
      exact hposition
    · cases h
  · rcases Result.bind_eq_ok.mp h with ⟨key, hkey, hf⟩
    cases hf
    exact hfirst.closedArrow.nested (hindex.compiled key hkey)
  · cases h

theorem whole_membership {values : Argument} {negated : Bool} (hreceiver : receiver.query.Whole)
    (hvalues : values.IsWhole) (h : membership receiver values negated = .ok f) :
    f.query.Whole := by
  have hopen : IsOpener "(" := isOpener_sql rfl
  have hclose : IsCloser ")" := isCloser_sql rfl rfl
  have hfirst := (opening_empty.text hopen).nested hreceiver
  unfold Compiler.membership at h
  split at h
  · have hset : IsJoiner (if negated then ") <> ALL(" else ") = ANY(") := by
      cases negated <;> exact isJoiner_sql rfl rfl
    dsimp only at h
    split at h
    · split at h
      · cases h
        exact ((hfirst.joiner hset).value _).closer hclose
      · cases h
    · cases h
      exact ((hfirst.joiner hset).value _).closer hclose
  · rename_i s hsubquery
    have hset : IsJoiner (if negated then ") NOT IN " else ") IN ") := by
      cases negated <;> exact isJoiner_sql rfl rfl
    rcases Result.bind_eq_ok.mp h with ⟨set, hvalue, hf⟩
    cases hf
    have hframe := hvalues.subquery s hsubquery
    exact (hfirst.joiner hset).nested (Subquery.whole_expression hframe hvalue)
  · cases h

theorem whole_overlap {values : Argument} (hreceiver : receiver.query.Whole)
    (hvalues : values.IsWhole) (h : overlap receiver values = .ok f) : f.query.Whole := by
  rcases Result.bind_eq_ok.mp h with ⟨g, hg, h⟩
  split at h
  · cases h
    exact TypedFragment.whole_combine hreceiver (isJoiner_sql rfl rfl) (hvalues.compiled g hg) _
  · cases h

theorem whole_native {name : String} (hreceiver : receiver.query.Whole)
    (hargs : forall a, a ∈ args -> a.IsWhole) (h : native? name receiver args = some (.ok f)) :
    f.query.Whole := by
  unfold native? at h
  split at h
  · rcases Result.bind_eq_ok.mp (Option.some.inj h) with ⟨a, ha, h⟩
    exact whole_containsItem hreceiver (Argument.isWhole_of_single hargs ha) h
  · rcases Result.bind_eq_ok.mp (Option.some.inj h) with ⟨a, ha, h⟩
    exact whole_indexed hreceiver (Argument.isWhole_of_single hargs ha) h
  · rcases Result.bind_eq_ok.mp (Option.some.inj h) with ⟨a, ha, h⟩
    exact whole_membership hreceiver (Argument.isWhole_of_single hargs ha) h
  · rcases Result.bind_eq_ok.mp (Option.some.inj h) with ⟨a, ha, h⟩
    exact whole_membership hreceiver (Argument.isWhole_of_single hargs ha) h
  · rcases Result.bind_eq_ok.mp (Option.some.inj h) with ⟨a, ha, h⟩
    exact whole_overlap hreceiver (Argument.isWhole_of_single hargs ha) h
  · cases h

theorem isWholeText_default {text : String} (h : text ∈ SqlFunction.defaultTexts) :
    IsWholeText text := by
  simp only [SqlFunction.defaultTexts, List.mem_cons, List.not_mem_nil, or_false] at h
  rcases h with rfl | rfl | rfl
  · exact isWholeText_quoteLiteral " "
  · exact isWholeText_sql rfl
  · exact isWholeText_sql rfl

theorem whole_functionCall {function : SqlFunction} (hcallable : function.isCallable = true)
    {args : List TypedFragment} (hargs : forall arg, arg ∈ args -> arg.query.Whole)
    (h : functionCall function args = .ok f) : f.query.Whole := by
  have hcomma : IsJoiner ", " := isJoiner_sql rfl rfl
  have hclose : IsCloser ")" := isCloser_sql rfl rfl
  have hitems : forall item, item ∈ args.map (·.query) -> item.Whole := by
    intro item hitem
    rcases List.mem_map.mp hitem with ⟨arg, harg, rfl⟩
    exact hargs arg harg
  unfold functionCall at h
  split at h
  · rename_i haccepts
    cases h
    have hcall := SqlFunction.isCall_of_accepts hcallable haccepts
    have hopen : IsOpener (function.name ++ "(") :=
      ⟨_, by simp, Word.opening_plain_mark (Or.inr rfl) (Server.isCall_iff.mp hcall).1⟩
    refine whole_joined_text (opening_empty.text hopen) hitems hcomma ?_
    cases hdefaults : function.missingDefaults args.length with
    | nil =>
        simp only [List.isEmpty_nil, Bool.or_true, if_true]
        exact hclose
    | cons text rest =>
        have htexts : forall t, t ∈ text :: rest -> IsWholeText t := by
          intro t ht
          rw [<- hdefaults] at ht
          exact isWholeText_default (SqlFunction.mem_defaultTexts hcallable ht)
        have hall := isWholeText_intercalate hcomma (List.cons_ne_nil text rest) htexts
        cases args with
        | nil =>
            rw [List.length_nil, SqlFunction.missingDefaults_zero hcallable haccepts] at hdefaults
            cases hdefaults
        | cons arg more => exact (hcomma.whole hall).closer hclose
  · cases h

theorem whole_compiled (hargs : forall a, a ∈ args -> a.IsWhole) {fs : List TypedFragment}
    (h : args.mapM (·.compiled) = .ok fs) : forall f, f ∈ fs -> f.query.Whole := by
  intro f hf
  rcases Result.exists_origin_of_mapM h hf with ⟨a, ha, hcompiled⟩
  exact (hargs a ha).compiled f hcompiled

theorem whole_sqlFunction {name : String} {receiver : Option TypedFragment}
    (hreceiver : forall r, r ∈ receiver -> r.query.Whole)
    (hargs : forall a, a ∈ args -> a.IsWhole) (h : sqlFunction name receiver args = .ok f) :
    f.query.Whole := by
  unfold sqlFunction at h
  split at h
  · cases h
  · rename_i function hlookup
    rcases Result.bind_eq_ok.mp h with ⟨fs, hfs, hcall⟩
    refine whole_functionCall (SqlFunction.isCallable_of_lookup? hlookup) ?_ hcall
    intro arg harg
    rcases List.mem_append.mp harg with hfirst | hrest
    · exact hreceiver arg (Option.mem_toList.mp hfirst)
    · exact whole_compiled hargs hfs arg hrest

theorem whole_methodCall {calls : CallRegistry} (hcalls : calls.KeepsWhole) {name : String}
    (hreceiver : receiver.query.Whole) (hargs : forall a, a ∈ args -> a.IsWhole)
    (h : methodCall calls name receiver args = .ok f) : f.query.Whole := by
  unfold methodCall at h
  dsimp only at h
  split at h
  · rename_i handler hmethod
    exact hcalls.method hmethod hreceiver hargs h
  · split at h
    · rename_i accessor haccessor
      split at haccessor
      · exact hcalls.accessor haccessor hreceiver h
      · cases haccessor
    · split at h
      · rename_i result hnative
        rw [h] at hnative
        exact whole_native hreceiver hargs hnative
      · split at h
        · refine whole_sqlFunction ?_ hargs h
          intro r hr
          cases hr
          exact hreceiver
        · cases h

/-!
## Paths
-/

theorem whole_step {calls : CallRegistry} (hcalls : calls.KeepsWhole) {p q : ResolvedPath}
    {step : PathStep} (hp : p.expr.query.Whole) (h : p.step calls step = .ok q) :
    q.expr.query.Whole := by
  cases step with
  | table slot => cases h
  | column name => cases h
  | key k asText =>
      rcases Result.bind_eq_ok.mp h with ⟨expr, hexpr, hq⟩
      cases hq
      exact TypedFragment.whole_jsonStep hp hexpr
  | index n asText =>
      rcases Result.bind_eq_ok.mp h with ⟨expr, hexpr, hq⟩
      cases hq
      exact TypedFragment.whole_jsonStep hp hexpr
  | derived name =>
      rw [ResolvedPath.step] at h
      split at h
      · cases h
      · rename_i accessor haccessor
        rcases Result.bind_eq_ok.mp h with ⟨expr, hexpr, hq⟩
        cases hq
        exact hcalls.accessor haccessor hp hexpr

theorem whole_steps {calls : CallRegistry} (hcalls : calls.KeepsWhole) {steps : List PathStep}
    {p q : ResolvedPath} (hp : p.expr.query.Whole)
    (h : steps.foldlM (ResolvedPath.step calls) p = .ok q) : q.expr.query.Whole := by
  induction steps generalizing p with
  | nil =>
      cases h
      exact hp
  | cons step rest ih =>
      rw [List.foldlM_cons] at h
      rcases Result.bind_eq_ok.mp h with ⟨next, hnext, hrest⟩
      exact ih (whole_step hcalls hp hnext) hrest

theorem whole_path {c : Compiler} (hcalls : c.calls.KeepsWhole) {path : List PathStep}
    {q : ResolvedPath} (h : c.resolve path = .ok q) : q.expr.query.Whole := by
  rcases resolvePath_cases h with ⟨slot, column, start, steps, -, hexpr, hsteps⟩
  have hstart : start.expr.query.Whole := by
    rw [hexpr]
    exact opening_empty.column slot column.name
  exact whole_steps hcalls hstart hsteps

end Compiler

/-!
## Expressions
-/

/-- The subqueries of an expression are whole, and so are the fragments in it that were compiled
beforehand. -/
structure Expr.IsWhole (e : Expr) : Prop where
  subquery : forall q, .subquery q ∈ e.sources -> q.frame.query.Whole
  compiled : forall f, .compiled f ∈ e.sources -> f.query.Whole

theorem Expr.IsWhole.mono {e e' : Expr} (h : e.IsWhole)
    (hsources : forall source, source ∈ e'.sources -> source ∈ e.sources) : e'.IsWhole :=
  ⟨fun q hq => h.subquery q (hsources _ hq), fun f hf => h.compiled f (hsources _ hf)⟩

namespace Compiler

variable {c : Compiler}

theorem isWhole_argument {e : Expr} (he : e.IsWhole)
    (hnode : forall f, c.node e = .ok f -> f.query.Whole) : Argument.IsWhole ⟨e, c.node e⟩ := by
  refine ⟨hnode, ?_⟩
  intro q hq
  dsimp only at hq
  rw [hq] at he
  exact he.subquery q List.mem_cons_self

mutual

theorem whole_node (hcalls : c.calls.KeepsWhole) (e : Expr) (he : e.IsWhole) {f : TypedFragment}
    (h : c.node e = .ok f) : f.query.Whole := by
  cases e with
  | field path =>
      rw [node] at h
      rcases Result.bind_eq_ok.mp h with ⟨q, hq, hf⟩
      cases hf
      exact whole_path hcalls hq
  | constant v =>
      rw [node] at h
      cases h
      exact TypedFragment.whole_ofValue v
  | unary op operand =>
      rw [node] at h
      rcases Result.bind_eq_ok.mp h with ⟨g, hg, hf⟩
      exact TypedFragment.whole_unary (whole_node hcalls operand (he.mono fun _ h => h) hg) hf
  | binary op left right =>
      rw [node] at h
      have hleft : left.IsWhole := he.mono fun _ h => List.mem_append_left _ h
      have hright : right.IsWhole := he.mono fun _ h => List.mem_append_right _ h
      exact whole_binary (isWhole_argument hleft fun _ => whole_node hcalls left hleft)
        (isWhole_argument hright fun _ => whole_node hcalls right hright) h
  | method name receiver args onServer =>
      rw [node] at h
      rcases Result.bind_eq_ok.mp h with ⟨g, hg, hcall⟩
      have hreceiver := whole_node hcalls receiver
        (he.mono fun _ h => List.mem_append_left _ h) hg
      refine whole_methodCall hcalls hreceiver (isWhole_arguments hcalls args ?_) hcall
      exact ⟨fun q hq => he.subquery q (List.mem_append_right _ hq),
        fun f hf => he.compiled f (List.mem_append_right _ hf)⟩
  | function name args =>
      rw [node] at h
      refine whole_sqlFunction (fun _ h => absurd h (Option.not_mem_none _))
        (isWhole_arguments hcalls args ?_) h
      exact ⟨he.subquery, he.compiled⟩
  | subquery s =>
      rw [node] at h
      exact Subquery.whole_expression (he.subquery s List.mem_cons_self) h
  | compiled fragment =>
      rw [node] at h
      cases h
      exact he.compiled f List.mem_cons_self
  | invalid error =>
      rw [node] at h
      cases h

theorem isWhole_arguments (hcalls : c.calls.KeepsWhole) (es : List Expr)
    (hes : (Expr.function "" es).IsWhole) : forall a, a ∈ c.arguments es -> a.IsWhole := by
  intro a ha
  cases es with
  | nil =>
      rw [arguments] at ha
      cases ha
  | cons e rest =>
      rw [arguments] at ha
      cases ha with
      | head =>
          have he : e.IsWhole := hes.mono fun _ h => List.mem_append_left _ h
          exact isWhole_argument he fun _ => whole_node hcalls e he
      | tail _ ha =>
          exact isWhole_arguments hcalls rest (hes.mono fun _ h => List.mem_append_right _ h) a ha

end

theorem whole_compile (hcalls : c.calls.KeepsWhole) {e : Expr} (he : e.IsWhole)
    {f : TypedFragment} (h : c.compile e = .ok f) : f.query.Whole := by
  refine whole_node hcalls (fold e) (he.mono ?_) h
  rw [Fold.sources_fold]
  exact fun _ h => h

end Compiler
end TypedQuery
