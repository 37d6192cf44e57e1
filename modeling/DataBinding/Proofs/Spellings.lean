import Mathlib.Data.List.Forall2
import DataBinding.Proofs.ExpressionText
import DataBinding.Proofs.FloatText

/-!
# Spellings of an expression

An expression may be written more freely than `Expr.toJson` writes it: `Json.Respelled` says how. What a node is made of
depends only on what its fields are read as (`FieldReading.node?_of_covers`), and its fields are found wherever its kind
and other members stand (`FieldReading.ofMembers?_of_perm`). So a respelled field is read as whatever the field was read
as (`FieldReading.covers_of_respelled`, by induction on the spelling), and an expression is read from all its spellings
(`Expr.ofJson?_of_respelled`). A text may change the floats of members that nobody asks for, and a spelling with other
such members is a spelling again (`Json.Respelled.mapNumbers`).
-/

namespace DataBinding

/-! ### Records in any order -/

namespace Json

variable {α : Type}

theorem lookup_eq_head?_filter (f : String) (members : List (String × α)) :
    members.lookup f = (members.filter fun m => m.1 == f).head?.map Prod.snd := by
  induction members with
  | nil => rfl
  | cons m members ih =>
    obtain ⟨g, a⟩ := m
    by_cases hg : g = f
    · simp [hg]
    · have hg' : (f == g) = false := beq_eq_false_iff_ne.2 (Ne.symm hg)
      rw [List.lookup_cons, hg', List.filter_cons_of_neg (by simpa using hg), ← ih]

theorem filter_eq_of_perm {p : α → Bool} {xs ys : List α} (h : xs.Perm ys) (honce : (ys.filter p).length ≤ 1) :
    xs.filter p = ys.filter p := by
  have hfilter := h.filter p
  match hys : ys.filter p with
  | [] => exact List.perm_nil.1 (hys ▸ hfilter)
  | [y] => exact List.perm_singleton.1 (hys ▸ hfilter)
  | _ :: _ :: _ => simp [hys] at honce

/-- The fields of a record are found in any order of its members, and whichever other members there are. -/
theorem ofMembers?_of_perm {fields : List String} {kept extra members : List (String × α)}
    (hperm : members.Perm (kept ++ extra)) (hkept : (kept.map Prod.fst).Nodup)
    (hextra : ∀ m ∈ extra, m.1 ∉ fields) :
    ofMembers? fields members = some (fields.map fun f => kept.lookup f) := by
  have honce : ∀ f, (kept.filter fun m => m.1 == f).length ≤ 1 := by
    intro f
    calc (kept.filter fun m => m.1 == f).length
        = (kept.map Prod.fst).count f := by
          rw [← List.countP_eq_length_filter, List.count, List.countP_map]
          rfl
      _ ≤ 1 := List.nodup_iff_count.1 hkept f
  have hfilter : ∀ f ∈ fields, members.filter (fun m => m.1 == f) = kept.filter fun m => m.1 == f := by
    intro f hf
    have hnone : extra.filter (fun m => m.1 == f) = [] := by
      rw [List.filter_eq_nil_iff]
      rintro m hm heq
      exact hextra m hm (eq_of_beq heq ▸ hf)
    have hboth : (kept ++ extra).filter (fun m => m.1 == f) = kept.filter fun m => m.1 == f := by
      rw [List.filter_append, hnone, List.append_nil]
    rw [filter_eq_of_perm hperm (hboth ▸ honce f), hboth]
  have hall : (fields.all fun f => (members.filter fun m => m.1 == f).length ≤ 1) = true := by
    rw [List.all_eq_true]
    intro f hf
    rw [hfilter f hf]
    exact decide_eq_true (honce f)
  have hlookup : ∀ f ∈ fields, members.lookup f = kept.lookup f := by
    intro f hf
    rw [lookup_eq_head?_filter, lookup_eq_head?_filter, hfilter f hf]
  rw [ofMembers?, if_pos hall, List.map_congr_left hlookup]

end Json

/-! ### Nodes in any order -/

namespace FieldReading

theorem ofObject_eq (ms : List (String × Json)) : ofObject ms = ms.map fun m => (m.1, ofJson m.2) := by
  induction ms with
  | nil => simp [ofObject]
  | cons m ms ih => simp [ofObject, ih]

theorem lookup_ofObject_of_not_mem {f : String} {ms : List (String × Json)} (h : f ∉ ms.map Prod.fst) :
    (ofObject ms).lookup f = none := by
  rw [ofObject_eq, List.lookup_eq_none_iff]
  intro r hr
  obtain ⟨m, hm, rfl⟩ := List.mem_map.1 hr
  rw [bne_iff_ne]
  rintro rfl
  exact h (List.mem_map_of_mem hm)

/-- A node is put together from the fields that were kept, wherever its kind and other members stand. -/
theorem ofMembers?_of_perm {kind? : Json → Option ExprKind} {k : ExprKind} (hkind : kind? (.string k.tag) = some k)
    {kept extra members : List (String × Json)}
    (hperm : members.Perm (("kind", .string k.tag) :: (kept ++ extra))) (hkept : (kept.map Prod.fst).Sublist k.fields)
    (hextra : ∀ m ∈ extra, m.1 ∉ "kind" :: k.fields) :
    ofMembers? kind? (ofObject members) = node? k (k.fields.map fun f => (ofObject kept).lookup f) := by
  obtain ⟨hnotField, hnodup⟩ := List.nodup_cons.1 k.nodup_fields
  have hrest : ∀ m ∈ ofObject kept ++ ofObject extra, m.1 ≠ "kind" := by
    rw [ofObject_eq, ofObject_eq, ← List.map_append]
    intro r hr heq
    obtain ⟨m, hm, rfl⟩ := List.mem_map.1 hr
    obtain hm | hm := List.mem_append.1 hm
    · exact hnotField (heq ▸ hkept.subset (List.mem_map_of_mem hm))
    · exact hextra m hm (List.mem_cons.2 (.inl heq))
  have hreadings : (ofObject members).Perm
      (("kind", ofJson (.string k.tag)) :: (ofObject kept ++ ofObject extra)) := by
    simpa [ofObject_eq] using hperm.map fun m => (m.1, ofJson m.2)
  have hkinds : (ofObject members).filter (fun m => m.1 == "kind") = [("kind", ofJson (.string k.tag))] := by
    have hone : (ofObject kept ++ ofObject extra).filter (fun m => m.1 == "kind") = [] := by
      rw [List.filter_eq_nil_iff]
      intro m hm
      simpa using hrest m hm
    rw [← List.perm_singleton]
    simpa [hone] using hreadings.filter fun m => m.1 == "kind"
  have hothers : ((ofObject members).filter fun m => m.1 != "kind").Perm (ofObject kept ++ ofObject extra) := by
    have hself : (ofObject kept ++ ofObject extra).filter (fun m => m.1 != "kind") =
        ofObject kept ++ ofObject extra := by
      rw [List.filter_eq_self]
      intro m hm
      simpa using hrest m hm
    simpa [hself] using hreadings.filter fun m => m.1 != "kind"
  have hnames : ((ofObject kept).map Prod.fst).Nodup := by
    have hfst : (ofObject kept).map Prod.fst = kept.map Prod.fst := by simp [ofObject_eq, Function.comp_def]
    rw [hfst]
    exact hnodup.sublist hkept
  have hunknown : ∀ m ∈ ofObject extra, m.1 ∉ k.fields := by
    rw [ofObject_eq]
    intro r hr hf
    obtain ⟨m, hm, rfl⟩ := List.mem_map.1 hr
    exact hextra m hm (List.mem_cons_of_mem _ hf)
  have hfields := Json.ofMembers?_of_perm hothers hnames hunknown
  simp [ofMembers?, hkinds, hfields, json_ofJson, hkind]

/-! ### Readings of fields -/

/-- Whatever the field `a` is read as, `b` is read as the same. -/
structure Covers (a b : Option FieldReading) : Prop where
  text {s : String} : text a = some s → text b = some s
  texts {ss : List String} : texts a = some ss → texts b = some ss
  expr {e : Expr} : expr a = some e → expr b = some e
  exprs {es : List Expr} : exprs a = some es → exprs b = some es
  ancestor {n : UInt32} : ancestor a = some n → ancestor b = some n
  fromHost {h : Bool} : fromHost a = some h → fromHost b = some h
  constant {l : Literal} : Json.required (fun r => Literal.ofJson? r.json) a = some l →
    Json.required (fun r => Literal.ofJson? r.json) b = some l
  unaryOp {op : UnaryOp} : Json.required (fun r => UnaryOp.ofJson? r.json) a = some op →
    Json.required (fun r => UnaryOp.ofJson? r.json) b = some op
  binaryOp {op : BinaryOp} : Json.required (fun r => BinaryOp.ofJson? r.json) a = some op →
    Json.required (fun r => BinaryOp.ofJson? r.json) b = some op

theorem Covers.refl (a : Option FieldReading) : Covers a a :=
  ⟨id, id, id, id, id, id, id, id, id⟩

/-- Fields that are read as the same make the same node. -/
theorem node?_of_covers {k : ExprKind} {as bs : List (Option FieldReading)} (h : List.Forall₂ Covers as bs) {e : Expr}
    (he : node? k as = some e) : node? k bs = some e := by
  unfold node? at he
  split at he
  any_goals contradiction
  all_goals
    rcases h with _ | ⟨h₁, _ | ⟨h₂, _ | ⟨h₃, _ | _⟩⟩⟩
    simp only [node?, Option.bind_eq_bind, Option.bind_eq_some_iff, Option.pure_def, Option.some_inj] at he ⊢
    grind [Covers.text, Covers.texts, Covers.expr, Covers.exprs, Covers.ancestor, Covers.fromHost, Covers.constant,
      Covers.unaryOp, Covers.binaryOp]

end FieldReading

/-! ### Spellings -/

namespace Json

/-- A field that may be left out, because it holds its default value. -/
inductive IsDefault : String → Json → Prop
  | ancestor : IsDefault "ancestor" (.nat 0)
  | host : IsDefault "access_host_scope" (.bool false)

mutual

/-- The second value spells what the first one spells: any of the nodes in it may have its members in another order,
members with names that its kind does not know, and no members for fields that hold their default values. -/
inductive Respelled : Json → Json → Prop
  | same (j : Json) : Respelled j j
  | nodes {js js' : List Json} : RespelledNodes js js' → Respelled (.array js) (.array js')
  | node {k : ExprKind} {values : List Json} {kept extra members : List (String × Json)} :
      values.length = k.fields.length → RespelledFields (k.fields.zip values) kept →
      (∀ m ∈ extra, m.1 ∉ "kind" :: k.fields) → members.Perm (("kind", .string k.tag) :: (kept ++ extra)) →
      Respelled (Expr.node k values) (.object members)

inductive RespelledNodes : List Json → List Json → Prop
  | nil : RespelledNodes [] []
  | cons {k : ExprKind} {values js js' : List Json} {j : Json} :
      Respelled (Expr.node k values) j → RespelledNodes js js' →
      RespelledNodes (Expr.node k values :: js) (j :: js')

inductive RespelledFields : List (String × Json) → List (String × Json) → Prop
  | nil : RespelledFields [] []
  | keep {f : String} {j j' : Json} {fields kept : List (String × Json)} :
      Respelled j j' → RespelledFields fields kept → RespelledFields ((f, j) :: fields) ((f, j') :: kept)
  | drop {f : String} {j : Json} {fields kept : List (String × Json)} :
      IsDefault f j → RespelledFields fields kept → RespelledFields ((f, j) :: fields) kept

end

theorem RespelledFields.names {fields kept : List (String × Json)} (h : RespelledFields fields kept) :
    (kept.map Prod.fst).Sublist (fields.map Prod.fst) := by
  induction fields generalizing kept with
  | nil =>
    cases h
    exact .slnil
  | cons m fields ih =>
    cases h with
    | keep _ h => exact (ih h).cons_cons _
    | drop _ h => exact (ih h).cons _

end Json

namespace FieldReading

open Json

/-- A field that may be left out is read as its default value. -/
theorem covers_of_isDefault {f : String} {j : Json} (h : IsDefault f j) : Covers (some (ofJson j)) none := by
  cases h <;> constructor <;>
    simp [text, texts, expr, exprs, ancestor, fromHost, required, orDefault, ofJson, Json.text?, Json.texts?,
      Json.bool?, Json.natBelow?, Json.nat, Json.int, Json.choice?, Literal.ofJson?, UnaryOp.ofJson?, BinaryOp.ofJson?,
      eq_comm]

theorem choice?_node (k : ExprKind) (values : List Json) : (Expr.node k values).choice? = none := by
  unfold Expr.node
  cases k.fields.zip values <;> rfl

theorem type_not_mem_fields (k : ExprKind) : "type" ∉ "kind" :: k.fields := by
  cases k <;> decide

/-- A node is no constant. -/
theorem literal_node (k : ExprKind) (values : List Json) : Literal.ofJson? (Expr.node k values) = none := by
  have hnone : (("kind", Json.string k.tag) :: k.fields.zip values).lookup "type" = none := by
    rw [List.lookup_eq_none_iff]
    intro m hm
    rw [bne_iff_ne]
    rintro heq
    refine type_not_mem_fields k (heq ▸ ?_)
    obtain rfl | hm := List.mem_cons.1 hm
    · exact List.mem_cons_self
    · exact List.mem_cons_of_mem _ (List.of_mem_zip hm).1
  simp only [Expr.node, Literal.ofJson?, Json.ofMembers?]
  split_ifs
  · simp [hnone]
  · rfl

/-- A node is read as an expression only. -/
theorem covers_node {k : ExprKind} {values : List Json} {j : Json}
    (h : ∀ {e}, (ofJson (Expr.node k values)).expr? = some e → (ofJson j).expr? = some e) :
    Covers (some (ofJson (Expr.node k values))) (some (ofJson j)) := by
  have hchoice := choice?_node k values
  have hconstant := literal_node k values
  have hexprs : (ofJson (Expr.node k values)).exprs? = none := by simp [Expr.node, ofJson]
  constructor
  case expr => exact h
  all_goals
    simp [text, texts, exprs, ancestor, fromHost, required, orDefault, json_ofJson, UnaryOp.ofJson?, BinaryOp.ofJson?,
      hchoice, hconstant, hexprs]
  all_goals simp [Expr.node, Json.text?, Json.texts?, Json.bool?, Json.natBelow?]

/-- A list of nodes is read as a list of expressions only. -/
theorem covers_nodes {js js' : List Json} (h : RespelledNodes js js')
    (hexprs : ∀ {es}, (js.map ofJson).mapM (·.expr?) = some es → (js'.map ofJson).mapM (·.expr?) = some es) :
    Covers (some (ofJson (.array js))) (some (ofJson (.array js'))) := by
  cases h with
  | nil => exact .refl _
  | @cons k values js js' j hj hs =>
    have hchoice := choice?_node k values
    have hexpr : (ofJson (.array (Expr.node k values :: js))).expr? = none := by
      simp [ofJson, ofArray, ofItems?, Expr.node, ExprKind.ofInnerJson?]
    have htexts : (Json.array (Expr.node k values :: js)).texts? = none := by
      simp [Json.texts?, Expr.node, Json.text?]
    have hconstant : Literal.ofJson? (.array (Expr.node k values :: js)) = none := by
      unfold Literal.ofJson?
      split
      next hobject => cases hobject
      next harray =>
        obtain ⟨rfl, -⟩ := List.cons.inj (Json.array.inj harray)
        rw [hchoice, Option.bind_none]
      next => rfl
    constructor
    case exprs =>
      intro es he
      simp only [exprs, required, ofJson, ofArray_eq, Option.bind_some] at he ⊢
      exact hexprs he
    all_goals
      simp [text, texts, expr, ancestor, fromHost, required, orDefault, json_ofJson, UnaryOp.ofJson?, BinaryOp.ofJson?,
        Json.text?, Json.bool?, Json.natBelow?, Json.choice?, hexpr, htexts, hconstant]

/-- A node that is read is read as the same with its members respelled. -/
theorem ofMembers?_of_respelled {kind? : Json → Option ExprKind} {k : ExprKind}
    (hkind : kind? (.string k.tag) = some k) {values : List Json} {kept extra members : List (String × Json)}
    (hlen : values.length = k.fields.length)
    (hfields : RespelledFields (k.fields.zip values) kept)
    (hcovers : ((k.fields.zip values).map Prod.fst).Nodup →
      ∀ f, Covers ((ofObject (k.fields.zip values)).lookup f) ((ofObject kept).lookup f))
    (hextra : ∀ m ∈ extra, m.1 ∉ "kind" :: k.fields)
    (hperm : members.Perm (("kind", .string k.tag) :: (kept ++ extra))) {e : Expr}
    (he : ofMembers? kind? (ofObject (("kind", .string k.tag) :: k.fields.zip values)) = some e) :
    ofMembers? kind? (ofObject members) = some e := by
  have hnames : (k.fields.zip values).map Prod.fst = k.fields := List.map_fst_zip hlen.ge
  have hkept := hfields.names
  have hall : ((k.fields.zip values).map Prod.fst).Sublist k.fields := by rw [hnames]
  rw [hnames] at hcovers hkept
  have hcovers := hcovers (List.nodup_cons.1 k.nodup_fields).2
  rw [ofMembers?_of_perm hkind (by rw [List.append_nil (k.fields.zip values)]) hall (List.forall_mem_nil _)] at he
  rw [ofMembers?_of_perm hkind hperm hkept hextra]
  refine node?_of_covers ?_ he
  rw [List.forall₂_map_left_iff, List.forall₂_map_right_iff, List.forall₂_same]
  exact fun f _ => hcovers f

mutual

/-- A respelled field is read as whatever it was read as. -/
theorem covers_of_respelled {j j' : Json} : Respelled j j' → Covers (some (ofJson j)) (some (ofJson j'))
  | .same j => .refl _
  | .nodes h => covers_nodes h (exprs_of_respelled h)
  | @Respelled.node k _ _ _ _ hlen hfields hextra hperm => by
    refine covers_node ?_
    simp only [Expr.node, ofJson]
    exact ofMembers?_of_respelled k.ofTag?_tag hlen hfields (lookup_of_respelled hfields) hextra hperm

theorem exprs_of_respelled {js js' : List Json} : RespelledNodes js js' → ∀ {es},
    (js.map ofJson).mapM (·.expr?) = some es → (js'.map ofJson).mapM (·.expr?) = some es
  | .nil, _, he => he
  | .cons h hs, es, he => by
    rw [List.map_cons, List.mapM_cons, Option.bind_eq_bind, Option.bind_eq_some_iff] at he
    obtain ⟨e, hhead, he⟩ := he
    rw [Option.bind_eq_bind, Option.bind_eq_some_iff] at he
    obtain ⟨es, htail, hes⟩ := he
    obtain rfl := Option.some.inj hes
    have hhead : (ofJson _).expr? = some e := (covers_of_respelled h).expr hhead
    simp [hhead, exprs_of_respelled hs htail]

theorem lookup_of_respelled {fields kept : List (String × Json)} :
    RespelledFields fields kept → (fields.map Prod.fst).Nodup → ∀ f,
      Covers ((ofObject fields).lookup f) ((ofObject kept).lookup f)
  | .nil, _, f => .refl _
  | .keep h hs, hnodup, f => by
    have hhead := covers_of_respelled h
    have htail := lookup_of_respelled hs (List.nodup_cons.1 hnodup).2 f
    simp only [ofObject, List.lookup_cons]
    split
    · exact hhead
    · exact htail
  | .drop h hs, hnodup, f => by
    obtain ⟨hnotMem, hnodup⟩ := List.nodup_cons.1 hnodup
    have hhead := covers_of_isDefault h
    have htail := lookup_of_respelled hs hnodup f
    simp only [ofObject, List.lookup_cons]
    split
    next heq =>
      -- no other field has this name
      obtain rfl := eq_of_beq heq
      rw [lookup_ofObject_of_not_mem fun hmem => hnotMem (hs.names.subset hmem)]
      exact hhead
    · exact htail

end

end FieldReading

/-! ### Texts -/

namespace Json

theorem mapMembers_zip (f : Number → Number) (fields : List String) (values : List Json) :
    mapMembers f (fields.zip values) = fields.zip (mapItems f values) := by
  rw [mapMembers_eq, mapItems_eq, List.zip_map_right]
  rfl

theorem mapNumbers_node (f : Number → Number) (k : ExprKind) (values : List Json) :
    (Expr.node k values).mapNumbers f = Expr.node k (mapItems f values) := by
  rw [Expr.node, mapNumbers, mapMembers, mapMembers_zip, mapNumbers, Expr.node]

theorem IsDefault.mapNumbers {f : Number → Number} (hzero : f (.int 0) = .int 0) {name : String} {j : Json}
    (h : IsDefault name j) : IsDefault name (j.mapNumbers f) := by
  cases h with
  | ancestor =>
    have hnat : (nat 0).mapNumbers f = nat 0 := congrArg Json.number hzero
    rw [hnat]
    exact .ancestor
  | host => exact .host

mutual

/-- A spelling with other numbers is a spelling with other numbers in the members that nobody asks for. -/
theorem Respelled.mapNumbers {f : Number → Number} (hzero : f (.int 0) = .int 0) {j j' : Json} :
    Respelled j j' → Respelled (j.mapNumbers f) (j'.mapNumbers f)
  | .same j => .same _
  | .nodes h => .nodes (h.mapItems hzero)
  | @Respelled.node k _ _ extra _ hlen hfields hextra hperm => by
    have hmapped := hfields.mapMembers hzero
    rw [mapMembers_zip] at hmapped
    have hunknown : ∀ m ∈ Json.mapMembers f extra, m.1 ∉ "kind" :: k.fields := by
      rw [mapMembers_eq]
      intro m hm
      obtain ⟨m', hm', rfl⟩ := List.mem_map.1 hm
      exact hextra m' hm'
    rw [mapNumbers_node, Json.mapNumbers]
    refine .node (by simpa [mapItems_eq] using hlen) hmapped hunknown ?_
    simpa [mapMembers_eq, Json.mapNumbers] using hperm.map fun m => (m.1, m.2.mapNumbers f)

theorem RespelledNodes.mapItems {f : Number → Number} (hzero : f (.int 0) = .int 0) {js js' : List Json} :
    RespelledNodes js js' → RespelledNodes (mapItems f js) (mapItems f js')
  | .nil => .nil
  | .cons h hs => by
    have hhead := h.mapNumbers hzero
    rw [mapNumbers_node] at hhead
    rw [Json.mapItems, Json.mapItems, mapNumbers_node]
    exact .cons hhead (hs.mapItems hzero)

theorem RespelledFields.mapMembers {f : Number → Number} (hzero : f (.int 0) = .int 0)
    {fields kept : List (String × Json)} :
    RespelledFields fields kept → RespelledFields (mapMembers f fields) (mapMembers f kept)
  | .nil => .nil
  | .keep h hs => .keep (h.mapNumbers hzero) (hs.mapMembers hzero)
  | .drop h hs => .drop (h.mapNumbers hzero) (hs.mapMembers hzero)

end

/-- The numbers that JSON values hold: integers of 64 bits, signed or not, and finite floats. -/
def Number.Proper : Number → Prop
  | .int n => Int64.minValue.toInt ≤ n ∧ n < UInt64.size
  | .float x => x.isFinite = true

/-- What the number is read as. -/
def Number.reread (n : Number) : Number := (Number.ofChars? n.chars).getD n

theorem Number.ReadsAs.reread_eq {n m : Number} (h : n.ReadsAs m) : n.reread = m := by
  rw [reread, h.spelled, Option.getD_some]

theorem Number.Proper.readsAs {n : Number} (h : n.Proper) : n.ReadsAs n.reread := by
  obtain ⟨m, hm⟩ : ∃ m, n.ReadsAs m := by
    cases n with
    | int n => exact ⟨_, readsBack_int h.1 h.2⟩
    | float x => exact exists_readsAs_float h
  rwa [hm.reread_eq]

end Json

namespace Expr

/-- A spelling of an expression is read as the expression. -/
theorem ofJson?_of_respelled {e : Expr} {j : Json} (h : Json.Respelled e.toJson j) (he : ofJson? e.toJson = some e) :
    ofJson? j = some e := by
  rw [toJson_eq_node e] at h he
  generalize hv : node e.kind e.fieldValues = v at h he
  cases h with
  | same => exact he
  | nodes => cases hv
  | @node k values kept extra members hlen hfields hextra hperm =>
    exact FieldReading.ofMembers?_of_respelled k.ofTag?_tag hlen hfields (FieldReading.lookup_of_respelled hfields)
      hextra hperm he

/-- A text is read as an expression without floats if it is a text of JSON that spells the expression. Both layouts of
a spelling are such texts, if it nests no deeper than a reader of JSON goes: members that nobody asks for may hold what
they like, and floats there may be read as others. -/
theorem parse_respelled {e : Expr} (hvalid : e.validate = .ok ()) (hfloat : e.IsFloatFree) {j : Json}
    (hj : Json.Respelled e.toJson j) :
    (∀ text, Json.parse? text = some j → parse text = .ok e) ∧
      (j.depth ≤ Json.maxDepth → (∀ n ∈ j.numbers, n.Proper) →
        parse j.pretty = .ok e ∧ parse j.compress = .ok e) := by
  have hread {j : Json} (hj : Json.Respelled e.toJson j) {text : String} (htext : Json.parse? text = some j) :
      parse text = .ok e := by
    rw [parse, read, htext, Option.bind_some, ofJson?_of_respelled hj (ofJson?_toJson hfloat).2]
    simp only [hvalid]
  refine ⟨fun _ => hread hj, ?_⟩
  intro hdepth hproper
  have hreads : ∀ n ∈ j.numbers, n.ReadsAs n.reread := fun n hn => (hproper n hn).readsAs
  have hzero : (Json.Number.int 0).reread = .int 0 := (Json.readsBack_int (by decide) (by decide)).reread_eq
  have hsame : e.toJson.mapNumbers Json.Number.reread = e.toJson :=
    Json.mapNumbers_of_same fun n hn => (readsBack_of_mem_numbers hfloat n hn).reread_eq
  have hmapped := hj.mapNumbers hzero
  rw [hsame] at hmapped
  exact ⟨hread hmapped (Json.parse?_pretty_mapNumbers hreads hdepth),
    hread hmapped (Json.parse?_compress_mapNumbers hreads hdepth)⟩

/-- The member `name` of the name `user$`, written by hand: kinds come last, defaults are left out, and there are notes
that are no part of an expression. -/
def handWritten : Json :=
  .object [("name", .string "name"),
    ("object", .object [("name", .string "user$"), ("note", .number (.float 1.5)), ("kind", .string "access_scope")]),
    ("key", .array [.object [("kind", .string "nothing")]]), ("kind", .string "access_member")]

theorem parse_respelled_handWritten :
    (member (scope "user$" 0 false) "name").validate = .ok () ∧ (member (scope "user$" 0 false) "name").IsFloatFree ∧
      Json.Respelled (member (scope "user$" 0 false) "name").toJson handWritten ∧
      handWritten.depth ≤ Json.maxDepth ∧ (∀ n ∈ handWritten.numbers, n.Proper) ∧
      parse handWritten.pretty = .ok (member (scope "user$" 0 false) "name") ∧
      parse handWritten.compress = .ok (member (scope "user$" 0 false) "name") := by
  have hvalid : (member (scope "user$" 0 false) "name").validate = .ok () := by
    have hnames : checkName "name" = .ok () ∧ checkName "user$" = .ok () := ⟨rfl, rfl⟩
    simp [validate, validateAll, checkNode, maxDepth, children, hnames]
  have hfloat : (member (scope "user$" 0 false) "name").IsFloatFree := by decide
  have hscope : Json.Respelled (scope "user$" 0 false).toJson
      (.object [("name", .string "user$"), ("note", .number (.float 1.5)), ("kind", .string "access_scope")]) :=
    @Json.Respelled.node .accessScope _ [("name", .string "user$")] [("note", .number (.float 1.5))] _ rfl
      (.keep (.same _) (.drop .ancestor (.drop .host .nil))) (by decide) (List.perm_append_singleton _ [_, _])
  have hspelled : Json.Respelled (member (scope "user$" 0 false) "name").toJson handWritten :=
    @Json.Respelled.node .accessMember _ [("object", _), ("name", .string "name")]
      [("key", .array [.object [("kind", .string "nothing")]])] _ rfl
      (.keep hscope (.keep (.same _) .nil)) (by decide)
      ((List.Perm.swap _ _ _).trans (List.perm_append_singleton _ [_, _, _]))
  have hproper : ∀ n ∈ handWritten.numbers, n.Proper := by
    intro n hn
    obtain rfl : n = .float 1.5 := by
      simpa [handWritten, Json.numbers, Json.memberNumbers, Json.itemNumbers] using hn
    rfl
  have htexts := (parse_respelled hvalid hfloat hspelled).2 (by decide) hproper
  exact ⟨hvalid, hfloat, hspelled, by decide, hproper, htexts⟩

end Expr

end DataBinding
