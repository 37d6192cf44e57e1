import DataBinding.Expr.Validity
import DataBinding.Proofs.JsonText
import DataBinding.Proofs.Orderly

/-!
# Expressions and their texts

An expression is written as an object with a member for its kind and one for each of its fields (`exists_node`), and a
field is a text, a flag, a level, a list of texts, a constant, a child or a list of children (`IsField`). Reading the
object gives each field back, and the node with them (`ofMembers?_node`), so decoding undoes encoding
(`ofJson?_toJson`). A node adds at most two containers to those of its children, itself and a list, and a valid
expression has no more than `maxDepth` nodes above one another: its text stays within what a reader of JSON accepts
(`depth_toJson_le`).
-/

namespace DataBinding

/-! ### Records -/

namespace Json

variable {α : Type}

theorem lookup_zip {fields : List String} {values : List α} (hlen : values.length = fields.length)
    (hnodup : fields.Nodup) : (fields.map fun f => (fields.zip values).lookup f) = values.map some := by
  induction fields generalizing values with
  | nil =>
    obtain rfl := List.length_eq_zero_iff.1 hlen
    rfl
  | cons f fields ih =>
    cases values with
    | nil => cases hlen
    | cons v values =>
      obtain ⟨hf, hnodup⟩ := List.nodup_cons.1 hnodup
      have htail := ih (Nat.succ.inj hlen) hnodup
      have hskip : ∀ g ∈ fields, ((f, v) :: fields.zip values).lookup g = (fields.zip values).lookup g := by
        intro g hg
        have hne : (g == f) = false := by
          rw [beq_eq_false_iff_ne]
          rintro rfl
          exact hf hg
        simp [List.lookup_cons, hne]
      simp [htail, List.map_congr_left hskip]

/-- The fields of a record that was written in full are found again. -/
theorem ofMembers?_zip {fields : List String} {values : List α} (hlen : values.length = fields.length)
    (hnodup : fields.Nodup) : ofMembers? fields (fields.zip values) = some (values.map some) := by
  have honce : ∀ f ∈ fields, ((fields.zip values).filter fun m => m.1 == f).length ≤ 1 := by
    intro f _
    calc ((fields.zip values).filter fun m => m.1 == f).length
        = ((fields.zip values).map Prod.fst).count f := by
          rw [← List.countP_eq_length_filter, List.count, List.countP_map]
          rfl
      _ = fields.count f := by rw [List.map_fst_zip (by omega)]
      _ ≤ 1 := List.nodup_iff_count.1 hnodup f
  rw [ofMembers?, if_pos (by simpa using honce), lookup_zip hlen hnodup]

end Json

/-! ### Names of kinds and operations -/

theorem ExprKind.ofTag?_tag (k : ExprKind) : ofTag? k.tag = some k := by
  cases k <;> decide

theorem UnaryOp.ofJson?_tag (op : UnaryOp) : ofJson? (.string op.tag) = some op := by
  cases op <;> decide

theorem BinaryOp.ofJson?_tag (op : BinaryOp) : ofJson? (.string op.tag) = some op := by
  cases op <;> decide

theorem ExprKind.nodup_fields (k : ExprKind) : ("kind" :: k.fields).Nodup := by
  cases k <;> decide

/-! ### Constants -/

/-- A constant that is no float is read back. -/
theorem Literal.ofJson?_toJson {l : Literal} (hl : ∀ x, l ≠ .float x) : ofJson? l.toJson = some l := by
  cases l with
  | float x => exact absurd rfl (hl x)
  | int n =>
    have hbounds : Int64.minValue.toInt ≤ n.toInt ∧ n.toInt ≤ Int64.maxValue.toInt :=
      ⟨Int64.minValue_le_toInt n, Int64.toInt_le n⟩
    have hint : int? (.int n.toInt) = some (.int n) := by
      rw [Json.int, int?, if_pos hbounds, Int64.ofInt_toInt]
    exact hint
  | undefined => rfl
  | null => rfl
  | bool b => rfl
  | text s => rfl

/-! ### Nodes -/

theorem Expr.allToJson_eq (es : List Expr) : allToJson es = es.map toJson := by
  induction es with
  | nil => rfl
  | cons e es ih => rw [allToJson, ih, List.map_cons]

namespace FieldReading

theorem json_ofJson (j : Json) : (ofJson j).json = j := by
  cases j <;> simp [ofJson]

theorem ofArray_eq (js : List Json) : ofArray js = js.map ofJson := by
  induction js with
  | nil => simp [ofArray]
  | cons j js ih => simp [ofArray, ih]

theorem ofObject_zip (fields : List String) (values : List Json) :
    ofObject (fields.zip values) = fields.zip (values.map ofJson) := by
  induction fields generalizing values with
  | nil => simp [ofObject]
  | cons f fields ih =>
    cases values with
    | nil => simp [ofObject]
    | cons v values => simp [ofObject, ih]

/-- What was written as a node is put together from what was written as its fields. -/
theorem ofMembers?_node {kind? : Json → Option ExprKind} {k : ExprKind} (hkind : kind? (.string k.tag) = some k)
    {values : List Json} (hlen : values.length = k.fields.length) :
    ofMembers? kind? (ofObject (("kind", .string k.tag) :: k.fields.zip values)) =
      node? k (values.map fun j => some (ofJson j)) := by
  obtain ⟨hnotField, hnodup⟩ := List.nodup_cons.1 k.nodup_fields
  have hname : ∀ m ∈ k.fields.zip (values.map ofJson), m.1 ≠ "kind" := by
    rintro ⟨f, r⟩ hm rfl
    exact hnotField (List.of_mem_zip hm).1
  have hkinds : (k.fields.zip (values.map ofJson)).filter (fun m => m.1 == "kind") = [] := by
    rw [List.filter_eq_nil_iff]
    intro m hm
    simpa using hname m hm
  have hothers : (k.fields.zip (values.map ofJson)).filter (fun m => m.1 != "kind") =
      k.fields.zip (values.map ofJson) := by
    rw [List.filter_eq_self]
    intro m hm
    simpa using hname m hm
  have hlen' : (values.map ofJson).length = k.fields.length := by simpa using hlen
  have hfields := Json.ofMembers?_zip hlen' hnodup
  rw [ofObject, ofObject_zip, ofMembers?]
  simp [hkinds, hothers, hfields, json_ofJson, hkind, Function.comp_def]

theorem exprs_allToJson {es : List Expr} (h : ∀ c ∈ es, (ofJson c.toJson).expr? = some c) :
    exprs (some (ofJson (.array (Expr.allToJson es)))) = some es := by
  have hmap : (es.map fun c => ofJson c.toJson).mapM (·.expr?) = some es := by
    induction es with
    | nil => rfl
    | cons e es ih =>
      have he := h e List.mem_cons_self
      have htail := ih fun c hc => h c (List.mem_cons_of_mem _ hc)
      simp [he, htail]
  simpa [exprs, Json.required, ofJson, ofArray_eq, Expr.allToJson_eq, Function.comp_def] using hmap

theorem texts_strings (ss : List String) : texts (some (ofJson (.strings ss))) = some ss := by
  have hmap : (ss.map Json.string).mapM Json.text? = some ss := by
    induction ss with
    | nil => rfl
    | cons s ss ih => simp [Json.text?, ih]
  simpa [texts, Json.required, json_ofJson, Json.strings, Json.texts?] using hmap

theorem ancestor_nat (a : UInt32) : ancestor (some (ofJson (.nat a.toNat))) = some a := by
  have hlt : (a.toNat : Int) < UInt32.size := Int.ofNat_lt.2 a.toNat_lt_size
  have hbelow : (Json.nat a.toNat).natBelow? UInt32.size = some a.toNat := by
    rw [Json.nat, Json.int, Json.natBelow?, if_pos ⟨Int.natCast_nonneg _, hlt⟩, Int.toNat_natCast]
  rw [ancestor, Json.orDefault, json_ofJson, hbelow, Option.map_some, UInt32.ofNat_toNat]

end FieldReading

namespace Expr

/-- What the fields of the node are written as. -/
def fieldValues (e : Expr) : List Json :=
  match e.toJson with
  | .object (_ :: fields) => fields.map Prod.snd
  | _ => []

theorem toJson_eq_node (e : Expr) : e.toJson = node e.kind e.fieldValues := by
  cases e <;> rfl

theorem length_fieldValues (e : Expr) : e.fieldValues.length = e.kind.fields.length := by
  cases e <;> rfl

/-- What a field of the node may be written as. -/
inductive IsField (e : Expr) : Json → Prop
  | text (s : String) : IsField e (.string s)
  | flag (b : Bool) : IsField e (.bool b)
  | level (a : UInt32) : IsField e (.nat a.toNat)
  | texts (ss : List String) : IsField e (.strings ss)
  | constant {l : Literal} : e = .literal l → IsField e l.toJson
  | child {c : Expr} : c ∈ e.children → IsField e c.toJson
  | children {es : List Expr} : es ⊆ e.children → IsField e (.array (allToJson es))

theorem isField_of_mem (e : Expr) : ∀ j ∈ e.fieldValues, e.IsField j := by
  have hchild : ∀ c ∈ e.children, e.IsField c.toJson := fun _ => .child
  have hchildren : ∀ es, es ⊆ e.children → e.IsField (.array (allToJson es)) := fun _ => .children
  cases e
  case literal l => simpa [fieldValues, toJson, node, ExprKind.fields] using IsField.constant rfl
  all_goals
    simp only [children] at hchild hchildren
    simp [fieldValues, toJson, node, ExprKind.fields, hchild, hchildren, IsField.text, IsField.flag, IsField.level,
      IsField.texts]

/-- The node is put together from what its fields are written as, if its children are. -/
theorem node?_fieldValues {e : Expr} (hfloat : ∀ x, e ≠ .literal (.float x))
    (hc : ∀ c ∈ e.children, (FieldReading.ofJson c.toJson).expr? = some c) :
    FieldReading.node? e.kind (e.fieldValues.map fun j => some (FieldReading.ofJson j)) = some e := by
  have hexpr : ∀ c ∈ e.children, FieldReading.expr (some (FieldReading.ofJson c.toJson)) = some c := hc
  have hexprs : ∀ es, es ⊆ e.children →
      FieldReading.exprs (some (FieldReading.ofJson (.array (allToJson es)))) = some es :=
    fun es hes => FieldReading.exprs_allToJson fun c h => hc c (hes h)
  have htext : ∀ s, FieldReading.text (some (FieldReading.ofJson (.string s))) = some s := fun _ => rfl
  have hflag : ∀ b, FieldReading.fromHost (some (FieldReading.ofJson (.bool b))) = some b := fun _ => rfl
  cases e
  case literal l =>
    have hl := Literal.ofJson?_toJson (l := l) fun x hx => hfloat x (congrArg _ hx)
    simp [fieldValues, toJson, node, ExprKind.fields, kind, FieldReading.node?, FieldReading.json_ofJson,
      Json.required, hl]
  case unary op _ | binary op _ _ =>
    simp only [children] at hexpr
    simp [fieldValues, toJson, node, ExprKind.fields, kind, FieldReading.node?, FieldReading.json_ofJson,
      Json.required, UnaryOp.ofJson?_tag, BinaryOp.ofJson?_tag, hexpr]
  all_goals
    simp only [children] at hexpr hexprs
    simp [fieldValues, toJson, node, ExprKind.fields, kind, FieldReading.node?, hexpr, hexprs, htext, hflag,
      FieldReading.texts_strings, FieldReading.ancestor_nat]

/-! ### Texts -/

def isFloat : Expr → Bool
  | literal (.float _) => true
  | _ => false

/-- No float stands in the expression. -/
def IsFloatFree (e : Expr) : Prop := ∀ d, Occurs d e → d.isFloat = false

instance (e : Expr) : Decidable e.IsFloatFree :=
  decidable_of_iff (e.all (fun d => !d.isFloat) = true) (by simp [all_iff, IsFloatFree])

theorem IsFloatFree.child {c e : Expr} (h : e.IsFloatFree) (hc : c ∈ e.children) : c.IsFloatFree :=
  fun d hd => h d (.inside hc hd)

theorem IsFloatFree.ne_float {e : Expr} (h : e.IsFloatFree) (x : Float) : e ≠ .literal (.float x) := by
  rintro rfl
  cases h _ .here

/-- Decoding undoes encoding, for an expression that stands alone and for one that stands inside another. -/
theorem ofJson?_toJson {e : Expr} (hfloat : e.IsFloatFree) :
    (FieldReading.ofJson e.toJson).expr? = some e ∧ ofJson? e.toJson = some e := by
  have hc : ∀ c ∈ e.children, (FieldReading.ofJson c.toJson).expr? = some c := fun c hc =>
    (ofJson?_toJson (hfloat.child hc)).1
  have hnode := node?_fieldValues hfloat.ne_float hc
  rw [toJson_eq_node e]
  constructor
  · simp only [node, FieldReading.ofJson]
    rw [FieldReading.ofMembers?_node (e.kind.ofTag?_tag) e.length_fieldValues, hnode]
  · simp only [node, ofJson?]
    rw [FieldReading.ofMembers?_node (e.kind.ofTag?_tag) e.length_fieldValues, hnode]
termination_by e
decreasing_by exact sizeOf_lt_of_mem_children hc

theorem numbers_node {k : ExprKind} {values : List Json} {n : Json.Number} (h : n ∈ (node k values).numbers) :
    ∃ j ∈ values, n ∈ j.numbers := by
  obtain ⟨m, hm, hn⟩ := Json.mem_memberNumbers.1 h
  rcases List.mem_cons.1 hm with rfl | hm
  · cases hn
  · exact ⟨m.2, (List.of_mem_zip hm).2, hn⟩

theorem readsBack_literal {l : Literal} (hl : ∀ x, l ≠ .float x) : ∀ n ∈ l.toJson.numbers, n.ReadsBack := by
  cases l with
  | float x => exact absurd rfl (hl x)
  | int i =>
    intro n hn
    obtain rfl : n = .int i.toInt := by simpa [Literal.toJson, Json.numbers, Json.memberNumbers, Json.int] using hn
    exact Json.readsBack_int (Int64.minValue_le_toInt i) (Int.lt_trans i.toInt_lt (by decide))
  | undefined => simp [Literal.toJson, Json.numbers, Json.memberNumbers]
  | null => simp [Literal.toJson, Json.numbers, Json.memberNumbers]
  | bool b => simp [Literal.toJson, Json.numbers, Json.memberNumbers]
  | text s => simp [Literal.toJson, Json.numbers, Json.memberNumbers]

/-- The numbers that an expression is written with are levels and integer constants, so they read back. -/
theorem readsBack_of_mem_numbers {e : Expr} (hfloat : e.IsFloatFree) :
    ∀ n ∈ e.toJson.numbers, n.ReadsBack := by
  have hc : ∀ c ∈ e.children, ∀ n ∈ c.toJson.numbers, n.ReadsBack := fun c hc =>
    readsBack_of_mem_numbers (hfloat.child hc)
  intro n hn
  rw [toJson_eq_node e] at hn
  obtain ⟨j, hj, hn⟩ := numbers_node hn
  cases e.isField_of_mem j hj with
  | text s => cases hn
  | flag b => cases hn
  | level a =>
    obtain rfl : n = .int a.toNat := by simpa [Json.nat, Json.int, Json.numbers] using hn
    have hlt : (a.toNat : Int) < UInt32.size := Int.ofNat_lt.2 a.toNat_lt_size
    exact Json.readsBack_int (Int.le_trans (by decide) (Int.natCast_nonneg _)) (Int.lt_trans hlt (by decide))
  | texts ss =>
    obtain ⟨t, ht, hn⟩ := Json.mem_itemNumbers.1 hn
    obtain ⟨s, _, rfl⟩ := List.mem_map.1 ht
    cases hn
  | constant h => exact readsBack_literal (fun x hx => hfloat.ne_float x (hx ▸ h)) n hn
  | child h => exact hc _ h n hn
  | children h =>
    obtain ⟨j, hj, hn⟩ := Json.mem_itemNumbers.1 hn
    rw [allToJson_eq] at hj
    obtain ⟨c, hmem, rfl⟩ := List.mem_map.1 hj
    exact hc c (h hmem) n hn
termination_by e
decreasing_by exact sizeOf_lt_of_mem_children hc

theorem depth_toJson_literal (l : Literal) : l.toJson.depth = 1 := by
  cases l <;> rfl

theorem depth_le_of_isField {e : Expr} {n : Nat} {j : Json} (h : e.IsField j)
    (hc : ∀ c ∈ e.children, c.toJson.depth ≤ n) : j.depth ≤ n + 1 := by
  cases h with
  | text s => exact Nat.zero_le _
  | flag b => exact Nat.zero_le _
  | level a => exact Nat.zero_le _
  | texts ss =>
    have hitems : Json.itemsDepth (ss.map .string) ≤ n := by
      rw [Json.itemsDepth_le_iff]
      intro j hj
      obtain ⟨s, _, rfl⟩ := List.mem_map.1 hj
      exact Nat.zero_le _
    exact Nat.succ_le_succ hitems
  | @constant l _ =>
    rw [depth_toJson_literal]
    omega
  | child h => exact Nat.le_succ_of_le (hc _ h)
  | @children es h =>
    have hitems : Json.itemsDepth (allToJson es) ≤ n := by
      rw [Json.itemsDepth_le_iff, allToJson_eq]
      intro j hj
      obtain ⟨c, hmem, rfl⟩ := List.mem_map.1 hj
      exact hc c (h hmem)
    exact Nat.succ_le_succ hitems

/-- A node puts at most two containers around its children: itself, and a list they stand in. -/
theorem depth_toJson_le {e : Expr} {n : Nat} (hc : ∀ c ∈ e.children, c.toJson.depth ≤ n) :
    e.toJson.depth ≤ n + 2 := by
  have hmembers : Json.membersDepth (("kind", .string e.kind.tag) :: e.kind.fields.zip e.fieldValues) ≤ n + 1 := by
    rw [Json.membersDepth_le_iff]
    intro m hm
    rcases List.mem_cons.1 hm with rfl | hm
    · exact Nat.zero_le _
    · exact depth_le_of_isField (e.isField_of_mem m.2 (List.of_mem_zip hm).2) hc
  rw [toJson_eq_node e]
  exact Nat.succ_le_succ hmembers

/-- Each level of nodes costs two containers, and validation walks down at most `maxDepth` levels. -/
theorem depth_of_validateAll {stack : List (Expr × Nat)} (h : validateAll stack = .ok ()) :
    ∀ p ∈ stack, p.1.toJson.depth + 2 * p.2 ≤ 2 * maxDepth + 2 := by
  induction stack using validateAll.induct with
  | case1 => simp
  | case2 e depth rest hdeep =>
    rw [validateAll, if_pos hdeep] at h
    cases h
  | case3 e depth rest hdepth x hcheck =>
    rw [validateAll, if_neg hdepth, hcheck] at h
    cases h
  | case4 e depth rest hdepth hcheck ih =>
    rw [validateAll, if_neg hdepth, hcheck] at h
    have hbelow := ih h
    intro p hp
    rcases List.mem_cons.1 hp with rfl | hp
    · have hchildren : ∀ c ∈ e.children, c.toJson.depth ≤ 2 * maxDepth - 2 * depth := by
        intro c hc
        have hpair : (c, depth + 1) ∈ e.children.map (fun c => (c, depth + 1)) ++ rest :=
          List.mem_append_left _ (List.mem_map_of_mem hc)
        have hdepth := hbelow _ hpair
        simp only at hdepth
        omega
      have hdepth := depth_toJson_le hchildren
      simp only
      omega
    · exact hbelow p (List.mem_append_right _ hp)

/-- The text of a valid expression nests its arrays and objects no deeper than a reader of JSON goes, and if no float
stands in the expression, the text is read as the same expression, which is valid again. -/
theorem parse_toText {e : Expr} (hvalid : e.validate = .ok ()) :
    e.toJson.depth ≤ Json.maxDepth ∧ (e.IsFloatFree → parse e.toText = .ok e) := by
  have hdepth : e.toJson.depth ≤ Json.maxDepth := by
    have hroot := depth_of_validateAll hvalid (e, 1) List.mem_cons_self
    simp only [maxDepth] at hroot
    rw [Json.maxDepth]
    omega
  refine ⟨hdepth, ?_⟩
  intro hfloat
  have htext : Json.parse? e.toText = some e.toJson := Json.parse?_pretty (readsBack_of_mem_numbers hfloat) hdepth
  have hread : read e.toText = .ok e := by
    rw [read, htext, Option.bind_some, (ofJson?_toJson hfloat).2]
  rw [parse, hread]
  simp only [hvalid]

/-- An expression whose texts have to be escaped. -/
def escaping : Expr :=
  behavior (template ["Say \"", "\" \\\n", "\x01é"]
    [binary .add (member (scope "user$" 2 false) "name") (literal (.int (-7))), html []]) "subscribe" []

theorem parse_toText_escaping :
    escaping.validate = .ok () ∧ escaping.IsFloatFree ∧ escaping.toJson.depth ≤ Json.maxDepth ∧
      parse escaping.toText = .ok escaping := by
  have hvalid : escaping.validate = .ok () := by
    have hnames : checkName "subscribe" = .ok () ∧ checkName "name" = .ok () ∧ checkName "user$" = .ok () :=
      ⟨rfl, rfl, rfl⟩
    simp [escaping, validate, validateAll, checkNode, checkSegments, maxDepth, children, hnames]
  have hfloat : escaping.IsFloatFree := by decide
  have htext := parse_toText hvalid
  exact ⟨hvalid, hfloat, htext.1, htext.2 hfloat⟩

end Expr

end DataBinding
