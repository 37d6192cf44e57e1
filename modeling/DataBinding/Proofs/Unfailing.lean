import DataBinding.Proofs.BindingHistory
import DataBinding.Proofs.Interchange

/-!
# Bindings that cannot fail

Rebasing accepts few kinds of nodes, and what it makes of them has a value in every state (`isTotal_rebase`): names and
members that are missing count as undefined or as the empty text, and no converter is asked for. A binding keeps its
expression through every run, and shows a failure only if its expression can have one. So a binding that was compiled
for streams binds whenever it is asked to, and no change that it is told of makes it fail (`lastError_of_subscribed`).
-/

namespace DataBinding

namespace Eval

/-! ### Computations that give a result -/

/-- The computation gives a result in every state. -/
def Total {α : Type} (m : Eval α) : Prop := ∀ t, ∃ a t', m.run t = (.ok a, t')

theorem total_pure {α : Type} (a : α) : Total (pure a : Eval α) := fun t => ⟨a, t, rfl⟩

theorem Total.bind {α β : Type} {m : Eval α} {f : α → Eval β} (hm : Total m) (hf : ∀ a, Total (f a)) :
    Total (m >>= f) := by
  intro t
  obtain ⟨a, t', ha⟩ := hm t
  obtain ⟨b, t'', hb⟩ := hf a t'
  exact ⟨b, t'', by rw [run_bind, ha, ← hb]⟩

theorem total_lookUp (ctx : EvalContext) (n : String) (a : UInt32) (h : Bool) : Total (lookUp ctx n a h) :=
  fun t => ⟨_, _, run_lookUp ctx n a h t⟩

theorem total_readValue (w : Watch) (o : ObjectId) (n : String) : Total (readValue w o n) :=
  fun t => ⟨_, _, run_readValue w o n t⟩

theorem total_readThrough (ctx : EvalContext) (w : Watch) (v : Value) : Total (readThrough ctx w v) := by
  cases hs : v.stream? with
  | none =>
    rw [readThrough_of_not_stream ctx w hs]
    exact total_pure _
  | some i =>
    obtain rfl := Value.eq_of_stream? hs
    by_cases hw : w = .nothing
    · subst hw
      exact total_pure _
    · rw [readThrough_stream ctx hw]
      have hread : Total (readStream ctx i) := fun t => ⟨_, _, run_readStream ctx i t⟩
      exact hread.bind fun _ => total_pure _

end Eval

namespace Expr

open Eval

/-! ### Expressions that have a value -/

/-- The expression has a value in every state, whoever asks. -/
def IsTotal (e : Expr) : Prop := ∀ ctx w, Total (e.evaluate ctx w)

theorem IsTotal.not_canFail {e : Expr} (h : e.IsTotal) : ¬e.CanFail := by
  rintro ⟨ctx, w, t, x, hx⟩
  obtain ⟨v, t', hv⟩ := h ctx w t
  rw [hv] at hx
  cases hx

theorem isTotal_this (a : UInt32) : (this a).IsTotal := by
  intro ctx w
  simp only [evaluate]
  exact total_pure _

theorem isTotal_scope (n : String) (a : UInt32) (h : Bool) : (scope n a h).IsTotal := by
  intro ctx w
  rw [evaluate_scope]
  refine (total_lookUp ctx n a h).bind fun o? => ?_
  cases o? with
  | none => exact total_pure _
  | some o => exact (total_readValue w o n).bind fun _ => total_pure _

theorem isTotal_streamScope (n : String) (a : UInt32) (h : Bool) : (streamScope n a h).IsTotal := by
  intro ctx w
  rw [evaluate_streamScope]
  refine (total_lookUp ctx n a h).bind fun o? => ?_
  cases o? with
  | none => exact total_pure _
  | some o => exact (total_readValue w o n).bind (total_readThrough ctx w)

theorem IsTotal.member {e : Expr} (he : e.IsTotal) (n : String) : (member e n).IsTotal := by
  intro ctx w
  rw [evaluate_member]
  refine (he ctx _).bind fun v => ?_
  cases v
  case object o => exact total_readValue w o n
  all_goals exact total_pure _

theorem IsTotal.streamMember {e : Expr} (he : e.IsTotal) (n : String) : (streamMember e n).IsTotal := by
  intro ctx w
  rw [evaluate_streamMember]
  refine (he ctx _).bind fun v => ?_
  cases v
  case object o => exact (total_readValue w o n).bind (total_readThrough ctx w)
  all_goals exact total_pure _

theorem total_evaluateAll {es : List Expr} (hes : ∀ e ∈ es, e.IsTotal) (ctx : EvalContext) (w : Watch) :
    Total (evaluateAll ctx w es) := by
  induction es with
  | nil =>
    simp only [evaluateAll]
    exact total_pure _
  | cons e es ih =>
    simp only [evaluateAll]
    have hrest := ih fun d hd => hes d (List.mem_cons_of_mem _ hd)
    exact (hes e (by simp) ctx w).bind fun v => hrest.bind fun vs => total_pure _

theorem total_renderParts {es : List Expr} (hes : ∀ e ∈ es, e.IsTotal) (ctx : EvalContext) (w : Watch)
    (ss : List String) : Total (renderParts ctx w ss es) := by
  induction es generalizing ss with
  | nil =>
    simp only [renderParts]
    exact total_pure _
  | cons e es ih =>
    simp only [renderParts]
    have hrest := ih fun d hd => hes d (List.mem_cons_of_mem _ hd)
    exact (hes e (by simp) ctx w).bind fun v => (hrest ss.tail).bind fun t => total_pure _

theorem IsTotal.behavior {e : Expr} (he : e.IsTotal) (n : String) {args : List Expr} (hargs : ∀ a ∈ args, a.IsTotal) :
    (behavior e n args).IsTotal := by
  intro ctx w
  simp only [evaluate]
  exact (he ctx w).bind fun v => (total_evaluateAll hargs ctx w).bind fun _ => total_pure _

theorem isTotal_template {ps : List Expr} (hps : ∀ p ∈ ps, p.IsTotal) (ss : List String) :
    (template ss ps).IsTotal ∧ (streamTemplate ss ps).IsTotal := by
  refine ⟨fun ctx w => ?_, fun ctx w => ?_⟩
  all_goals
    simp only [evaluate]
    exact (total_renderParts hps ctx w ss.tail).bind fun _ => total_pure _

/-! ### What rebasing makes -/

mutual

/-- Whatever rebasing accepts has a value in every state. -/
theorem isTotal_rebase? (marker : Char) :
    ∀ (e : Expr) (e? : Option Expr), e.rebase? marker = .ok e? → e.isStreamAware = false → (e?.getD e).IsTotal
  | this a, e?, he, _ => by
    obtain rfl : none = e? := by simpa [rebase?] using he
    exact isTotal_this a
  | scope n a h, e?, he, _ => by
    simp only [rebase?, Except.ok.injEq] at he
    subst he
    by_cases hn : isMarked marker n = true
    · rw [if_pos hn]
      exact isTotal_streamScope n a h
    · rw [if_neg hn]
      exact isTotal_scope n a h
  | member e n, e?, he, hs => by
    simp only [rebase?] at he
    obtain ⟨o?, ho, he⟩ := ok_bind he
    have hobject := isTotal_rebase? marker e o? ho (isStreamAware_of_mem_children (List.mem_singleton.2 rfl) hs)
    obtain rfl : (if isMarked marker n then some (streamMember (o?.getD e) n) else o?.map fun o' => member o' n) = e? :=
      Except.ok.inj he
    by_cases hn : isMarked marker n = true
    · rw [if_pos hn]
      exact hobject.streamMember n
    · rw [if_neg hn]
      cases o? with
      | none => exact hobject.member n
      | some o => exact hobject.member n
  | behavior e n args, e?, he, hs => by
    simp only [rebase?] at he
    obtain ⟨o?, ho, he⟩ := ok_bind he
    obtain ⟨as?, ha, he⟩ := ok_bind he
    have hinner := isTotal_rebase? marker e o? ho (isStreamAware_of_mem_children (List.mem_cons_self ..) hs)
    have hargs := isTotal_rebaseAll? marker args as? ha fun c hc =>
      isStreamAware_of_mem_children (e := behavior e n args) (List.mem_cons_of_mem _ hc) hs
    have he' : e?.getD (behavior e n args) = behavior (o?.getD e) n (as?.getD args) := by
      obtain rfl : (if o?.isNone && as?.isNone then none else some (behavior (o?.getD e) n (as?.getD args))) = e? :=
        Except.ok.inj he
      cases o? <;> cases as? <;> rfl
    rw [he']
    exact hinner.behavior n hargs
  | template ss ps, e?, he, hs => by
    simp only [rebase?] at he
    obtain ⟨ps?, hp, he⟩ := ok_bind he
    have hps := isTotal_rebaseAll? marker ps ps? hp fun c hc =>
      isStreamAware_of_mem_children (e := template ss ps) hc hs
    obtain rfl : (ps?.map fun ps' => streamTemplate ss ps') = e? := Except.ok.inj he
    cases ps? with
    | none => exact (isTotal_template hps ss).1
    | some ps' => exact (isTotal_template hps ss).2
  | keyed .., e?, he, _ | callScope .., e?, he, _ | callMember .., e?, he, _ | callFunction .., e?, he, _
  | unary .., e?, he, _ | binary .., e?, he, _ | conditional .., e?, he, _ | assign .., e?, he, _
  | literal .., e?, he, _ | array .., e?, he, _ | object .., e?, he, _ | taggedTemplate .., e?, he, _
  | interpolation .., e?, he, _ | html .., e?, he, _ | converter .., e?, he, _ | forOf .., e?, he, _
  | identifier .., e?, he, _ | arrayPattern .., e?, he, _ | objectPattern .., e?, he, _ => by
    simp [rebase?] at he
  | streamScope .., e?, _, hs | streamMember .., e?, _, hs | streamTemplate .., e?, _, hs => by
    simp [isStreamAware] at hs

theorem isTotal_rebaseAll? (marker : Char) :
    ∀ (es : List Expr) (es? : Option (List Expr)), rebaseAll? marker es = .ok es? →
      (∀ c ∈ es, c.isStreamAware = false) → ∀ c ∈ es?.getD es, c.IsTotal
  | [], es?, he, _ => by
    obtain rfl : none = es? := by simpa [rebaseAll?] using he
    simp
  | e :: es, es?, he, hs => by
    obtain ⟨e?, as?, h, ha, he'⟩ := rebaseAll?_cons he
    have hfirst := isTotal_rebase? marker e e? h (hs e (by simp))
    have hrest := isTotal_rebaseAll? marker es as? ha fun c hc => hs c (List.mem_cons_of_mem _ hc)
    rw [he']
    intro c hc
    rcases List.mem_cons.1 hc with rfl | hc
    · exact hfirst
    · exact hrest c hc

end

theorem isTotal_rebase {marker : Char} {e e' : Expr} (h : e.rebase marker = .ok e') (hs : e.isStreamAware = false) :
    e'.IsTotal := by
  unfold rebase at h
  cases hr : e.rebase? marker with
  | error x =>
    rw [hr] at h
    cases h
  | ok e? =>
    rw [hr] at h
    obtain rfl := Except.ok.inj h
    exact isTotal_rebase? marker e e? hr hs

end Expr

namespace Instruction

/-! ### Compiling for streams -/

/-- The attribute and the expression ask for a binding that reads through streams: by the command, or by the behavior
with a one-way command. -/
def AsksForStreams (a : Attribute) (e : Expr) : Prop :=
  a.command = some subscribe ∨ (∃ c ∈ oneWayCommands, a.command = some c) ∧ hasSubscribe e = true

/-- Such an expression is rebased. -/
theorem rebase_of_compile {marker : Char} {a : Attribute} {e : Expr} {i : Instruction}
    (hi : compile marker a e = .ok i) (ha : AsksForStreams a e) : e.rebase marker = .ok i.expression := by
  have hcompile : compile marker a e = strictly a (e.rebase marker) := by
    rcases ha with hsub | ⟨⟨c, hc, hcommand⟩, hbehavior⟩
    · exact compile_subscribe hsub marker e
    · exact compile_oneWay hcommand hc marker hbehavior
  rw [hcompile] at hi
  cases he : e.rebase marker with
  | error x =>
    rw [he] at hi
    cases hi
  | ok e' =>
    rw [he] at hi
    obtain rfl := Except.ok.inj hi
    rfl

end Instruction

namespace Session

variable {s : Session} {b : BindingId} {x : Binding} {y : Bound}

/-- Binding succeeds if the expression cannot fail. -/
theorem bind_of_isTotal (hx : x.expression.IsTotal) (s : Session) (b : BindingId) (y : Bound) :
    (s.bind b x y).2 = .ok () := by
  unfold bind
  split
  · rfl
  · dsimp only
    split
    · rfl
    next t e hread =>
      have hresult : (((s.unbind b).modifyBinding b fun x => { x with state := some y }).readAgain b x y).2 = .error e :=
        congrArg Prod.snd hread
      exact absurd (canFail_evaluate hresult) hx.not_canFail

/-! ### New bindings -/

theorem isHeld_of_isNamed {r : Ref} (h : s.isNamed r = true) : s.isHeld r = true := by
  simp [isHeld, h]

/-- A binding that something holds stays when another hold is given up. -/
theorem get?_letGo_of_isHeld (h : s.isHeld b.ref = true) (r : Ref) :
    (s.letGo r).bindings.get? b = s.bindings.get? b := by
  by_cases hr : r = b.ref
  · subst hr
    rw [letGo, if_pos h]
  · obtain ⟨k, n⟩ := r
    unfold letGo
    split
    · rfl
    · cases k
      case binding =>
        have hne : (⟨n⟩ : BindingId) ≠ b := fun he => hr (by rw [← he]; rfl)
        dsimp only
        split
        · rfl
        · rw [bindings_releaseAll, Table.get?_erase, if_neg hne]
      case record =>
        dsimp only
        split
        · rfl
        · rw [bindings_releaseAll]
      case sink =>
        dsimp only
        split
        · rfl
        · rw [close_bindings]
      case observer => rw [bindings_letGoObserver]
      all_goals rfl

/-- What is given a name is held from then on. -/
theorem get?_setName_binding (s : Session) (name : String) (b : BindingId) :
    (s.setName name b.ref).bindings.get? b = s.bindings.get? b := by
  unfold setName
  dsimp only
  split
  · rfl
  · have hentry : (⟨.binding, name⟩, b.number) ∈ (s.names.insert ⟨.binding, name⟩ b.number).entries :=
      Table.mem_entries.2 (by rw [Table.get?_insert, if_pos rfl])
    have hnamed : ({ s with names := s.names.insert ⟨.binding, name⟩ b.number } : Session).isNamed b.ref = true :=
      List.any_eq_true.2 ⟨_, hentry, by simp [Id.ref]⟩
    exact get?_letGo_of_isHeld (isHeld_of_isNamed hnamed) _

theorem get?_addBinding (s : Session) (name : String) (x : Binding) :
    (s.addBinding name x).session.bindings.get? ⟨s.store.fresh⟩ = some x := by
  refine (get?_setName_binding _ name ⟨s.store.fresh⟩).trans ?_
  rw [Table.get?_insert, if_pos rfl]

/-- A binding that was compiled for streams from an expression without stream accesses binds to any scopes in any
state, and goes through any run after it was made without a failure. -/
theorem lastError_of_subscribed {as : List Act} {name target : String} {k : SystemId} {z : System} {o : ObjectId}
    {a : Attribute} {e : Expr} {i : Instruction} (hk : (initial.play as).systems.get? k = some z)
    (ho : (initial.play as).named? .object target = some o) (hi : Instruction.compile z.config.marker a e = .ok i)
    (hasks : Instruction.AsksForStreams a e) (hplain : e.isStreamAware = false) :
    let b : BindingId := ⟨(initial.play as).store.fresh⟩
    let made := ((initial.play as).addBinding name (Binding.ofInstruction k z.config o i)).session
    made.bindings.get? b = some (Binding.ofInstruction k z.config o i) ∧
      (∀ (u : Session) (c : BindingId) (x : Binding) (y : Bound), x.expression = i.expression →
        (u.bind c x y).2 = .ok ()) ∧
      ∀ bs x, (made.play bs).bindings.get? b = some x → x.expression = i.expression ∧ x.lastError = none := by
  intro b made
  have hmade : made.bindings.get? b = some (Binding.ofInstruction k z.config o i) := get?_addBinding ..
  have htotal : i.expression.IsTotal := Expr.isTotal_rebase (Instruction.rebase_of_compile hi hasks) hplain
  have hsound := sound_initial.play as
  have hadds : AnswersWith Silent (bare _) (initial.play as)
      ((initial.play as).addBinding name (Binding.ofInstruction k z.config o i)) :=
    answers_addBinding hsound (hsound.newBinding ho rfl rfl rfl rfl) (Option.isSome_of_eq_some hk) rfl
  obtain ⟨g, hm, -⟩ := hadds
  have hsound' : Sound (· ∈ made.held) made := (hsound.moves hm).narrow
  have hold : b.number < made.store.fresh := hm.old_bindings (old_bindings_play as) b _ hmade
  refine ⟨hmade, fun u c x y hx => bind_of_isTotal (hx ▸ htotal) u c y, fun bs x hx => ?_⟩
  obtain ⟨w, hw, hbecomes⟩ := becomes_play hsound' hold hx
  obtain rfl := Option.some.inj (hmade.symm.trans hw)
  have hexpression : x.expression = i.expression := hbecomes.expression.symm
  refine ⟨hexpression, ?_⟩
  rcases hbecomes.lastError with hnone | hnone | hfails
  · exact hnone
  · exact hnone
  · exact absurd hfails (hexpression ▸ htotal).not_canFail

/-- The case of a template of a member of a stream's value, with the behavior and the command `bind`. -/
theorem lastError_of_subscribed_template :
    let as : List Act := [.command (.makeObject "target" [])]
    let e : Expr := .behavior (.template ["<", ">"] [.member (.scope "user$" 0 false) "name"]) "subscribe" []
    let e' : Expr := .behavior (.streamTemplate ["<", ">"] [.member (.streamScope "user$" 0 false) "name"]) "subscribe" []
    let a : Attribute := { rawName := "text.bind", rawValue := "", target := "text", command := some "bind" }
    let i : Instruction := ⟨e', "text", true⟩
    let made := ((initial.play as).addBinding "b" (Binding.ofInstruction ⟨0⟩ {} ⟨1⟩ i)).session
    (initial.play as).named? .object "target" = some ⟨1⟩ ∧ Instruction.compile '$' a e = .ok i ∧
      Instruction.AsksForStreams a e ∧ e.isStreamAware = false ∧
      ∀ bs x, (made.play bs).bindings.get? ⟨2⟩ = some x → x.lastError = none := by
  intro as e e' a i made
  have ho : (initial.play as).named? .object "target" = some ⟨1⟩ := by decide +kernel
  have hi : Instruction.compile '$' a e = .ok i := by rfl
  have hasks : Instruction.AsksForStreams a e := .inr ⟨⟨"bind", by decide, rfl⟩, by decide⟩
  have hplain : e.isStreamAware = false := by decide
  refine ⟨ho, hi, hasks, hplain, fun bs x hx => ?_⟩
  exact ((lastError_of_subscribed (z := System.ofConfig {}) rfl ho hi hasks hplain).2.2 bs x hx).2

end Session

end DataBinding
