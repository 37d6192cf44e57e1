import DataBinding.Proofs.Unread

/-!
# What is assigned is read back

Assigning and evaluating find a place in two ways of their own, and the write stands between them. For a name, the write
can make a context have it that did not; then the name belongs there all the more (`resolve_of_gains`). For a member or
an item, the object and the key are evaluated anew; as long as these read no streams and make no objects, that comes to
the same whoever watches and whatever the written property holds, provided that it is none of the properties they read
(`Inquiry.run_of_still`). So what was assigned is what the expression gives (`evaluate_assigned`).
-/

namespace DataBinding

/-! ### Names -/

section

variable {has has' : ObjectId → String → Bool} {n : String} {o : ObjectId}

theorem Level.defining?_of_gains (hothers : ∀ p, p ≠ o → has' p n = has p n) (ho : has' o n = true) (l : Level) :
    l.defining? has' n = l.defining? has n ∨ l.defining? has' n = some o := by
  unfold defining?
  by_cases hover : l.override = o
  · rw [hover, if_pos ho]
    exact .inr rfl
  · rw [hothers _ hover]
    split
    · exact .inl rfl
    · by_cases hcontext : l.context = o
      · rw [hcontext, if_pos ho]
        exact .inr rfl
      · rw [hothers _ hcontext]
        exact .inl rfl

theorem findIn_of_gains (hothers : ∀ p, p ≠ o → has' p n = has p n) (ho : has' o n = true) (ls : List Level) :
    findIn has' n ls = findIn has n ls ∨ findIn has' n ls = some o := by
  induction ls with
  | nil => exact .inl rfl
  | cons l ls ih =>
    unfold findIn
    rcases l.defining?_of_gains hothers ho with hl | hl
    · rw [hl]
      cases l.defining? has n with
      | some p => exact .inl rfl
      | none => exact ih
    · rw [hl]
      exact .inr rfl

/-- A name that belongs to an object belongs to it when the object gets it. -/
theorem resolve_of_gains (hothers : ∀ p, p ≠ o → has' p n = has p n) (ho : has' o n = true) {x : Scope} {depth : Nat}
    {host : Option Scope} (h : resolve has x n depth host = some o) : resolve has' x n depth host = some o := by
  cases depth with
  | zero =>
    simp only [resolve] at h ⊢
    rcases findIn_of_gains hothers ho x.levels with hx | hx
    · have hhost : (host.bind fun y => findIn has' n y.levels) = (host.bind fun y => findIn has n y.levels) ∨
          (host.bind fun y => findIn has' n y.levels) = some o := by
        cases host with
        | none => exact .inl rfl
        | some y => exact findIn_of_gains hothers ho y.levels
      rw [hx]
      cases hfound : findIn has n x.levels with
      | some p => rwa [hfound] at h
      | none =>
        rw [hfound] at h
        rcases hhost with hhost | hhost
        · rwa [hhost]
        · rw [hhost]
    · rw [hx]
  | succ d =>
    simp only [resolve] at h ⊢
    obtain ⟨l, hl, hlo⟩ := Option.map_eq_some_iff.1 h
    rw [hl, Option.map_some]
    rcases l.defining?_of_gains hothers ho with hd | hd
    · rw [hd, hlo]
    · rw [hd, Option.getD_some]

end

theorem Eval.located_of_gains {ctx : EvalContext} {s s' : Store} {o : ObjectId} {n : String} (h : s.SameBut o n s')
    (ho : s'.hasProperty o n = true) {a : UInt32} {f : Bool} (hl : located ctx s n a f = some o) :
    located ctx s' n a f = some o := by
  have hothers (p : ObjectId) (hp : p ≠ o) : s'.hasProperty p n = s.hasProperty p n :=
    h.hasProperty fun hpn => hp hpn.1
  unfold located at hl ⊢
  cases f with
  | false => exact resolve_of_gains hothers ho hl
  | true =>
    cases hhost : ctx.host with
    | none => simp [hhost] at hl
    | some y =>
      rw [hhost] at hl
      exact resolve_of_gains hothers ho hl

/-! ### Inquiries that leave everything as it is -/

/-- Such a question is about the objects and converters alone. -/
theorem Question.answer_of_isStill {ctx ctx' : EvalContext} {watched watched' : Bool} {s : Store} {r r' : Registry}
    {q : Question} (hq : q.IsStill) (hscope : ctx'.scope = ctx.scope) (hhost : ctx'.host = ctx.host)
    (hconverters : ctx'.converters = ctx.converters) :
    (q.answer ctx' watched' s r').1 = (q.answer ctx watched s r).1 := by
  cases q
  case place n a f => simp only [answer, Eval.located, hscope, hhost]
  case converter n => simp only [answer, hconverters]
  case property | presence => rfl
  all_goals cases hq

/-- If all questions that come up have the same answers elsewhere, then everything goes the same way there, and stays as
it is. -/
theorem Inquiry.run_of_still {α : Type} {ctx : EvalContext} {watched : Bool} {m : Inquiry α}
    (hm : m.Every fun _ q => q.IsStill) {s : Store} {r : Registry} (ctx' : EvalContext) (watched' : Bool) (s' : Store)
    (r' : Registry)
    (h : ∀ x ∈ (m.run ctx watched s r).asked,
      (x.question.answer ctx' watched' s' r').1 = (x.question.answer ctx watched s r).1) :
    m.run ctx' watched' s' r' = ⟨(m.run ctx watched s r).result, s', r', (m.run ctx watched s r).asked⟩ := by
  induction m with
  | done a => rfl
  | fail x => rfl
  | ask p q next ih =>
    have hstill {ctx : EvalContext} {watched : Bool} {s : Store} {r : Registry} :
        (q.answer ctx watched s r).2 = (s, r) := by
      have hq := hm.1
      cases q <;> first | rfl | cases hq
    simp only [run, hstill, List.forall_mem_cons] at h ⊢
    rw [h.1, ih _ (hm.2 _) h.2]

namespace Expr

open Eval

variable {ctx : EvalContext} {e : Expr} {t u : EvalState} {o : ObjectId} {n : String} {v : Value}

theorem isStreamAware_of_occurs {d : Expr} (h : Occurs d e) : d.isStreamAware = true → e.isStreamAware = true := by
  induction h with
  | here => exact id
  | @inside c e hc _ ih =>
    intro hd
    cases he : e.isStreamAware with
    | true => rfl
    | false => rw [← isStreamAware_of_mem_children hc he, ih hd]

/-- Without stream-aware nodes and object literals nothing is made and nothing is opened. -/
theorem every_isStill (haware : e.isStreamAware = false) (hliteral : ∀ ks vs, ¬Occurs (.object ks vs) e)
    (strict : Bool) (x : Scope) : (e.inquiry strict x).Every fun _ q => q.IsStill := by
  refine (every_inquiry strict x e).mono fun p q ⟨d, hd, hq⟩ => ?_
  have hoccurs := occurs_of_at? hd
  cases hq
  case streamScopeStream | streamMemberStream => exact absurd (isStreamAware_of_occurs hoccurs rfl) (by simp [haware])
  case object => exact hliteral _ _ hoccurs
  all_goals trivial

theorem run_bind_of_ok {α β : Type} {m : Eval α} {a : α} (f : α → Eval β) (h : (m.run t).1 = .ok a) :
    (m >>= f).run t = (f a).run (m.run t).2 := by
  rw [run_bind]
  cases hm : m.run t with
  | mk r u =>
    rw [hm] at h
    obtain rfl : r = .ok a := h
    rfl

/-- An evaluation without stream-aware nodes and object literals leaves the store as it is, and gives the same from every
store that answers alike, whoever watches. -/
theorem run_evaluate_of_still (haware : e.isStreamAware = false) (hliteral : ∀ ks vs, ¬Occurs (.object ks vs) e)
    (ctx ctx' : EvalContext) (w w' : Watch) (t u : EvalState)
    (hctx : ctx' = { ctx with flags := ctx'.flags, alive := ctx'.alive })
    (hstrict : ctx'.flags.strict = ctx.flags.strict)
    (h : ∀ x ∈ ((e.inquiry ctx.flags.strict ctx.scope).run ctx w.coversStreams t.store t.registry).asked,
      (x.question.answer ctx w.coversStreams u.store t.registry).1 =
        (x.question.answer ctx w.coversStreams t.store t.registry).1) :
    ((e.evaluate ctx' w').run u).1 = ((e.evaluate ctx w).run t).1 ∧ ((e.evaluate ctx' w').run u).2.store = u.store ∧
      ((e.inquiry ctx.flags.strict ctx.scope).run ctx' w'.coversStreams u.store u.registry).asked =
        ((e.inquiry ctx.flags.strict ctx.scope).run ctx w.coversStreams t.store t.registry).asked := by
  have hstill := every_isStill haware hliteral ctx.flags.strict ctx.scope
  have hscope : ctx'.scope = ctx.scope := by rw [hctx]
  have hrun := Inquiry.run_of_still hstill ctx' w'.coversStreams u.store u.registry fun x hx => by
    rw [← h x hx]
    have hq := hstill.of_mem_asked t.store t.registry x hx
    exact Question.answer_of_isStill hq hscope (by rw [hctx]) (by rw [hctx])
  rw [evaluate_eq_run, evaluate_eq_run, hstrict, hscope, hrun]
  exact ⟨rfl, rfl, rfl⟩

theorem store_evaluate (haware : e.isStreamAware = false) (hliteral : ∀ ks vs, ¬Occurs (.object ks vs) e)
    (ctx : EvalContext) (w : Watch) (t : EvalState) : ((e.evaluate ctx w).run t).2.store = t.store :=
  (run_evaluate_of_still haware hliteral ctx ctx w w t t rfl rfl fun _ _ => rfl).2.1

/-- Where only a property is another that evaluating the expression does not read, evaluating it there gives the same,
whoever watches. -/
theorem run_evaluate_elsewhere (haware : e.isStreamAware = false) (hliteral : ∀ ks vs, ¬Occurs (.object ks vs) e)
    (hbut : t.store.SameBut o n u.store) (hhas : t.store.hasProperty o n = true) (hhas' : u.store.hasProperty o n = true)
    (hreads : .property o n ∉
      ((e.evaluate { ctx with flags := { ctx.flags with leafOnly := false } } .everything).run t).2.reads)
    {t' u' : EvalState} (ht : t'.store = t.store) (hu : u'.store = u.store) (alive : StreamId → Bool) (w w' : Watch) :
    ((e.evaluate { ctx with alive } w').run u').1 = ((e.evaluate ctx w).run t').1 ∧
      ((e.evaluate { ctx with alive } w').run u').2.store = u.store ∧ ((e.evaluate ctx w).run t').2.store = t.store := by
  have hstill := every_isStill haware hliteral ctx.flags.strict ctx.scope
  -- who watches everything in the state before is asked the same, and the property is not among it
  obtain ⟨-, -, hasked⟩ := run_evaluate_of_still haware hliteral ctx
    { ctx with flags := { ctx.flags with leafOnly := false } } w .everything t' t rfl rfl fun _ _ => by rw [ht]
  have hmiss : ∀ x ∈ ((e.inquiry ctx.flags.strict ctx.scope).run ctx w.coversStreams t'.store t'.registry).asked,
      x.question.Misses o n true := by
    intro x hx
    refine Question.misses_of_had fun hq => ?_
    obtain ⟨p, q, a⟩ := x
    subst hq
    rw [← hasked] at hx
    rw [evaluate_eq_run] at hreads
    exact hreads (List.mem_append.2 (.inr (List.mem_filterMap.2 ⟨_, hx, rfl⟩)))
  obtain ⟨hresult, hstore, -⟩ := run_evaluate_of_still haware hliteral ctx { ctx with alive } w w' t' u' rfl rfl
    fun x hx => by
      rw [ht, hu]
      exact Question.answer_of_sameBut hbut hhas (fun _ => hhas') (hstill.of_mem_asked _ _ x hx) (hmiss x hx)
  exact ⟨hresult, hstore.trans hu, (store_evaluate haware hliteral ctx w t').trans ht⟩

/-! ### Places -/

/-- A name, a member or an item, under any number of behaviors without arguments. -/
inductive IsPlace : Expr → Prop
  | scope {n : String} {a : UInt32} {h : Bool} : IsPlace (scope n a h)
  | member {c : Expr} {n : String} : IsPlace (member c n)
  | keyed {c k : Expr} : IsPlace (keyed c k)
  | behavior {c : Expr} {n : String} : IsPlace c → IsPlace (behavior c n [])

/-- A place gives what is held where it leads to. It goes on to do so when another value is written there, if the
property was there before and is none of those that its object and key read; a name needs no more than that the property
is there now. -/
theorem IsPlace.read_back {d : Destination} {t' : EvalState} (hplace : e.IsPlace) (hlead : LeadsTo ctx t e v d t')
    (haware : e.isStreamAware = false) (hliteral : ∀ ks vs, ¬Occurs (.object ks vs) e)
    (hstrict : ctx.flags.strict = true) (hbut : t.store.SameBut d.object d.name u.store)
    (hhas : u.store.hasProperty d.object d.name = true)
    (hslot : e.assignee.kind ≠ .accessScope → t.store.hasProperty d.object d.name = true ∧
      ∀ c ∈ e.assignee.children, .property d.object d.name ∉
        ((c.evaluate { ctx with flags := { ctx.flags with leafOnly := false } } .everything).run t).2.reads)
    (alive : StreamId → Bool) (w : Watch) :
    ((e.evaluate { ctx with alive } w).run u).1 = .ok (u.store.property d.object d.name) := by
  induction hplace with
  | @scope n a f =>
    cases hlead with
    | scope ho =>
      have hafter : located { ctx with alive } u.store n a f = some _ := located_of_gains hbut hhas ho
      rw [evaluate_scope, run_bind, run_lookUp]
      simp only [hafter, run_bind, run_readValue, hstrict, if_true, run_pure]
  | @member c n =>
    obtain ⟨hhad, hreads⟩ := hslot (by simp [assignee, kind])
    have hc : c ∈ (Expr.member c n).children := List.mem_cons_self ..
    cases hlead with
    | member he =>
      obtain ⟨hresult, hstore, -⟩ := run_evaluate_elsewhere (isStreamAware_of_mem_children hc haware)
        (fun ks vs h => hliteral ks vs (.inside hc h)) hbut hhad hhas (hreads c hc) rfl rfl alive .nothing
        (watchObject { ctx with alive } w)
      rw [he] at hresult
      rw [evaluate_member, run_bind_of_ok _ hresult, run_readValue, hstore]
  | @keyed c k =>
    obtain ⟨hhad, hreads⟩ := hslot (by simp [assignee, kind])
    have hc : c ∈ (Expr.keyed c k).children := List.mem_cons_self ..
    have hk : k ∈ (Expr.keyed c k).children := by simp [children]
    cases hlead with
    | keyed he hkey =>
      obtain ⟨hresult, hstore, hbefore⟩ := run_evaluate_elsewhere (isStreamAware_of_mem_children hc haware)
        (fun ks vs h => hliteral ks vs (.inside hc h)) hbut hhad hhas (hreads c hc) rfl rfl alive .nothing
        (watchObject { ctx with alive } w)
      rw [he] at hresult hbefore
      obtain ⟨hresult', hstore', -⟩ := run_evaluate_elsewhere (isStreamAware_of_mem_children hk haware)
        (fun ks vs h => hliteral ks vs (.inside hk h)) hbut hhad hhas (hreads k hk) hbefore hstore alive .nothing w
      rw [hkey] at hresult'
      rw [evaluate_keyed, run_bind_of_ok _ hresult, run_bind_of_ok _ hresult', run_readValue, hstore']
  | @behavior c n _ ih =>
    have hc : c ∈ (Expr.behavior c n []).children := List.mem_cons_self ..
    cases hlead with
    | behavior hlead =>
      have hsame : (Expr.behavior c n []).evaluate { ctx with alive } w = c.evaluate { ctx with alive } w := by
        simp only [evaluate, evaluateAll, pure_bind, bind_pure]
      rw [hsame]
      exact ih hlead (isStreamAware_of_mem_children hc haware) (fun ks vs h => hliteral ks vs (.inside hc h)) hslot

/-- On the way to such a place nothing changes, and the value stays what it is. -/
theorem IsPlace.still {d : Destination} {t' : EvalState} (hplace : e.IsPlace) (hlead : LeadsTo ctx t e v d t')
    (haware : e.isStreamAware = false) (hliteral : ∀ ks vs, ¬Occurs (.object ks vs) e) :
    t'.store = t.store ∧ d.value = v := by
  have hchild {e c : Expr} (hc : c ∈ e.children) (haware : e.isStreamAware = false)
      (hliteral : ∀ ks vs, ¬Occurs (.object ks vs) e) {t u : EvalState} {x : Value}
      (h : (c.evaluate ctx .nothing).run t = (.ok x, u)) : u.store = t.store := by
    have hstore := store_evaluate (isStreamAware_of_mem_children hc haware) (fun ks vs h => hliteral ks vs (.inside hc h))
      ctx .nothing t
    rwa [h] at hstore
  induction hplace with
  | scope =>
    cases hlead
    exact ⟨rfl, rfl⟩
  | member =>
    cases hlead with
    | member he => exact ⟨hchild (List.mem_cons_self ..) haware hliteral he, rfl⟩
  | @keyed c k =>
    cases hlead with
    | keyed he hkey =>
      have hc := hchild (List.mem_cons_self ..) haware hliteral he
      have hk := hchild (e := .keyed c k) (by simp [children]) haware hliteral hkey
      exact ⟨hk.trans hc, rfl⟩
  | @behavior c n _ ih =>
    have hc : c ∈ (Expr.behavior c n []).children := List.mem_cons_self ..
    cases hlead with
    | behavior hlead =>
      exact ih hlead (isStreamAware_of_mem_children hc haware) fun ks vs h => hliteral ks vs (.inside hc h)

end Expr

namespace Session

open DataBinding.Expr (Occurs IsPlace)

variable {s : Session} {y : SystemId} {flags : EvalFlags} {scope : Scope} {host : Option Scope} {e : Expr} {v : Value}
  {r : Reaction}

/-- A write to a property that nobody listens to tells nobody. -/
theorem tasks_write_of_unheard {o : ObjectId} {n : String} (h : (s.store.listeners (.property o n)).audience = []) :
    ∀ task ∈ (s.write o n v).tasks, ∃ previous, task = .notify (.property o n) v previous [] := by
  have hput : (s.store.setObject o ((s.store.object o).put n v)).listeners (.property o n) =
      s.store.listeners (.property o n) := by
    simp only [Store.listeners, Store.object_setObject, if_pos, Object.put]
  unfold write
  dsimp only
  split
  · intro task htask
    obtain rfl := List.mem_singleton.1 htask
    refine ⟨_, congrArg _ ?_⟩
    have hentries : (s.store.listeners (.property o n)).entries = [] := List.map_eq_nil_iff.1 h
    rw [Listeners.audience, (Store.relists_sweep ..).entries, if_pos rfl, hput, hentries]
    rfl
  · exact fun task htask => by cases htask

/-- An assignment that is not refused leads to a place. -/
theorem exists_leadsTo_of_assign {z : System} (hz : s.systems.get? y = some z)
    (hassign : s.assign y flags scope host e v = .ok r) : ∃ t d,
      Expr.LeadsTo { flags, scope, host, converters := z.converters, alive := s.isAlive }
        { store := s.store, registry := z.registry } e v d t ∧
      s.destination y flags scope host e v = (s.withEval y z t, .ok d) := by
  have hdest := destination_of_get? hz flags scope host e v
  rw [Session.assign] at hassign
  cases hd : s.destination y flags scope host e v with
  | mk u result =>
    rw [hd] at hassign hdest
    cases result with
    | error x => cases hassign
    | ok d =>
      obtain ⟨rfl, hresult⟩ := Prod.mk.inj hdest
      exact ⟨_, d, Expr.leadsTo_of_run_destination (Prod.ext hresult.symm rfl), rfl⟩

/-- What is assigned to a name, a member or an item is what evaluating it in the same strict context gives next, whoever
watches, as long as no listener acts in between; if nobody listens to the written property, nobody is told. A member or
an item has to be there already, and must not be read on the way to it. -/
theorem evaluate_assigned (hplace : e.IsPlace) (haware : e.isStreamAware = false)
    (hliteral : ∀ ks vs, ¬Occurs (.object ks vs) e) (hstrict : flags.strict = true)
    (hassign : s.assign y flags scope host e v = .ok r)
    (hslot : e.assignee.kind ≠ .accessScope → ∀ d, (s.destination y flags scope host e v).2 = .ok d →
      s.store.hasProperty d.object d.name = true ∧ ∀ c ∈ e.assignee.children, .property d.object d.name ∉
        (s.evaluate y { flags with leafOnly := false } scope host .everything c).2.1) :
    (∀ w, (r.session.evaluate y flags scope host w e).2.2 = .ok v) ∧
      ∀ d, (s.destination y flags scope host e v).2 = .ok d →
        (s.store.listeners (.property d.object d.name)).audience = [] →
          ∀ task ∈ r.tasks, ∃ previous, task = .notify (.property d.object d.name) v previous [] := by
  cases hz : s.systems.get? y with
  | none => simp [Session.assign, Session.destination, hz] at hassign
  | some z =>
    obtain ⟨t, d, hlead, hdest⟩ := exists_leadsTo_of_assign hz hassign
    obtain ⟨hstore, hvalue⟩ := hplace.still hlead haware hliteral
    obtain rfl : (s.withEval y z t).write d.object d.name d.value = r := by
      rw [Session.assign, hdest] at hassign
      exact Except.ok.inj hassign
    have hwith : (s.withEval y z t).store = s.store := hstore
    refine ⟨fun w => ?_, fun d' hd' hunheard => ?_⟩
    · have hbut := sameBut_write (s.withEval y z t) d.object d.name d.value
      have hhas := hasProperty_write (s.withEval y z t) d.object d.name d.value d.object d.name
      rw [hwith] at hbut
      rw [evaluate_of_get? (z := { z with registry := t.registry }) (by rw [systems_write, get?_withEval])]
      refine (hplace.read_back hlead haware hliteral hstrict hbut (by simp [hhas]) (fun hkind => ?_) _ w).trans ?_
      · obtain ⟨hhad, hreads⟩ := hslot hkind d (by rw [hdest])
        simp only [evaluate_of_get? hz] at hreads
        exact ⟨hhad, hreads⟩
      · rw [property_write, hvalue]
    · rw [hdest] at hd'
      obtain rfl := Except.ok.inj hd'
      rw [← hvalue]
      exact tasks_write_of_unheard (by rwa [hwith])

/-- A host with a user in a model. -/
private def userInModel : List Act :=
  [.command (.makeObject "user" [("name", .text "Ann")]), .command (.makeObject "model" [("user", .object "user")]),
    .command (.makeScope "scope" "model" none none)]

private def modelScope : Scope := ⟨⟨4⟩, ⟨⟨2⟩, ⟨3⟩⟩, []⟩

/-- The user's name through a key and a behavior, and a name that is not there yet. -/
theorem evaluate_assigned_user :
    let s := initial.play userInModel
    let flags : EvalFlags := { strict := true }
    let item := Expr.behavior (.keyed (.scope "user" 0 false) (.literal (.text "name"))) "signal" []
    let name := Expr.scope "nickname" 0 false
    (∃ r, s.assign ⟨0⟩ flags modelScope none item (.text "Eve") = .ok r ∧
      ∀ w, (r.session.evaluate ⟨0⟩ flags modelScope none w item).2.2 = .ok (.text "Eve")) ∧
    ∃ r, s.assign ⟨0⟩ flags modelScope none name (.text "Eve") = .ok r ∧
      ∀ w, (r.session.evaluate ⟨0⟩ flags modelScope none w name).2.2 = .ok (.text "Eve") := by
  intro s flags item name
  have hliteral : ∀ ks vs, ¬Occurs (.object ks vs) item := by
    intro ks vs h
    change Occurs _ (Expr.behavior (.keyed (.scope "user" 0 false) (.literal (.text "name"))) "signal" []) at h
    obtain - | ⟨hc, h⟩ := h
    obtain rfl : _ = Expr.keyed _ _ := List.mem_singleton.1 hc
    obtain - | ⟨hc, h⟩ := h
    obtain rfl | rfl : _ = Expr.scope .. ∨ _ = Expr.literal _ := by simpa [Expr.children] using hc
    all_goals
      obtain - | ⟨hc, h⟩ := h
      cases hc
  have hname : ∀ ks vs, ¬Occurs (.object ks vs) name := by
    intro ks vs h
    change Occurs _ (Expr.scope "nickname" 0 false) at h
    obtain - | ⟨hc, h⟩ := h
    cases hc
  have hok (e : Expr) (h : (s.assign ⟨0⟩ flags modelScope none e (.text "Eve")).isOk = true) :
      ∃ r, s.assign ⟨0⟩ flags modelScope none e (.text "Eve") = .ok r := by
    cases hr : s.assign ⟨0⟩ flags modelScope none e (.text "Eve") with
    | error x =>
      rw [hr] at h
      cases h
    | ok r => exact ⟨r, rfl⟩
  have hplace : ((s.destination ⟨0⟩ flags modelScope none item (.text "Eve")).2.toOption.map fun d =>
      (d.object, d.name)) = some (⟨1⟩, "name") := by decide +kernel
  have hreads : ∀ c ∈ item.assignee.children, .property ⟨1⟩ "name" ∉
      (s.evaluate ⟨0⟩ { flags with leafOnly := false } modelScope none .everything c).2.1 := by decide +kernel
  obtain ⟨r, hr⟩ := hok item (by decide +kernel)
  obtain ⟨r', hr'⟩ := hok name (by decide +kernel)
  refine ⟨⟨r, hr, (evaluate_assigned (.behavior .keyed) rfl hliteral rfl hr fun _ d hd => ?_).1⟩,
    r', hr', (evaluate_assigned .scope rfl hname rfl hr' fun hkind => absurd rfl hkind).1⟩
  rw [hd] at hplace
  obtain ⟨hobject, hkey⟩ := Prod.mk.inj (Option.some.inj hplace)
  rw [hobject, hkey]
  exact ⟨by decide +kernel, hreads⟩

end Session

end DataBinding
