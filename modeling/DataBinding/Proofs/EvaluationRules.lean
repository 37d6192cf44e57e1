import DataBinding.Session.Holding

/-!
# Reasoning about evaluations

An evaluation is put together from a few operations: it looks names up, reads properties, reads through streams, makes
objects and fetches converters. The `evaluate_*` equations write each kind of node with these operations alone. `Rules`
says what a relation between two computations needs to know of them, and `Rules.evaluate` draws the conclusion for
every expression; so the induction over expressions is done once. `Rules.destination` does the same for what is
assigned through an expression.
-/

namespace DataBinding

/-- The expression `d` is `e` or stands somewhere in it. -/
inductive Expr.Occurs (d : Expr) : Expr → Prop
  | here : Occurs d d
  | inside {c e : Expr} : c ∈ e.children → Occurs d c → Occurs d e

theorem Value.eq_of_stream? {v : Value} {i : StreamId} (h : v.stream? = some i) : v = .stream i := by
  cases v <;> simp_all [stream?]

/-- The levels of the scopes that an evaluation looks names up in. -/
def EvalContext.levels (ctx : EvalContext) : List Level := ctx.scope.levels ++ ctx.host.toList.flatMap Scope.levels

/-! ### Where names belong -/

theorem Level.defining?_eq {has : ObjectId → String → Bool} {n : String} {l : Level} {o : ObjectId}
    (h : l.defining? has n = some o) : o = l.context ∨ o = l.override := by
  unfold defining? at h
  split at h
  · exact .inr (by simpa using h.symm)
  · split at h
    · exact .inl (by simpa using h.symm)
    · cases h

theorem exists_level_of_findIn {has : ObjectId → String → Bool} {n : String} {ls : List Level} {o : ObjectId}
    (h : findIn has n ls = some o) : ∃ l ∈ ls, o = l.context ∨ o = l.override := by
  induction ls with
  | nil => cases h
  | cons l ls ih =>
    unfold findIn at h
    cases hl : l.defining? has n with
    | some p =>
      rw [hl] at h
      obtain rfl : p = o := by simpa using h
      exact ⟨l, by simp, Level.defining?_eq hl⟩
    | none =>
      rw [hl] at h
      obtain ⟨k, hk, ho⟩ := ih h
      exact ⟨k, by simp [hk], ho⟩

/-- A name belongs to a context or an override context of a level that is searched. -/
theorem exists_level_of_resolve {has : ObjectId → String → Bool} {x : Scope} {n : String} {depth : Nat}
    {host : Option Scope} {o : ObjectId} (h : resolve has x n depth host = some o) :
    ∃ l ∈ x.levels ++ host.toList.flatMap Scope.levels, o = l.context ∨ o = l.override := by
  cases depth with
  | zero =>
    simp only [resolve] at h
    cases hx : findIn has n x.levels with
    | some p =>
      rw [hx] at h
      obtain rfl : p = o := by simpa using h
      obtain ⟨l, hl, ho⟩ := exists_level_of_findIn hx
      exact ⟨l, by simp [hl], ho⟩
    | none =>
      rw [hx] at h
      dsimp only at h
      cases hh : host.bind fun y => findIn has n y.levels with
      | some p =>
        rw [hh] at h
        obtain rfl : p = o := by simpa using h
        obtain ⟨y, rfl, hy⟩ := Option.bind_eq_some_iff.1 hh
        obtain ⟨l, hl, ho⟩ := exists_level_of_findIn hy
        exact ⟨l, by simp [hl], ho⟩
      | none =>
        rw [hh] at h
        obtain rfl : x.inner.context = o := by simpa using h
        exact ⟨x.inner, by simp [Scope.levels], .inl rfl⟩
  | succ d =>
    simp only [resolve] at h
    obtain ⟨l, hl, rfl⟩ := Option.map_eq_some_iff.1 h
    refine ⟨l, List.mem_append.2 (.inl (List.mem_of_getElem? hl)), ?_⟩
    cases hd : l.defining? has n with
    | none => exact .inl rfl
    | some p => exact Level.defining?_eq hd

namespace Eval

/-! ### Running computations -/

theorem ext_run {α : Type} {m m' : Eval α} (h : ∀ t, m.run t = m'.run t) : m = m' := funext h

theorem run_bind {α β : Type} (m : Eval α) (f : α → Eval β) (t : EvalState) :
    (m >>= f).run t = match m.run t with
      | (.ok a, t') => (f a).run t'
      | (.error x, t') => (.error x, t') := by
  simp only [bind, ExceptT.bind, ExceptT.run, ExceptT.mk, StateT.bind]
  cases m t with
  | mk r t' => cases r <;> rfl

@[simp] theorem run_pure {α : Type} (a : α) (t : EvalState) : (pure a : Eval α).run t = (.ok a, t) := rfl

@[simp] theorem run_throw {α : Type} (x : ExpressionError) (t : EvalState) :
    (throw x : Eval α).run t = (.error x, t) := rfl

@[simp] theorem run_store (t : EvalState) : store.run t = (.ok t.store, t) := rfl

/-- The object that a name belongs to in a store. -/
def located (ctx : EvalContext) (s : Store) (name : String) (ancestor : UInt32) (fromHost : Bool) : Option ObjectId :=
  match fromHost, ctx.host with
  | true, some host => resolve s.hasProperty host name ancestor.toNat none
  | true, none => none
  | false, host => resolve s.hasProperty ctx.scope name ancestor.toNat host

theorem exists_level_of_located {ctx : EvalContext} {s : Store} {n : String} {a : UInt32} {f : Bool} {o : ObjectId}
    (h : located ctx s n a f = some o) : ∃ l ∈ ctx.levels, o = l.context ∨ o = l.override := by
  unfold located at h
  unfold EvalContext.levels
  cases f with
  | false => exact exists_level_of_resolve h
  | true =>
    cases hh : ctx.host with
    | none => simp [hh] at h
    | some y =>
      rw [hh] at h
      obtain ⟨l, hl, ho⟩ := exists_level_of_resolve h
      exact ⟨l, List.mem_append.2 (.inr (by simpa using hl)), ho⟩

theorem mem_levels_of_ancestor? {ctx : EvalContext} {depth : Nat} {l : Level}
    (h : ctx.scope.ancestor? depth = some l) : l ∈ ctx.levels :=
  List.mem_append.2 (.inl (List.mem_of_getElem? h))

@[simp] theorem run_lookUp (ctx : EvalContext) (n : String) (a : UInt32) (h : Bool) (t : EvalState) :
    (lookUp ctx n a h).run t = (.ok (located ctx t.store n a h), t) := by
  unfold lookUp located
  cases h <;> cases ctx.host <;> rfl

/-- Reads a property and reports that it did. -/
def readValue (w : Watch) (o : ObjectId) (n : String) : Eval Value := do
  readProperty w o n
  return (← store).property o n

/-- What has been reported after a property was read. -/
def reported (w : Watch) (reads : List Read) (o : ObjectId) (n : String) : List Read :=
  if w = .everything then reads ++ [.property o n] else reads

theorem run_readValue (w : Watch) (o : ObjectId) (n : String) (t : EvalState) :
    (readValue w o n).run t = (.ok (t.store.property o n), { t with reads := reported w t.reads o n }) := by
  cases w <;> rfl

/-- The latest value of an observer; undefined if there is no such observer. -/
def cached (s : Store) (o : ObserverId) : Value :=
  match s.observers.get? o with
  | some x => x.value
  | none => .undefined

theorem run_readStream (ctx : EvalContext) (i : StreamId) (t : EvalState) :
    (readStream ctx i).run t =
      let (s, r, o) := t.registry.observerFor ctx.alive t.store i
      (.ok (cached s o), { store := s, registry := r, reads := t.reads ++ [.stream i o] }) := rfl

theorem run_newObject (entries : List (String × Value)) (t : EvalState) :
    (newObject entries).run t =
      let (s, o) := t.store.newObject (Table.ofList entries)
      (.ok (.object o), { t with store := s }) := rfl

theorem run_converter (ctx : EvalContext) (n : String) (t : EvalState) :
    (Eval.converter ctx n).run t = match ctx.converters.get? n with
      | some c => (.ok c, t)
      | none => (.error (.unknownConverter n), t) := by
  unfold Eval.converter
  cases ctx.converters.get? n <;> rfl

/-- Reading through a value that is no stream only turns what is missing into the empty text. -/
theorem readThrough_of_not_stream (ctx : EvalContext) (w : Watch) {v : Value} (h : v.stream? = none) :
    readThrough ctx w v = pure v.orEmpty := by
  cases v <;> cases w <;> first | rfl | simp [Value.stream?] at h

theorem readThrough_stream (ctx : EvalContext) {w : Watch} (h : w ≠ .nothing) (i : StreamId) :
    readThrough ctx w (.stream i) = do return (← readStream ctx i).orEmpty := by
  cases w
  · exact absurd rfl h
  · rfl
  · rfl

end Eval

namespace Expr

open Eval

/-! ### What each kind of node does -/

section

variable (ctx : EvalContext) (w : Watch)

theorem evaluate_scope (n : String) (a : UInt32) (h : Bool) :
    (scope n a h).evaluate ctx w = (do
      match ← lookUp ctx n a h with
      | none => return if ctx.flags.strict then .undefined else .text ""
      | some o =>
        let v ← readValue w o n
        return if ctx.flags.strict then v else v.orEmpty) := by
  simp only [evaluate, readValue]
  congr 1
  funext o
  cases o with
  | none => rfl
  | some o => simp only [bind_assoc, pure_bind]

theorem evaluate_streamScope (n : String) (a : UInt32) (h : Bool) :
    (streamScope n a h).evaluate ctx w = (do
      match ← lookUp ctx n a h with
      | none => return .text ""
      | some o =>
        let v ← readValue w o n
        readThrough ctx w v) := by
  simp only [evaluate, readValue]
  congr 1
  funext o
  cases o with
  | none => rfl
  | some o => simp only [bind_assoc, pure_bind]

/-- What an access to a member of something that is no object gives. -/
def memberOfOther (strict : Bool) (v : Value) (n : String) : Value :=
  if strict && v.isNullish then v else if strict || v.isTruthy then Store.member {} v n else .text ""

theorem evaluate_member (e : Expr) (n : String) :
    (member e n).evaluate ctx w = (do
      match ← e.evaluate ctx (watchObject ctx w) with
      | .object o => readValue w o n
      | v => return memberOfOther ctx.flags.strict v n) := by
  simp only [evaluate, readValue]
  congr 1
  funext v
  cases v
  case object o =>
    simp only [Value.isNullish, Value.isTruthy, Bool.and_false, Bool.or_true]
    rfl
  all_goals
    simp only [memberOfOther, Value.isNullish, Value.isTruthy, Store.member, Bool.and_false, Bool.and_true]
    first | rfl | (split <;> rfl)

theorem evaluate_streamMember (e : Expr) (n : String) :
    (streamMember e n).evaluate ctx w = (do
      match ← e.evaluate ctx (watchObject ctx w) with
      | .object o => do
        let v ← readValue w o n
        readThrough ctx w v
      | v => return memberOfOther ctx.flags.strict v n) := by
  simp only [evaluate, readValue]
  congr 1
  funext v
  cases v
  case object o =>
    apply ext_run
    intro t
    cases w <;> simp only [Value.isNullish, Bool.and_false] <;> rfl
  all_goals
    simp only [memberOfOther, Value.isNullish, Value.isTruthy, Store.member, Bool.and_false, Bool.and_true]
    first | rfl | (split <;> rfl)

/-- The item of a value that is no object. -/
def itemOfOther (v key : Value) : Value :=
  match v with
  | .array items => ((Operator.index? key).bind (items[·]?)).getD .undefined
  | _ => .undefined

theorem evaluate_keyed (e k : Expr) :
    (keyed e k).evaluate ctx w = (do
      let v ← e.evaluate ctx (watchObject ctx w)
      let key ← k.evaluate ctx w
      match v with
      | .object o => readValue w o key.display
      | v => return itemOfOther v key) := by
  simp only [evaluate, readValue]
  congr 1
  funext v
  congr 1
  funext key
  cases v <;> rfl

/-- What an operation gives in the present store. -/
def operate (op : BinaryOp) (a b : Value) : Eval Value := do
  return Operator.binary (← Eval.store).hasProperty op a b

theorem evaluate_binary (op : BinaryOp) (l r : Expr) :
    (binary op l r).evaluate ctx w = (do
      let a ← l.evaluate ctx w
      if (op = .and ∧ !a.isTruthy) ∨ (op = .or ∧ a.isTruthy) then return a
      let b ← r.evaluate ctx w
      if op = .and ∨ op = .or then return b else operate op a b) := by
  simp only [evaluate, operate]
  congr 1
  funext a
  cases op
  case and => cases a.isTruthy <;> simp
  case or => cases a.isTruthy <;> simp
  all_goals simp

end

end Expr

namespace Eval

open Session (sharedIn sharedInAll)

/-! ### Values without things in them -/

theorem sharedIn_unary (op : UnaryOp) (v : Value) : sharedIn (Operator.unary op v) = [] := by
  cases op
  case negate =>
    cases v
    case int n =>
      simp only [Operator.unary]
      split <;> rfl
    all_goals rfl
  all_goals cases v <;> rfl

theorem sharedIn_arithmetic (op : BinaryOp) (a b : Value) : sharedIn (Operator.arithmetic op a b) = [] := by
  unfold Operator.arithmetic
  dsimp only
  split
  · split <;> rfl
  · rfl

theorem sharedIn_binary (has : ObjectId → String → Bool) (op : BinaryOp) (a b : Value) :
    sharedIn (Operator.binary has op a b) = [] := by
  cases op
  case add =>
    simp only [Operator.binary]
    split
    · rfl
    · exact sharedIn_arithmetic ..
  case sub => exact sharedIn_arithmetic ..
  case mul => exact sharedIn_arithmetic ..
  case div => exact sharedIn_arithmetic ..
  case mod => exact sharedIn_arithmetic ..
  case isIn => cases b <;> rfl
  all_goals rfl

theorem sharedIn_memberOfOther (strict : Bool) {v : Value} (h : v.object? = none) (n : String) :
    sharedIn (Expr.memberOfOther strict v n) = [] := by
  unfold Expr.memberOfOther
  split
  next hn =>
    cases v <;> first | rfl | simp [Value.isNullish] at hn
  · split
    · cases v
      case object o => simp [Value.object?] at h
      case text s => simp only [Store.member]; split <;> rfl
      case array s => simp only [Store.member]; split <;> rfl
      all_goals rfl
    · rfl

/-! ### Rules for all expressions -/

/-- What has to be known of the operations of an evaluation so that `M` relates the evaluations of an expression in two
contexts. `M a Q m m'` is meant to say that if `m` and `m'` start where `a` is the case, they end where some later `b`
is the case and `Q b r` holds of a result `r`; `ok` is what holds of the values, and goes on to hold. The two watch
reads in ways that `covers` admits together, and `admits` holds of all nodes of the expression. -/
structure Rules {ω : Type} (later : ω → ω → Prop) (ctx ctx' : EvalContext) (covers : Watch → Watch → Prop)
    (admits : Expr → Prop) (ok : ω → Value → Prop)
    (M : {α : Type} → ω → (ω → α → Prop) → Eval α → Eval α → Prop) : Prop where
  strict : ctx'.flags.strict = ctx.flags.strict
  scope : ctx'.scope = ctx.scope
  watchObject {w w' : Watch} : covers w w' → covers (watchObject ctx w) (watchObject ctx' w')
  mono {a b : ω} {v : Value} : later a b → ok a v → ok b v
  plain {a : ω} {v : Value} : sharedIn v = [] → ok a v
  items {a : ω} {vs : List Value} : ok a (.array vs) ↔ ∀ v ∈ vs, ok a v
  level {a : ω} {n : Nat} {l : Level} : ctx.scope.ancestor? n = some l → ok a (.object l.context)
  pure {α : Type} {a : ω} {Q : ω → α → Prop} {x : α} : Q a x → M a Q (pure x) (pure x)
  throw {α : Type} {a : ω} {Q : ω → α → Prop} (x : ExpressionError) : M a Q (throw x : Eval α) (throw x)
  bind {α β : Type} {a : ω} {Q : ω → α → Prop} {Q' : ω → β → Prop} {m m' : Eval α} {f f' : α → Eval β} :
    M a Q m m' → (∀ b x, later a b → Q b x → M b Q' (f x) (f' x)) → M a Q' (m >>= f) (m' >>= f')
  lookUp {a : ω} {n : String} {c : UInt32} {h : Bool} : admits (.scope n c h) ∨ admits (.streamScope n c h) →
    M a (fun b o? => ∀ o, o? = some o → ok b (.object o)) (lookUp ctx n c h) (lookUp ctx' n c h)
  readValue {a : ω} {w w' : Watch} {o : ObjectId} {n : String} : covers w w' → ok a (.object o) →
    M a ok (readValue w o n) (readValue w' o n)
  readThrough {a : ω} {w w' : Watch} {v : Value} : covers w w' → ok a v →
    M a ok (readThrough ctx w v) (readThrough ctx' w' v)
  operate {a : ω} {op : BinaryOp} {l r : Expr} {x y : Value} : admits (.binary op l r) → ok a x → ok a y →
    M a ok (Expr.operate op x y) (Expr.operate op x y)
  newObject {a : ω} {ks : List String} {vs : List Expr} {xs : List Value} : admits (.object ks vs) →
    (∀ x ∈ xs, ok a x) → M a ok (newObject (ks.zip xs)) (newObject (ks.zip xs))
  converter {a : ω} {e : Expr} {n : String} {args : List Expr} : admits (.converter e n args) →
    M a (fun _ c => ∀ b v xs, ok b v → (∀ x ∈ xs, ok b x) → ok b (c.toView v xs)) (Eval.converter ctx n)
      (Eval.converter ctx' n)

/-- The rules of a property of one computation alone, which asks nothing of the values: it goes along with `bind`, and
holds of whatever leaves the state as it is and of the three operations that do not. -/
theorem rules_alone (ctx : EvalContext) {P : {α : Type} → (α → Prop) → Eval α → Prop}
    (hbind : ∀ {α β : Type} {Q : α → Prop} {Q' : β → Prop} {m : Eval α} {f : α → Eval β},
      P Q m → (∀ r, Q r → P Q' (f r)) → P Q' (m >>= f))
    (hstate : ∀ {α : Type} {Q : α → Prop} {m : Eval α},
      (∀ a, (m.run a).2 = a ∧ ∀ r, (m.run a).1 = .ok r → Q r) → P Q m)
    (hvalue : ∀ w p n, P (fun _ => True) (readValue w p n)) (hstream : ∀ i, P (fun _ => True) (readStream ctx i))
    (hobject : ∀ es, P (fun _ => True) (newObject es)) :
    Rules (fun _ _ : Unit => True) ctx ctx (· = ·) (fun _ => True) (fun _ _ => True) (fun _ Q m _ => P (Q ()) m) where
  strict := rfl
  scope := rfl
  watchObject h := by rw [h]
  mono _ _ := trivial
  plain _ := trivial
  items := by simp
  level _ := trivial
  pure hQ := hstate fun a => ⟨rfl, fun _ hr => Except.ok.inj hr ▸ hQ⟩
  throw x := hstate fun a => ⟨rfl, fun _ hr => by cases hr⟩
  bind hm hf := hbind hm fun r hr => hf () r trivial hr
  lookUp _ := hstate fun a => ⟨by rw [run_lookUp], fun _ _ _ _ => trivial⟩
  readValue {_ w _ p n} _ _ := hvalue w p n
  readThrough {_ w _ v} _ _ := by
    cases hs : v.stream? with
    | none =>
      rw [readThrough_of_not_stream ctx w hs]
      exact hstate fun a => ⟨rfl, fun _ _ => trivial⟩
    | some i =>
      obtain rfl := Value.eq_of_stream? hs
      by_cases hw : w = .nothing
      · subst hw
        exact hstate fun a => ⟨rfl, fun _ _ => trivial⟩
      · rw [readThrough_stream ctx hw]
        exact hbind (hstream i) fun _ _ => hstate fun a => ⟨rfl, fun _ _ => trivial⟩
  operate _ _ _ := hstate fun a => ⟨rfl, fun _ _ => trivial⟩
  newObject _ _ := hobject _
  converter {_ _ n _} _ := by
    refine hstate fun a => ⟨?_, fun _ _ _ _ _ _ _ => trivial⟩
    rw [run_converter]
    cases ctx.converters.get? n <;> rfl

namespace Rules

variable {ω : Type} {later : ω → ω → Prop} {ctx ctx' : EvalContext} {covers : Watch → Watch → Prop}
  {admits : Expr → Prop} {ok : ω → Value → Prop} {M : {α : Type} → ω → (ω → α → Prop) → Eval α → Eval α → Prop}

theorem ok_text (R : Rules later ctx ctx' covers admits ok M) {a : ω} (s : String) : ok a (.text s) := R.plain rfl

theorem ok_item (R : Rules later ctx ctx' covers admits ok M) {a : ω} {v : Value} (hv : ok a v) (key : Value) :
    ok a (Expr.itemOfOther v key) := by
  unfold Expr.itemOfOther
  split
  next items =>
    cases h : (Operator.index? key).bind (items[·]?) with
    | none => exact R.plain rfl
    | some x =>
      obtain ⟨i, _, hi⟩ := Option.bind_eq_some_iff.1 h
      exact R.items.1 hv x (List.mem_of_getElem? hi)
  · exact R.plain rfl

theorem ok_orEmpty (R : Rules later ctx ctx' covers admits ok M) {a : ω} {v : Value} (hv : ok a v) :
    ok a v.orEmpty := by
  unfold Value.orEmpty
  split
  · exact R.ok_text ""
  · exact hv

mutual

/-- Evaluations of an expression are related if all operations are. -/
theorem evaluate (R : Rules later ctx ctx' covers admits ok M) :
    ∀ (e : Expr), (∀ d, Expr.Occurs d e → admits d) → ∀ {a : ω} {w w' : Watch}, covers w w' →
      M a ok (e.evaluate ctx w) (e.evaluate ctx' w')
  | .this n, _, a, _, _, _ => by
    simp only [Expr.evaluate, R.scope]
    apply R.pure
    cases h : ctx.scope.ancestor? n.toNat with
    | none => exact R.plain rfl
    | some l => exact R.level h
  | .scope n c h, hd, a, w, w', hw => by
    rw [Expr.evaluate_scope, Expr.evaluate_scope, R.strict]
    apply R.bind (R.lookUp (.inl (hd _ .here)))
    rintro b (_ | o) _ ho
    · apply R.pure
      split <;> exact R.plain rfl
    · apply R.bind (R.readValue hw (ho o rfl))
      intro c v _ hv
      apply R.pure
      split
      · exact hv
      · exact R.ok_orEmpty hv
  | .streamScope n c h, hd, a, w, w', hw => by
    rw [Expr.evaluate_streamScope, Expr.evaluate_streamScope]
    apply R.bind (R.lookUp (.inr (hd _ .here)))
    rintro b (_ | o) _ ho
    · exact R.pure (R.ok_text "")
    · exact R.bind (R.readValue hw (ho o rfl)) fun c v _ hv => R.readThrough hw hv
  | .member e n, hd, a, w, w', hw => by
    rw [Expr.evaluate_member, Expr.evaluate_member, R.strict]
    apply R.bind (R.evaluate e (fun d h => hd d (.inside (by simp [Expr.children]) h)) (R.watchObject hw))
    intro b v _ hv
    cases v
    case object o => exact R.readValue hw hv
    all_goals exact R.pure (R.plain (sharedIn_memberOfOther _ rfl n))
  | .streamMember e n, hd, a, w, w', hw => by
    rw [Expr.evaluate_streamMember, Expr.evaluate_streamMember, R.strict]
    apply R.bind (R.evaluate e (fun d h => hd d (.inside (by simp [Expr.children]) h)) (R.watchObject hw))
    intro b v _ hv
    cases v
    case object o => exact R.bind (R.readValue hw hv) fun c v _ hv => R.readThrough hw hv
    all_goals exact R.pure (R.plain (sharedIn_memberOfOther _ rfl n))
  | .keyed e k, hd, a, w, w', hw => by
    rw [Expr.evaluate_keyed, Expr.evaluate_keyed]
    apply R.bind (R.evaluate e (fun d h => hd d (.inside (by simp [Expr.children]) h)) (R.watchObject hw))
    intro b v _ hv
    apply R.bind (R.evaluate k (fun d h => hd d (.inside (by simp [Expr.children]) h)) hw)
    intro c key hc hkey
    have hv := R.mono hc hv
    cases v
    case object o => exact R.readValue hw hv
    all_goals exact R.pure (R.ok_item hv key)
  | .unary op e, hd, a, w, w', hw => by
    simp only [Expr.evaluate]
    apply R.bind (R.evaluate e (fun d h => hd d (.inside (by simp [Expr.children]) h)) hw)
    intro b v _ _
    exact R.pure (R.plain (sharedIn_unary op v))
  | .binary op l r, hd, a, w, w', hw => by
    rw [Expr.evaluate_binary, Expr.evaluate_binary]
    apply R.bind (R.evaluate l (fun d h => hd d (.inside (by simp [Expr.children]) h)) hw)
    intro b x _ hx
    split
    · exact R.pure hx
    · apply R.bind (R.evaluate r (fun d h => hd d (.inside (by simp [Expr.children]) h)) hw)
      intro c y hc hy
      split
      · exact R.pure hy
      · exact R.operate (hd _ .here) (R.mono hc hx) hy
  | .conditional c y n, hd, a, w, w', hw => by
    simp only [Expr.evaluate]
    apply R.bind (R.evaluate c (fun d h => hd d (.inside (by simp [Expr.children]) h)) hw)
    intro b v _ _
    split
    · exact R.evaluate y (fun d h => hd d (.inside (by simp [Expr.children]) h)) hw
    · exact R.evaluate n (fun d h => hd d (.inside (by simp [Expr.children]) h)) hw
  | .literal l, _, a, _, _, _ => by
    simp only [Expr.evaluate]
    exact R.pure (R.plain (by cases l <;> rfl))
  | .array es, hd, a, w, w', hw => by
    simp only [Expr.evaluate]
    apply R.bind (R.evaluateAll es (fun c hc d h => hd d (.inside hc h)) hw)
    intro b vs _ hvs
    exact R.pure (R.items.2 hvs)
  | .object ks es, hd, a, w, w', hw => by
    simp only [Expr.evaluate]
    apply R.bind (R.evaluateAll es (fun c hc d h => hd d (.inside hc h)) hw)
    intro b vs _ hvs
    exact R.newObject (hd _ .here) hvs
  | .template ss ps, hd, a, w, w', hw => by
    simp only [Expr.evaluate]
    apply R.bind (R.renderParts ps _ (fun c hc d h => hd d (.inside hc h)) hw)
    exact fun b t _ _ => R.pure (R.ok_text _)
  | .streamTemplate ss ps, hd, a, w, w', hw => by
    simp only [Expr.evaluate]
    apply R.bind (R.renderParts ps _ (fun c hc d h => hd d (.inside hc h)) hw)
    exact fun b t _ _ => R.pure (R.ok_text _)
  | .interpolation ss ps, hd, a, w, w', hw => by
    simp only [Expr.evaluate]
    apply R.bind (R.renderParts ps _ (fun c hc d h => hd d (.inside hc h)) hw)
    exact fun b t _ _ => R.pure (R.ok_text _)
  | .converter e n args, hd, a, w, w', hw => by
    simp only [Expr.evaluate]
    apply R.bind (R.converter (hd _ .here))
    intro b c _ hc
    apply R.bind (R.evaluate e (fun d h => hd d (.inside (by simp [Expr.children]) h)) hw)
    intro b v _ hv
    apply R.bind (R.evaluateAll args (fun c hc d h => hd d (.inside (List.mem_cons_of_mem _ hc) h)) hw)
    intro b' vs hb hvs
    exact R.pure (hc b' v vs (R.mono hb hv) hvs)
  | .behavior e n args, hd, a, w, w', hw => by
    simp only [Expr.evaluate]
    apply R.bind (R.evaluate e (fun d h => hd d (.inside (by simp [Expr.children]) h)) hw)
    intro b v _ hv
    apply R.bind (R.evaluateAll args (fun c hc d h => hd d (.inside (List.mem_cons_of_mem _ hc) h)) hw)
    exact fun c _ hc _ => R.pure (R.mono hc hv)
  | .callScope .., _, _, _, _, _ | .callMember .., _, _, _, _, _ | .callFunction .., _, _, _, _, _
  | .assign .., _, _, _, _, _ | .taggedTemplate .., _, _, _, _, _ | .html .., _, _, _, _, _ | .forOf .., _, _, _, _, _
  | .identifier .., _, _, _, _, _ | .arrayPattern .., _, _, _, _, _ | .objectPattern .., _, _, _, _, _ => by
    simp only [Expr.evaluate]
    exact R.throw _

theorem evaluateAll (R : Rules later ctx ctx' covers admits ok M) :
    ∀ (es : List Expr), (∀ c ∈ es, ∀ d, Expr.Occurs d c → admits d) → ∀ {a : ω} {w w' : Watch}, covers w w' →
      M a (fun b vs => ∀ v ∈ vs, ok b v) (Expr.evaluateAll ctx w es) (Expr.evaluateAll ctx' w' es)
  | [], _, a, _, _, _ => by
    simp only [Expr.evaluateAll]
    exact R.pure (by simp)
  | e :: es, hd, a, w, w', hw => by
    simp only [Expr.evaluateAll]
    apply R.bind (R.evaluate e (hd e (by simp)) hw)
    intro b v _ hv
    apply R.bind (R.evaluateAll es (fun c hc => hd c (List.mem_cons_of_mem _ hc)) hw)
    intro c vs hc hvs
    apply R.pure
    intro x hx
    rcases List.mem_cons.1 hx with rfl | hx
    · exact R.mono hc hv
    · exact hvs x hx

theorem renderParts (R : Rules later ctx ctx' covers admits ok M) :
    ∀ (es : List Expr) (ss : List String), (∀ c ∈ es, ∀ d, Expr.Occurs d c → admits d) →
      ∀ {a : ω} {w w' : Watch}, covers w w' →
        M a (fun _ _ => True) (Expr.renderParts ctx w ss es) (Expr.renderParts ctx' w' ss es)
  | [], ss, _, a, _, _, _ => by
    simp only [Expr.renderParts]
    exact R.pure trivial
  | e :: es, ss, hd, a, w, w', hw => by
    simp only [Expr.renderParts]
    apply R.bind (R.evaluate e (hd e (by simp)) hw)
    intro b v _ _
    apply R.bind (R.renderParts es ss.tail (fun c hc => hd c (List.mem_cons_of_mem _ hc)) hw)
    exact fun _ _ _ _ => R.pure trivial

end

/-- What is assigned through an expression goes to related places if all operations are related, and if what a
converter gives back is as good as what it is given. -/
theorem destination (R : Rules later ctx ctx' covers admits ok M) (hnothing : covers .nothing .nothing)
    (hconverter : ∀ {a : ω} {e : Expr} {n : String} {args : List Expr}, admits (.converter e n args) →
      M a (fun _ c => ∀ b v xs, ok b v → (∀ x ∈ xs, ok b x) → ok b (c.fromView v xs)) (Eval.converter ctx n)
        (Eval.converter ctx' n)) :
    ∀ (e : Expr), (∀ d, Expr.Occurs d e → admits d) → ∀ {a : ω} {v : Value}, ok a v →
      M a (fun b d => ok b (.object d.object) ∧ ok b d.value) (e.destination ctx v) (e.destination ctx' v)
  | .scope n c h, hd, a, v, hv => by
    simp only [Expr.destination]
    apply R.bind (R.lookUp (.inl (hd _ .here)))
    rintro b (_ | o) hlater ho
    · exact R.throw _
    · exact R.pure ⟨ho o rfl, R.mono hlater hv⟩
  | .member e n, hd, a, v, hv => by
    simp only [Expr.destination]
    apply R.bind (R.evaluate e (fun d h => hd d (.inside (by simp [Expr.children]) h)) hnothing)
    intro b x hlater hx
    cases x
    case object o => exact R.pure ⟨hx, R.mono hlater hv⟩
    all_goals exact R.throw _
  | .keyed e k, hd, a, v, hv => by
    simp only [Expr.destination]
    apply R.bind (R.evaluate e (fun d h => hd d (.inside (by simp [Expr.children]) h)) hnothing)
    intro b x hlater hx
    apply R.bind (R.evaluate k (fun d h => hd d (.inside (by simp [Expr.children]) h)) hnothing)
    intro c key hlater' _
    cases x
    case object o => exact R.pure ⟨R.mono hlater' hx, R.mono hlater' (R.mono hlater hv)⟩
    all_goals exact R.throw _
  | .converter e n args, hd, a, v, hv => by
    simp only [Expr.destination]
    apply R.bind (hconverter (hd _ .here))
    intro b c hlater hc
    apply R.bind (R.evaluateAll args (fun c hc d h => hd d (.inside (List.mem_cons_of_mem _ hc) h)) hnothing)
    intro b' vs hlater' hvs
    exact R.destination hnothing hconverter e (fun d h => hd d (.inside (by simp [Expr.children]) h))
      (hc b' v vs (R.mono hlater' (R.mono hlater hv)) hvs)
  | .behavior e n args, hd, a, v, hv => by
    simp only [Expr.destination]
    exact R.destination hnothing hconverter e (fun d h => hd d (.inside (by simp [Expr.children]) h)) hv
  | .this .., _, a, v, _ | .callScope .., _, a, v, _ | .callMember .., _, a, v, _ | .callFunction .., _, a, v, _
  | .unary .., _, a, v, _ | .binary .., _, a, v, _ | .conditional .., _, a, v, _ | .assign .., _, a, v, _
  | .literal .., _, a, v, _ | .array .., _, a, v, _ | .object .., _, a, v, _ | .template .., _, a, v, _
  | .taggedTemplate .., _, a, v, _ | .interpolation .., _, a, v, _ | .html .., _, a, v, _ | .forOf .., _, a, v, _
  | .identifier .., _, a, v, _ | .arrayPattern .., _, a, v, _ | .objectPattern .., _, a, v, _
  | .streamScope .., _, a, v, _ | .streamMember .., _, a, v, _ | .streamTemplate .., _, a, v, _ => by
    simp only [Expr.destination]
    exact R.throw _

end Rules

end Eval

end DataBinding
