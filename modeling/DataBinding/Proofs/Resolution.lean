import DataBinding.Proofs.OneWrite

/-!
# Where a name belongs

A scope is searched level by level, and each level by its override context and then by its binding context. Laid out
one after the other these make up one list (`Scope.contexts`), and searching the scope is finding the first object of
that list that has the name. So shadowing, the search of the host's scope and the object that is taken when nobody has
the name are all read off `resolve_zero`, and what an ancestor decides off `resolve_succ`. Evaluating an access to a
name and assigning through it ask for the same object (`Session.owner?`).
-/

namespace DataBinding

/-- The contexts of a level, the one that is asked first in front. -/
def Level.contexts (l : Level) : List ObjectId := [l.override, l.context]

/-- The contexts of a scope in the order in which they are asked for a name, from the innermost level to the root. -/
def Scope.contexts (x : Scope) : List ObjectId := x.levels.flatMap Level.contexts

section

variable (has : ObjectId → String → Bool) (n : String)

/-! ### Searching levels -/

theorem Level.defining?_eq_find? (l : Level) : l.defining? has n = l.contexts.find? (has · n) := by
  unfold defining? contexts
  by_cases hoverride : has l.override n
  · simp [hoverride]
  · by_cases hcontext : has l.context n <;> simp [hoverride, hcontext]

theorem findIn_eq_find? (ls : List Level) : findIn has n ls = (ls.flatMap Level.contexts).find? (has · n) := by
  induction ls with
  | nil => rfl
  | cons l ls ih =>
    unfold findIn
    rw [List.flatMap_cons, List.find?_append, Level.defining?_eq_find?, ih]
    cases l.contexts.find? (has · n) <;> rfl

/-! ### The object of a name -/

/-- Without an ancestor a name belongs to the first object that has it, of the scope and then of the host's scope, and
to the innermost binding context if there is none. -/
theorem resolve_zero (x : Scope) (host : Option Scope) :
    resolve has x n 0 host =
      some (((x.contexts ++ host.toList.flatMap Scope.contexts).find? (has · n)).getD x.inner.context) := by
  have hhost : (host.bind fun y => findIn has n y.levels) = (host.toList.flatMap Scope.contexts).find? (has · n) := by
    cases host with
    | none => rfl
    | some y => simpa [Scope.contexts] using findIn_eq_find? has n y.levels
  rw [List.find?_append, Scope.contexts, ← findIn_eq_find?, ← hhost]
  unfold resolve
  dsimp only
  cases findIn has n x.levels with
  | some o => rfl
  | none => cases host.bind fun y => findIn has n y.levels <;> rfl

/-- With an ancestor only that level is asked; the host's scope never is. -/
theorem resolve_succ (x : Scope) (k : Nat) (host : Option Scope) :
    resolve has x n (k + 1) host = x.outer[k]?.map fun l => (l.contexts.find? (has · n)).getD l.context := by
  simp only [resolve, Scope.ancestor?, Scope.levels, List.getElem?_cons_succ, Level.defining?_eq_find?]

theorem resolve_eq_none_iff (x : Scope) (k : Nat) (host : Option Scope) :
    resolve has x n k host = none ↔ x.outer.length < k := by
  cases k with
  | zero => simp [resolve_zero]
  | succ k => rw [resolve_succ, Option.map_eq_none_iff, List.getElem?_eq_none_iff, Nat.lt_succ_iff]

end

/-! ### Accesses to names -/

namespace Eval

variable (ctx : EvalContext) (w : Watch) (n : String) (a : UInt32) (f : Bool) (t : EvalState)

theorem run_evaluate_scope :
    ((Expr.scope n a f).evaluate ctx w).run t =
      match located ctx t.store n a f with
      | none => (.ok (if ctx.flags.strict then .undefined else .text ""), t)
      | some o =>
        (.ok (if ctx.flags.strict then t.store.property o n else (t.store.property o n).orEmpty),
          { t with reads := reported w t.reads o n }) := by
  rw [Expr.evaluate_scope, run_bind, run_lookUp]
  cases located ctx t.store n a f with
  | none => rfl
  | some o =>
    dsimp only
    rw [run_bind, run_readValue]
    rfl

/-- Reading through a stream reports the stream at most, after all that was reported before. -/
theorem exists_reads_readThrough (v : Value) :
    ∃ rs, ((readThrough ctx w v).run t).2.reads = t.reads ++ rs := by
  cases hv : v.stream? with
  | none => exact ⟨[], by rw [readThrough_of_not_stream ctx w hv]; simp⟩
  | some i =>
    obtain rfl := Value.eq_of_stream? hv
    cases w with
    | nothing => exact ⟨[], by simp [readThrough]⟩
    | streams | everything => exact ⟨[_], rfl⟩

/-- An access that reads through a stream reports the property first that it found the stream in. -/
theorem head?_reads_streamScope (ht : t.reads = []) :
    (((Expr.streamScope n a f).evaluate ctx .everything).run t).2.reads.head? =
      (located ctx t.store n a f).map (.property · n) := by
  rw [Expr.evaluate_streamScope, run_bind, run_lookUp]
  cases located ctx t.store n a f with
  | none => simp [ht]
  | some o =>
    dsimp only
    rw [run_bind, run_readValue]
    obtain ⟨rs, hrs⟩ := exists_reads_readThrough ctx .everything
      { t with reads := reported .everything t.reads o n } (t.store.property o n)
    rw [hrs, ht]
    rfl

/-- While nothing is watched a stream is read as it is. -/
theorem run_evaluate_streamScope_nothing :
    ((Expr.streamScope n a f).evaluate ctx .nothing).run t =
      match located ctx t.store n a f with
      | none => (.ok (.text ""), t)
      | some o => (.ok (t.store.property o n).orEmpty, t) := by
  rw [Expr.evaluate_streamScope, run_bind, run_lookUp]
  cases located ctx t.store n a f with
  | none => rfl
  | some o =>
    dsimp only
    rw [run_bind, run_readValue]
    rfl

end Eval

namespace Session

/-- The object that an access to a name belongs to: in the scope and then in the host's scope, or in the host's scope
alone if the access asks for it. -/
def owner? (s : Session) (scope : Scope) (host : Option Scope) (n : String) (a : UInt32) (fromHost : Bool) :
    Option ObjectId :=
  if fromHost then host.bind fun x => resolve s.store.hasProperty x n a.toNat none
  else resolve s.store.hasProperty scope n a.toNat host

variable {s : Session} {y : SystemId} {z : System}

theorem located_eq_owner? (s : Session) (ctx : EvalContext) (n : String) (a : UInt32) (f : Bool) :
    Eval.located ctx s.store n a f = s.owner? ctx.scope ctx.host n a f := by
  unfold Eval.located owner?
  cases f <;> cases ctx.host <;> rfl

theorem withEval_self (hz : s.systems.get? y = some z) (reads : List Read) :
    s.withEval y z { store := s.store, registry := z.registry, reads } = s := by
  simp only [withEval, Table.insert_of_get? hz]

/-- What the accesses to a name come to if it belongs to an object: the plain one and the one that reads through
streams read the name from that object, and assigning writes to that object. -/
structure Accesses (s : Session) (y : SystemId) (flags : EvalFlags) (scope : Scope) (host : Option Scope) (n : String)
    (a : UInt32) (fromHost : Bool) (o? : Option ObjectId) : Prop where
  plain (w : Watch) : s.evaluate y flags scope host w (.scope n a fromHost) =
    (s, if w = .everything then o?.toList.map (.property · n) else [],
      .ok (o?.elim (if flags.strict then .undefined else .text "") fun o =>
        if flags.strict then s.store.property o n else (s.store.property o n).orEmpty))
  unwatched : s.evaluate y flags scope host .nothing (.streamScope n a fromHost) =
    (s, [], .ok (o?.elim (.text "") fun o => (s.store.property o n).orEmpty))
  /-- What the access finds on the way to a stream is reported before the stream is. -/
  watched : (s.evaluate y flags scope host .everything (.streamScope n a fromHost)).2.1.head? = o?.map (.property · n)
  assigned (v : Value) : s.assign y flags scope host (.scope n a fromHost) v =
    o?.elim (.error (.notAssignable .accessScope)) fun o => .ok (s.write o n v)

theorem accesses_owner? (hz : s.systems.get? y = some z) (flags : EvalFlags) (scope : Scope) (host : Option Scope)
    (n : String) (a : UInt32) (f : Bool) : s.Accesses y flags scope host n a f (s.owner? scope host n a f) where
  plain w := by
    rw [evaluate_of_get? hz, Eval.run_evaluate_scope, located_eq_owner?]
    cases s.owner? scope host n a f with
    | none => simp [withEval_self hz]
    | some o => simp [withEval_self hz, Eval.reported]
  unwatched := by
    rw [evaluate_of_get? hz, Eval.run_evaluate_streamScope_nothing, located_eq_owner?]
    cases s.owner? scope host n a f <;> simp [withEval_self hz]
  watched := by
    rw [evaluate_of_get? hz]
    exact (Eval.head?_reads_streamScope _ n a f _ rfl).trans (congrArg _ (located_eq_owner? s _ n a f))
  assigned v := by
    unfold assign
    rw [destination_of_get? hz]
    simp only [Expr.destination, Eval.run_bind, Eval.run_lookUp, located_eq_owner?]
    cases s.owner? scope host n a f with
    | none => rfl
    | some o => simp [withEval_self hz]

/-- A name belongs to the first object that has it in the scope's contexts and then in the host's, and to the innermost
binding context if nobody has it. An ancestor that is not there gives no object, and any other ancestor decides alone.
All kinds of access to a name go by that: what is read, what a stream is found in and what an assignment writes to is
one and the same object. -/
theorem resolve_first_match (hz : s.systems.get? y = some z) :
    (∀ (has : ObjectId → String → Bool) (x : Scope) (n : String) (host : Option Scope),
      resolve has x n 0 host =
        some (((x.contexts ++ host.toList.flatMap Scope.contexts).find? (has · n)).getD x.inner.context)) ∧
    (∀ (has : ObjectId → String → Bool) (x : Scope) (n : String) (host : Option Scope) (k : Nat), 0 < k →
      (resolve has x n k host = none ↔ x.outer.length < k) ∧
      ∀ l, x.ancestor? k = some l → resolve has x n k host = some ((l.contexts.find? (has · n)).getD l.context)) ∧
    ∀ (flags : EvalFlags) (scope : Scope) (host : Option Scope) (n : String) (a : UInt32) (fromHost : Bool),
      s.Accesses y flags scope host n a fromHost (s.owner? scope host n a fromHost) := by
  refine ⟨fun has x n => resolve_zero has n x, fun has x n host k hk => ?_, accesses_owner? hz⟩
  refine ⟨resolve_eq_none_iff has n x k host, fun l hl => ?_⟩
  obtain ⟨k, rfl⟩ := Nat.exists_eq_add_of_lt hk
  rw [Nat.zero_add, Scope.ancestor?, Scope.levels, List.getElem?_cons_succ] at hl
  rw [Nat.zero_add, resolve_succ, hl, Option.map_some]

/-- A scope in another one, and a host's scope. The name of the user is in both, that of the hint in the host's alone. -/
private def nested : List Act :=
  [.command (.makeObject "app" [("name", .text "App"), ("user", .text "Ann")]), .command (.makeObject "page" []),
    .command (.makeObject "shell" [("name", .text "Shell"), ("hint", .text "?")]),
    .command (.makeScope "app" "app" none none), .command (.makeScope "page" "page" (some "app") none),
    .command (.makeScope "shell" "shell" none none)]

private def pageScope : Scope := ⟨⟨7⟩, ⟨⟨2⟩, ⟨6⟩⟩, [⟨⟨1⟩, ⟨4⟩⟩]⟩

private def shellScope : Scope := ⟨⟨9⟩, ⟨⟨3⟩, ⟨8⟩⟩, []⟩

/-- The scope around comes before the host's, the host's is asked for what is nowhere else, and a name that nobody has
is the page's. The app decides as the first ancestor, and there is no second one. -/
theorem resolve_first_match_nested :
    let s := initial.play nested
    s.owner? pageScope (some shellScope) "name" 0 false = some ⟨1⟩ ∧
      s.owner? pageScope (some shellScope) "name" 0 true = some ⟨3⟩ ∧
      s.owner? pageScope (some shellScope) "hint" 0 false = some ⟨3⟩ ∧
      s.owner? pageScope (some shellScope) "age" 0 false = some ⟨2⟩ ∧
      s.owner? pageScope (some shellScope) "hint" 1 false = some ⟨1⟩ ∧
      s.owner? pageScope (some shellScope) "name" 2 false = none ∧
      s.assign ⟨0⟩ {} pageScope (some shellScope) (.scope "hint" 0 false) (.text "!") =
        .ok (s.write ⟨3⟩ "hint" (.text "!")) := by
  intro s
  have hhint : s.owner? pageScope (some shellScope) "hint" 0 false = some ⟨3⟩ := by decide +kernel
  obtain ⟨z, hz⟩ : ∃ z, s.systems.get? ⟨0⟩ = some z := Option.isSome_iff_exists.1 (by decide +kernel)
  have haccess := (resolve_first_match hz).2.2 {} pageScope (some shellScope) "hint" 0 false
  rw [hhint] at haccess
  exact ⟨by decide +kernel, by decide +kernel, hhint, by decide +kernel, by decide +kernel, by decide +kernel,
    haccess.assigned _⟩

end Session

end DataBinding
