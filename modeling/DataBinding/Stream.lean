import DataBinding.Listeners

/-!
# Streams

A stream delivers events to its sinks. A subject is emitted into by hand: it tells every sink that is subscribed at the
moment of an emission, keeps the latest value, and forgets its sinks when it fails or completes. A cold stream keeps no
sinks: it delivers a fixed list of events while a sink subscribes.
-/

namespace DataBinding

inductive StreamEvent
  | next (v : Value)
  /-- The stream failed, and nothing follows. -/
  | error (message : String)
  /-- The stream is complete, and nothing follows. -/
  | complete

/-- Who receives the events of a stream. -/
inductive Sink
  | observer (o : ObserverId)
  | handler (k : SinkId)
  deriving DecidableEq

namespace Subject

theorem ascending_nil : ([] : List (Nat × Sink)).Pairwise fun a b => a.1 < b.1 := .nil

theorem issued_nil : ∀ e ∈ ([] : List (Nat × Sink)), e.1 < 0 := List.forall_mem_nil _

theorem released_none : (none : Option StreamEvent).isSome → ([] : List (Nat × Sink)) = [] := fun _ => rfl

end Subject

/-- A subject with its sinks, oldest first. No two subscriptions have the same token, and a subject that has ended keeps
no sinks. -/
structure Subject where
  nextToken : Nat := 0
  sinks : List (Nat × Sink) := []
  latest : Option Value := none
  /-- Whether a new sink is told the latest value. -/
  replays : Bool := false
  /-- The event that ended the stream. -/
  terminal : Option StreamEvent := none
  ascending : sinks.Pairwise fun a b => a.1 < b.1 := by exact Subject.ascending_nil
  issued : ∀ e ∈ sinks, e.1 < nextToken := by exact Subject.issued_nil
  released : terminal.isSome → sinks = [] := by exact Subject.released_none

namespace Subject

def isClosed (s : Subject) : Bool := s.terminal.isSome

/-- Emits a value: the subject after it, and the sinks to be told. A closed subject does nothing. -/
def emit (s : Subject) (v : Value) : Subject × List Sink :=
  if s.isClosed then (s, []) else ({ s with latest := some v }, s.sinks.map (·.2))

/-- Ends the stream: the subject after it, and the sinks to be told. -/
def terminate (s : Subject) (e : StreamEvent) : Subject × List Sink :=
  if s.isClosed then (s, [])
  else
    ({ s with terminal := some e, sinks := [], ascending := .nil, issued := by simp, released := fun _ => rfl },
      s.sinks.map (·.2))

/-- What a new sink is told at once: the latest value if the subject replays it, then the end of a closed subject. -/
def greeting (s : Subject) : List StreamEvent :=
  (if s.replays then s.latest.toList.map .next else []) ++ s.terminal.toList

/-- Adds a sink, unless the subject is closed; the token of the subscription. -/
def subscribe (s : Subject) (sink : Sink) : Subject × Option Nat :=
  if h : s.isClosed then (s, none)
  else
    ({ s with
        nextToken := s.nextToken + 1
        sinks := s.sinks ++ [(s.nextToken, sink)]
        ascending := by simpa [List.pairwise_append] using ⟨s.ascending, fun a b h => s.issued _ h⟩
        issued := by
          intro e he
          rcases List.mem_append.1 he with he | he
          · exact Nat.lt_succ_of_lt (s.issued e he)
          · simp [List.mem_singleton.1 he]
        released := fun ht => absurd ht h },
      some s.nextToken)

def unsubscribe (s : Subject) (token : Nat) : Subject :=
  { s with
      sinks := s.sinks.filter fun e => e.1 != token
      ascending := s.ascending.filter _
      issued := fun e he => s.issued e ((List.mem_filter.1 he).1)
      released := fun ht => by rw [s.released ht, List.filter_nil] }

end Subject

inductive Stream
  | subject (s : Subject)
  /-- A cold stream with its name in the record of what was released. -/
  | cold (label : String) (events : List StreamEvent)

/-- What is to be released when a sink leaves a stream. -/
inductive Subscription
  /-- Nothing, or nothing any more. -/
  | closed
  /-- The registration with a subject. -/
  | subject (s : StreamId) (token : Nat)
  /-- The release of a cold stream's subscription is put on record. -/
  | cold (label : String)
  deriving DecidableEq

namespace Subscription

def isClosed : Subscription → Bool
  | closed => true
  | _ => false

end Subscription

namespace Stream

/-- Subscribes a sink to the stream `id`: the stream after it, what is to be released later, and the events that the
sink is told at once. -/
def subscribe (id : StreamId) (sink : Sink) : Stream → Stream × Subscription × List StreamEvent
  | subject s =>
    match s.subscribe sink with
    | (s', some token) => (subject s', .subject id token, s.greeting)
    | (s', none) => (subject s', .closed, s.greeting)
  | cold label events => (cold label events, .cold label, events)

/-- Takes a subject's registration away. -/
def unsubscribe (token : Nat) : Stream → Stream
  | subject s => subject (s.unsubscribe token)
  | s => s

end Stream

end DataBinding
