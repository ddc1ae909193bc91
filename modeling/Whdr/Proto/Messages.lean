import Whdr.Proto.Channel

/-! The frames of the subscriber plane and the events they carry (messages.rs). -/
namespace Whdr

/-- Event and request identities are only compared, so a UUID is its number. -/
abbrev Uuid := Nat

/-- The number of values of a u64. -/
def u64Size : Nat := 2 ^ 64

structure Event where
  channel : String
  payloadB64 : String
  deriving DecidableEq, Repr

structure ReplayRequest where
  afterSeq : Nat
  deriving DecidableEq, Repr

inductive SubClientMsg
  | subscribe (patterns : List String) (replay : Option ReplayRequest)
  | unsubscribe (patterns : List String)
  | ping
  deriving DecidableEq, Repr

inductive ClosingReason
  | shutdown
  | revoked
  deriving DecidableEq, Repr

/-- An event with the identity and sequence stamped at fan-out: the fields of an
event frame, of a logged row and of what a client hands to its handler. -/
structure StampedEvent where
  seq : Nat
  id : Uuid
  tsMs : Nat
  channel : String
  payloadB64 : String
  deriving DecidableEq, Repr

inductive SubServerMsg
  | welcome (name : String)
  | ok (op : String)
  | error (op msg : String)
  | event (event : StampedEvent)
  | replayed (throughSeq : Nat)
  | replayGap (fromSeq earliestSeq : Nat)
  | lagged (dropped : Nat)
  | pong
  | closing (reason : ClosingReason)
  deriving DecidableEq, Repr

/-- The events among frames, in order. -/
def eventsOf (frames : List SubServerMsg) : List StampedEvent :=
  frames.filterMap fun
    | .event e => some e
    | _ => none

@[simp] theorem eventsOf_nil : eventsOf [] = [] := rfl

@[simp] theorem eventsOf_append (fs gs : List SubServerMsg) :
    eventsOf (fs ++ gs) = eventsOf fs ++ eventsOf gs := by
  simp [eventsOf]

@[simp] theorem mem_eventsOf {e : StampedEvent} {frames : List SubServerMsg} :
    e ∈ eventsOf frames ↔ .event e ∈ frames := by
  simp only [eventsOf, List.mem_filterMap]
  constructor
  · rintro ⟨f, hf, he⟩
    cases f <;> simp_all
  · intro h
    exact ⟨_, h, rfl⟩

end Whdr
