import Whdr.Server.LogSpec
import Whdr.Server.OutboundQueue

/-! The registry of subscriber connections and the fan-out (subscribers.rs). -/
namespace Whdr

open DeliveryLog (AppendFault StoredEvent Shared stampRows)

/-- A registered connection. `closeTx` is the value last sent on its watch channel. -/
structure Subscriber where
  name : String
  remoteAddr : Option String
  patterns : List Pattern
  queue : OutboundQueue
  closeTx : Option ClosingReason
  deriving DecidableEq

structure SubscriberRegistration where
  name : String
  remoteAddr : Option String
  queue : OutboundQueue
  closeTx : Option ClosingReason

/-- `seq` numbers events when there is no log, and when an append fails. -/
structure SubscriberRegistry where
  subscribers : OrdMap Nat Subscriber
  nextId : Nat
  seq : Nat
  delivery : Option Shared
  persistErrors : Nat
  deriving DecidableEq

/-- One call of `fanout` with what the outside world decides: the ids minted, the
clock, whether and where the append fails, and the clock when it does. -/
structure FanoutCall where
  events : List Event
  mint : Nat → Uuid
  tsMs : Nat
  fault : Option AppendFault
  fallbackTsMs : Nat

/-- The append of this call, once started, fails. -/
def FanoutCall.appendFails (c : FanoutCall) : Bool :=
  (c.fault.filter (AppendFault.reached c.events.length)).isSome

namespace SubscriberRegistry

def new : SubscriberRegistry := ⟨.empty, 1, 0, none, 0⟩

def withDelivery (log : Shared) : SubscriberRegistry := { new with delivery := some log }

def insert (r : SubscriberRegistry) (reg : SubscriberRegistration) : Nat × SubscriberRegistry :=
  let id := r.nextId
  (id, { r with
    nextId := r.nextId + 1
    subscribers := r.subscribers.insert id
      ⟨reg.name, reg.remoteAddr, [], reg.queue, reg.closeTx⟩ })

def remove (r : SubscriberRegistry) (id : Nat) : SubscriberRegistry :=
  { r with subscribers := r.subscribers.erase id }

/-- Change the connection `id`, if it is registered. -/
def modify (r : SubscriberRegistry) (id : Nat) (f : Subscriber → Subscriber) : SubscriberRegistry :=
  match r.subscribers.get? id with
  | none => r
  | some sub => { r with subscribers := r.subscribers.insert id (f sub) }

def parsePatterns : List String → Except String (List Pattern)
  | [] => .ok []
  | pattern :: rest =>
    match Pattern.new pattern with
    | .error err => .error ("invalid pattern: " ++ err.message)
    | .ok parsed =>
      match parsePatterns rest with
      | .error msg => .error msg
      | .ok more => .ok (parsed :: more)

/-- Push each parsed pattern the list does not hold yet. -/
def addPatterns (existing parsed : List Pattern) : List Pattern :=
  parsed.foldl (fun ps p => if p ∈ ps then ps else ps ++ [p]) existing

def subscribe (r : SubscriberRegistry) (id : Nat) (patterns : List String) :
    Except String SubscriberRegistry :=
  match parsePatterns patterns with
  | .error msg => .error msg
  | .ok parsed =>
    .ok (r.modify id fun sub => { sub with patterns := addPatterns sub.patterns parsed })

def unsubscribe (r : SubscriberRegistry) (id : Nat) (patterns : List String) :
    SubscriberRegistry :=
  r.modify id fun sub =>
    { sub with patterns := sub.patterns.filter fun p => !patterns.any (· == p.value) }

def closeNamed (r : SubscriberRegistry) (name : String) (reason : ClosingReason) :
    SubscriberRegistry :=
  { r with subscribers := r.subscribers.mapValues fun _ sub =>
      if sub.name = name then { sub with closeTx := some reason } else sub }

/-- `queue.pop` of the connection `id`. -/
def popFrame (r : SubscriberRegistry) (id : Nat) : Option (Frame × SubscriberRegistry) :=
  match r.subscribers.get? id with
  | none => none
  | some sub => sub.queue.pop.map fun (frame, queue) =>
      (frame, { r with subscribers := r.subscribers.insert id { sub with queue := queue } })

section
variable (valueLen : StoredEvent → Nat) (textLen : SubServerMsg → Nat)

/-- Each event takes the next number of the in-process counter. -/
def stampInMemory (r : SubscriberRegistry) (mint : Nat → Uuid) (tsMs : Nat) (events : List Event) :
    List StampedEvent × SubscriberRegistry :=
  (events.mapIdx fun offset event =>
      ⟨r.seq + offset + 1, mint offset, tsMs, event.channel, event.payloadB64⟩,
    { r with seq := r.seq + events.length })

/-- The first half of `fanout`: persist, or fall back to the in-process counter. -/
def stamp (r : SubscriberRegistry) (c : FanoutCall) : List StampedEvent × SubscriberRegistry :=
  match r.delivery with
  | some log =>
    match log.append valueLen c.fault c.mint c.events c.tsMs with
    | (.ok rows, log) => (rows, { r with delivery := some log })
    | (.error _, log) =>
      { r with delivery := some log, persistErrors := r.persistErrors + 1 }.stampInMemory
        c.mint c.fallbackTsMs c.events
  | none => r.stampInMemory c.mint c.tsMs c.events

/-- `push_event` when a pattern of the connection matches. -/
def offer (sub : Subscriber) (frame : StampedEvent) : Subscriber :=
  if anyMatches sub.patterns frame.channel then
    { sub with queue := sub.queue.pushEvent textLen (.event frame) }
  else sub

/-- Offer one frame to every connection. -/
def offerAll (subs : OrdMap Nat Subscriber) (frame : StampedEvent) : OrdMap Nat Subscriber :=
  subs.mapValues fun _ sub => offer textLen sub frame

/-- The second half of `fanout`, under the subscriber read lock. -/
def deliver (r : SubscriberRegistry) (frames : List StampedEvent) : SubscriberRegistry :=
  { r with subscribers := frames.foldl (offerAll textLen) r.subscribers }

def fanout (r : SubscriberRegistry) (c : FanoutCall) : List StampedEvent × SubscriberRegistry :=
  if c.events = [] then ([], r)
  else
    let (frames, r) := r.stamp valueLen c
    (frames, r.deliver textLen frames)

/-! ## What the operations do to one connection -/

variable {valueLen} {textLen}

theorem get?_modify (r : SubscriberRegistry) (id other : Nat) (f : Subscriber → Subscriber) :
    (r.modify id f).subscribers.get? other =
      if other = id then (r.subscribers.get? id).map f else r.subscribers.get? other := by
  unfold modify
  split
  · rename_i none
    split
    · rename_i eq; rw [eq, none]; rfl
    · rfl
  · rename_i sub some
    rw [OrdMap.get?_insert, some]
    rfl

theorem get?_modify_self {r : SubscriberRegistry} {id : Nat} {sub : Subscriber}
    (h : r.subscribers.get? id = some sub) (f : Subscriber → Subscriber) :
    (r.modify id f).subscribers.get? id = some (f sub) := by
  rw [get?_modify, if_pos rfl, h]
  rfl

theorem modify_same (r : SubscriberRegistry) (id : Nat) (f : Subscriber → Subscriber) :
    (r.modify id f).delivery = r.delivery ∧ (r.modify id f).nextId = r.nextId := by
  unfold modify
  split <;> exact ⟨rfl, rfl⟩

theorem modify_seq (r : SubscriberRegistry) (id : Nat) (f : Subscriber → Subscriber) :
    (r.modify id f).seq = r.seq := by
  unfold modify
  split <;> rfl

theorem popFrame_spec {r r' : SubscriberRegistry} {id : Nat} {sub : Subscriber} {frame : Frame}
    (entry : r.subscribers.get? id = some sub) (h : r.popFrame id = some (frame, r')) :
    ∃ queue : OutboundQueue, sub.queue.inner = frame :: queue.inner ∧
      queue.lagPending = sub.queue.lagPending ∧
      r' = { r with subscribers := r.subscribers.insert id { sub with queue := queue } } := by
  simp only [popFrame, entry] at h
  obtain ⟨⟨first, queue⟩, hq, eq⟩ := Option.map_eq_some_iff.mp h
  cases eq
  unfold OutboundQueue.pop at hq
  split at hq
  · cases hq
  · rename_i inner
    cases hq
    refine ⟨_, ?_, ?_, rfl⟩
    · exact inner
    · rfl

theorem get?_deliver (r : SubscriberRegistry) (frames : List StampedEvent) (id : Nat) :
    (r.deliver textLen frames).subscribers.get? id =
      (r.subscribers.get? id).map fun sub => frames.foldl (offer textLen) sub := by
  unfold deliver
  dsimp only
  generalize r.subscribers = subs
  induction frames generalizing subs with
  | nil => simp
  | cons frame rest ih =>
    rw [List.foldl_cons, ih, offerAll, OrdMap.get?_mapValues]
    cases subs.get? id <;> rfl

/-- The frames of a batch that are pushed to a connection's queue. -/
def offeredTo (sub : Subscriber) (frames : List StampedEvent) : List StampedEvent :=
  frames.filter fun frame => anyMatches sub.patterns frame.channel

/-- A batch reaches a connection as one `push_event` for each frame offered. -/
theorem foldl_offer (frames : List StampedEvent) (sub : Subscriber) :
    frames.foldl (offer textLen) sub = { sub with
      queue := sub.queue.pushEvents textLen ((offeredTo sub frames).map .event) } := by
  induction frames generalizing sub with
  | nil => rfl
  | cons frame rest ih =>
    rw [List.foldl_cons, ih]
    by_cases hm : anyMatches sub.patterns frame.channel = true
    · simp [offer, offeredTo, hm, OutboundQueue.pushEvents]
    · simp [offer, offeredTo, hm]

theorem deliver_entry {r : SubscriberRegistry} {id : Nat} {sub : Subscriber}
    (entry : r.subscribers.get? id = some sub) (frames : List StampedEvent) :
    (r.deliver textLen frames).subscribers.get? id = some { sub with
      queue := sub.queue.pushEvents textLen ((offeredTo sub frames).map .event) } := by
  rw [get?_deliver, entry, Option.map_some, foldl_offer]

theorem get?_closeNamed (r : SubscriberRegistry) (name : String) (reason : ClosingReason)
    (id : Nat) :
    (r.closeNamed name reason).subscribers.get? id =
      (r.subscribers.get? id).map fun sub =>
        if sub.name = name then { sub with closeTx := some reason } else sub :=
  OrdMap.get?_mapValues _ _ _

theorem mem_addPatterns {existing parsed : List Pattern} {p : Pattern} :
    p ∈ addPatterns existing parsed ↔ p ∈ existing ∨ p ∈ parsed := by
  unfold addPatterns
  induction parsed generalizing existing with
  | nil => simp
  | cons q rest ih =>
    rw [List.foldl_cons, ih]
    split
    · rename_i mem
      constructor
      · rintro (h | h)
        · exact .inl h
        · exact .inr (List.mem_cons_of_mem _ h)
      · rintro (h | h)
        · exact .inl h
        · obtain rfl | h := List.mem_cons.mp h
          · exact .inl mem
          · exact .inr h
    · simp only [List.mem_append, List.mem_cons]
      tauto

/-! ## Stamping -/

theorem stampInMemory_rows (r : SubscriberRegistry) (mint : Nat → Uuid) (tsMs : Nat)
    (events : List Event) :
    (r.stampInMemory mint tsMs events).1 = stampRows r.seq tsMs mint events := by
  simp only [stampInMemory, stampRows]
  congr
  funext offset event
  rw [Nat.add_right_comm]

end

end SubscriberRegistry

end Whdr
