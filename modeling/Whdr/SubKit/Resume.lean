import Whdr.Proto.Messages

/-! The client kit: its cursor and dedup state (resume.rs) and what its run loop does
with each frame (lib.rs), for a handler that never fails. -/
namespace Whdr

/-- `seen` and `order` hold the ids handled last, up to `capacity` of them. -/
structure ResumeState where
  cursor : Nat
  seen : List Uuid
  order : List Uuid
  capacity : Nat
  deriving DecidableEq, Repr

namespace ResumeState

def new (cursor capacity : Nat) : ResumeState := ⟨cursor, [], [], max capacity 1⟩

def shouldProcess (r : ResumeState) (id : Uuid) (seq : Nat) : Bool :=
  decide (seq > r.cursor) && !r.seen.contains id

/-- Remember `id`, evicting the oldest beyond the capacity. -/
def remember (r : ResumeState) (id : Uuid) : ResumeState :=
  if r.seen.contains id then r
  else
    let seen := id :: r.seen
    match r.order ++ [id] with
    | old :: rest =>
      if (old :: rest).length > r.capacity then
        { r with seen := seen.filter (· != old), order := rest }
      else { r with seen := seen, order := old :: rest }
    | [] => { r with seen := seen }

def record (r : ResumeState) (id : Uuid) (seq : Nat) : ResumeState :=
  let r := r.remember id
  if seq > r.cursor then { r with cursor := seq } else r

theorem remember_cursor (r : ResumeState) (id : Uuid) : (r.remember id).cursor = r.cursor := by
  unfold remember
  split
  · rfl
  · dsimp only
    split
    · split <;> rfl
    · rfl

theorem seen_remember {r : ResumeState} {id x : Uuid} (h : x ∈ (r.remember id).seen) :
    x = id ∨ x ∈ r.seen := by
  unfold remember at h
  split at h
  · exact .inr h
  · dsimp only at h
    split at h
    · split at h
      · exact List.mem_cons.mp (List.mem_filter.mp h).1
      · exact List.mem_cons.mp h
    · exact List.mem_cons.mp h

/-- The cursor only moves up. -/
theorem record_cursor (r : ResumeState) (id : Uuid) (seq : Nat) :
    (r.record id seq).cursor = max r.cursor seq := by
  unfold record
  simp only [remember_cursor]
  split
  · simp only; omega
  · rw [remember_cursor]; omega

theorem seen_record {r : ResumeState} {id x : Uuid} {seq : Nat}
    (h : x ∈ (r.record id seq).seen) : x = id ∨ x ∈ r.seen := by
  apply seen_remember
  unfold record at h
  dsimp only at h
  split at h
  · exact h
  · exact h

end ResumeState

/-- How the run loop goes on after a frame. -/
inductive AfterFrame
  | more
  | reconnect
  | stop
  deriving DecidableEq, Repr

/-- `handled` are the events passed to `on_event`, in order. -/
structure Client where
  resume : ResumeState
  handled : List StampedEvent
  deriving DecidableEq, Repr

namespace Client

def closingIsFatal : ClosingReason → Bool
  | .revoked => true
  | .shutdown => false

/-- `on_event`, then the cursor. -/
def handle (c : Client) (e : StampedEvent) : Client :=
  if c.resume.shouldProcess e.id e.seq then
    ⟨c.resume.record e.id e.seq, c.handled ++ [e]⟩
  else c

def onFrame (c : Client) : SubServerMsg → Client × AfterFrame
  | .event e => (c.handle e, .more)
  | .replayed _ | .replayGap _ _ | .error _ _ => (c, .more)
  | .lagged _ => (c, .reconnect)
  | .closing reason => (c, if closingIsFatal reason then .stop else .reconnect)
  | .welcome _ | .ok _ | .pong => (c, .more)

end Client

end Whdr
