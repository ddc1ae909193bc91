import Mathlib.Algebra.GroupWithZero.Nat
import Whdr.Proto.Messages

/-! The bounded frame queue of one connection (outbound_queue.rs). A frame's text
is kept as the message it serializes. -/
namespace Whdr

structure Frame where
  msg : SubServerMsg
  closing : Bool
  isEvent : Bool
  deriving DecidableEq, Repr

structure OutboundQueue where
  inner : List Frame
  maxEvents : Nat
  maxEventBytes : Nat
  delivered : Nat
  dropped : Nat
  lagPending : Nat
  deriving DecidableEq, Repr

namespace OutboundQueue

def new (maxEvents maxEventBytes : Nat) : OutboundQueue :=
  ⟨[], max maxEvents 1, max maxEventBytes 1, 0, 0, 0⟩

def recordDrop (q : OutboundQueue) : OutboundQueue :=
  { q with dropped := q.dropped + 1, lagPending := q.lagPending + 1 }

/-- Take and clear the pending-lag count. -/
def takePendingLag (q : OutboundQueue) : Option Nat × OutboundQueue :=
  (if q.lagPending = 0 then none else some q.lagPending, { q with lagPending := 0 })

section
/- The length in bytes of a message's text. -/
variable (textLen : SubServerMsg → Nat)

def overBudget (frames : List Frame) (incomingBytes maxEvents maxEventBytes : Nat) : Bool :=
  let events := frames.filter Frame.isEvent
  let eventCount := events.length
  if eventCount = 0 then false
  else
    let eventBytes := (events.map fun frame => textLen frame.msg).sum
    decide (eventCount + 1 > maxEvents) || decide (eventBytes + incomingBytes > maxEventBytes)

/-- The eviction loop. Every pass removes a frame, so the length bounds the passes. -/
def evict (incomingBytes : Nat) : Nat → OutboundQueue → OutboundQueue
  | 0, q => q
  | passes + 1, q =>
    if overBudget textLen q.inner incomingBytes q.maxEvents q.maxEventBytes then
      match q.inner.findIdx? Frame.isEvent with
      | none => q
      | some evictAt =>
        evict incomingBytes passes { q with inner := q.inner.eraseIdx evictAt }.recordDrop
    else q

def pushEvent (q : OutboundQueue) (msg : SubServerMsg) : OutboundQueue :=
  if textLen msg > q.maxEventBytes then q.recordDrop
  else
    let q := evict textLen (textLen msg) q.inner.length q
    { q with inner := q.inner ++ [⟨msg, false, true⟩] }

def pushEvents (q : OutboundQueue) (msgs : List SubServerMsg) : OutboundQueue :=
  msgs.foldl (pushEvent textLen) q

def pushControl (q : OutboundQueue) (msg : SubServerMsg) : OutboundQueue :=
  let closing := match msg with
    | .closing _ => true
    | _ => false
  { q with inner := q.inner ++ [⟨msg, closing, false⟩] }

/-- The next frame; `none` is the wait for a frame to arrive. -/
def pop (q : OutboundQueue) : Option (Frame × OutboundQueue) :=
  match q.inner with
  | [] => none
  | frame :: rest =>
    some (frame, { q with
      inner := rest
      delivered := if frame.isEvent then q.delivered + 1 else q.delivered })

variable {textLen}

/-- Eviction either does nothing or leaves a lag to report. -/
theorem evict_spec (incomingBytes passes : Nat) (q : OutboundQueue) :
    (evict textLen incomingBytes passes q = q ∨
      0 < (evict textLen incomingBytes passes q).lagPending) ∧
    q.lagPending ≤ (evict textLen incomingBytes passes q).lagPending ∧
    (evict textLen incomingBytes passes q).inner.Sublist q.inner := by
  induction passes generalizing q with
  | zero => exact ⟨.inl rfl, Nat.le_refl _, .refl _⟩
  | succ passes ih =>
    simp only [evict]
    split
    · split
      · exact ⟨.inl rfl, Nat.le_refl _, .refl _⟩
      · rename_i evictAt _
        obtain ⟨_, grows, sub⟩ := ih { q with inner := q.inner.eraseIdx evictAt }.recordDrop
        simp only [recordDrop] at grows
        refine ⟨.inr (by simp only [recordDrop]; omega), by simp only [recordDrop]; omega, ?_⟩
        exact sub.trans (List.eraseIdx_sublist _ _)
    · exact ⟨.inl rfl, Nat.le_refl _, .refl _⟩

/-- An event goes to the back of the untouched queue, unless a drop is recorded. -/
theorem pushEvent_spec (q : OutboundQueue) (msg : SubServerMsg) :
    (q.pushEvent textLen msg).inner = q.inner ++ [⟨msg, false, true⟩] ∧
      (q.pushEvent textLen msg).lagPending = q.lagPending ∨
    0 < (q.pushEvent textLen msg).lagPending := by
  unfold pushEvent
  split
  · exact .inr (Nat.succ_pos _)
  · dsimp only
    obtain same | lag := (@evict_spec textLen (textLen msg) q.inner.length q).1
    · rw [same]; exact .inl ⟨rfl, rfl⟩
    · exact .inr lag

theorem pushEvent_lag_mono (q : OutboundQueue) (msg : SubServerMsg) :
    q.lagPending ≤ (q.pushEvent textLen msg).lagPending := by
  unfold pushEvent
  split
  · exact Nat.le_succ _
  · exact (evict_spec (textLen msg) q.inner.length q).2.1

/-- Frames are only ever dropped, never moved. -/
theorem pushEvent_sublist (q : OutboundQueue) (msg : SubServerMsg) :
    (q.pushEvent textLen msg).inner.Sublist (q.inner ++ [⟨msg, false, true⟩]) := by
  unfold pushEvent
  split
  · exact List.sublist_append_left _ _
  · exact ((evict_spec (textLen msg) q.inner.length q).2.2).append (.refl _)

/-- The frame an event is queued as. -/
def eventFrame (msg : SubServerMsg) : Frame := ⟨msg, false, true⟩

/-- A batch goes to the back of the untouched queue, unless a drop is recorded. -/
theorem pushEvents_spec (q : OutboundQueue) (msgs : List SubServerMsg) :
    ((q.pushEvents textLen msgs).inner = q.inner ++ msgs.map eventFrame ∧
      (q.pushEvents textLen msgs).lagPending = q.lagPending ∨
      0 < (q.pushEvents textLen msgs).lagPending) ∧
    q.lagPending ≤ (q.pushEvents textLen msgs).lagPending ∧
    (q.pushEvents textLen msgs).inner.Sublist (q.inner ++ msgs.map eventFrame) := by
  induction msgs generalizing q with
  | nil => simp [pushEvents]
  | cons msg rest ih =>
    obtain ⟨rest_spec, rest_lag, rest_sub⟩ := ih (q.pushEvent textLen msg)
    have lag := @pushEvent_lag_mono textLen q msg
    change (_ ∨ 0 < ((q.pushEvent textLen msg).pushEvents textLen rest).lagPending) ∧
      q.lagPending ≤ ((q.pushEvent textLen msg).pushEvents textLen rest).lagPending ∧
      ((q.pushEvent textLen msg).pushEvents textLen rest).inner.Sublist _
    refine ⟨?_, Nat.le_trans lag rest_lag, ?_⟩
    · obtain ⟨inner, same⟩ | dropped := rest_spec
      · obtain ⟨first, first_lag⟩ | dropped := @pushEvent_spec textLen q msg
        · refine .inl ⟨inner.trans ?_, same.trans first_lag⟩
          rw [first, List.append_assoc]
          rfl
        · exact .inr (by omega)
      · exact .inr dropped
    · refine rest_sub.trans ?_
      have first := @pushEvent_sublist textLen q msg
      simpa [eventFrame] using first.append (.refl (rest.map eventFrame))

end

end OutboundQueue

end Whdr
