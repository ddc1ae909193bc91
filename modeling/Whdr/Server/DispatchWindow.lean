import Whdr.Lib.OrdMap
import Whdr.Proto.Messages

/-! The window of dispatches in flight (dispatch_window.rs): the map of pending requests
and the counter their permits hold up. -/
namespace Whdr

/-- An entry holds the sender of one reservation's oneshot, named by the reservation's
number, and one permit. `saturated` records a release that found the counter at zero. -/
structure DispatchWindow where
  pending : OrdMap Uuid Nat
  inFlight : Nat
  saturated : Bool
  deriving DecidableEq

namespace DispatchWindow

def new : DispatchWindow := ⟨.empty, 0, false⟩

/-- `reserve_in_flight`: the exchange takes effect at one value of the counter, below
`max`; a refusal has seen one that is not. -/
def reserveInFlight (w : DispatchWindow) (max : Nat) : Option DispatchWindow :=
  if w.inFlight ≥ max then none else some { w with inFlight := w.inFlight + 1 }

/-- The drop of a permit. -/
def releaseInFlight (w : DispatchWindow) : DispatchWindow :=
  { w with inFlight := w.inFlight - 1, saturated := w.saturated || w.inFlight == 0 }

/-- The second half of `reserve`. An entry of the same id is replaced and dropped. -/
def insert (w : DispatchWindow) (reqId : Uuid) (reservation : Nat) : DispatchWindow :=
  match w.pending.get? reqId with
  | none => { w with pending := w.pending.insert reqId reservation }
  | some _ => { w with pending := w.pending.insert reqId reservation }.releaseInFlight

/-- The sender of the entry goes to the caller, its permit is dropped. -/
def remove (w : DispatchWindow) (reqId : Uuid) : Option Nat × DispatchWindow :=
  match w.pending.get? reqId with
  | none => (none, w)
  | some reservation =>
    (some reservation, { w with pending := w.pending.erase reqId }.releaseInFlight)

def clear (w : DispatchWindow) : DispatchWindow :=
  w.pending.entries.foldl (fun w _ => w.releaseInFlight) { w with pending := .empty }

def isIdle (w : DispatchWindow) : Bool := w.pending.size == 0 && w.inFlight == 0

/-! ## The counter -/

/-- The counter is the entries and the `n` reserves between their two halves, and no
release has saturated. -/
structure Balanced (w : DispatchWindow) (n : Nat) : Prop where
  counted : w.inFlight = w.pending.size + n
  exact : w.saturated = false

variable {w v : DispatchWindow} {n max reservation : Nat} {reqId : Uuid}

theorem balanced_new : Balanced new 0 := ⟨rfl, rfl⟩

theorem balanced_reserve (h : w.Balanced n) (ok : w.reserveInFlight max = some v) :
    v.Balanced (n + 1) ∧ v.inFlight ≤ max ∧ v.pending = w.pending := by
  unfold reserveInFlight at ok
  split at ok
  · cases ok
  · rename_i room
    cases ok
    have counted := h.counted
    exact ⟨⟨by change w.inFlight + 1 = w.pending.size + _; omega, h.exact⟩,
      by change w.inFlight + 1 ≤ max; omega, rfl⟩

theorem release_exact (positive : 0 < w.inFlight) (exact : w.saturated = false) :
    w.releaseInFlight.saturated = false := by
  have nonzero : (w.inFlight == 0) = false := beq_eq_false_iff_ne.mpr (Nat.ne_of_gt positive)
  simp [releaseInFlight, exact, nonzero]

/-- A release takes the counter from one above its balance to its balance. -/
theorem balanced_release (counted : w.inFlight = w.pending.size + n + 1)
    (exact : w.saturated = false) : w.releaseInFlight.Balanced n := by
  constructor
  · change w.inFlight - 1 = w.pending.size + n
    omega
  · apply release_exact _ exact
    omega

theorem balanced_insert (h : w.Balanced (n + 1)) : (w.insert reqId reservation).Balanced n := by
  have counted := h.counted
  unfold insert
  cases entry : w.pending.get? reqId with
  | none =>
    have size := w.pending.size_insert_new reservation entry
    exact ⟨by change w.inFlight = (w.pending.insert _ _).size + n; omega, h.exact⟩
  | some old =>
    have size := w.pending.size_insert_old reservation entry
    apply balanced_release
    · change w.inFlight = (w.pending.insert _ _).size + n + 1
      omega
    · exact h.exact

theorem balanced_remove (h : w.Balanced n) : (w.remove reqId).2.Balanced n := by
  have counted := h.counted
  unfold remove
  cases entry : w.pending.get? reqId with
  | none => exact h
  | some old =>
    have size := w.pending.size_erase entry
    apply balanced_release
    · change w.inFlight = (w.pending.erase _).size + n + 1
      omega
    · exact h.exact

theorem balanced_clear (h : w.Balanced n) : w.clear.Balanced n := by
  have drops (es : List (Uuid × Nat)) (v : DispatchWindow) (empty : v.pending = .empty)
      (counted : v.inFlight = es.length + n) (exact : v.saturated = false) :
      (es.foldl (fun w _ => w.releaseInFlight) v).Balanced n := by
    induction es generalizing v with
    | nil => exact ⟨by rw [List.foldl_nil, empty, counted]; rfl, exact⟩
    | cons e rest ih =>
      rw [List.length_cons] at counted
      rw [List.foldl_cons]
      apply ih
      · exact empty
      · change v.inFlight - 1 = rest.length + n
        omega
      · apply release_exact _ exact
        omega
  exact drops w.pending.entries _ rfl h.counted h.exact

/-! ## The entries -/

theorem insert_pending : (w.insert reqId reservation).pending =
    w.pending.insert reqId reservation := by
  unfold insert
  split
  · rfl
  · rfl

theorem remove_pending : (w.remove reqId).2.pending = w.pending.erase reqId := by
  unfold remove
  split
  · rename_i none
    apply OrdMap.ext_get?
    intro k
    rw [OrdMap.get?_erase]
    by_cases eq : k = reqId
    · rw [if_pos eq, eq, none]
    · rw [if_neg eq]
  · rfl

theorem remove_found : (w.remove reqId).1 = w.pending.get? reqId := by
  unfold remove
  split
  · rename_i none
    exact none.symm
  · rename_i found
    exact found.symm

theorem remove_absent (absent : w.pending.get? reqId = none) : w.remove reqId = (none, w) := by
  simp [remove, absent]

theorem clear_pending : w.clear.pending = .empty := by
  have drops (es : List (Uuid × Nat)) (v : DispatchWindow) :
      (es.foldl (fun w _ => w.releaseInFlight) v).pending = v.pending := by
    induction es generalizing v with
    | nil => rfl
    | cons e rest ih => exact ih _
  exact drops _ _

theorem inFlight_remove_le : (w.remove reqId).2.inFlight ≤ w.inFlight := by
  unfold remove
  split
  · exact Nat.le_refl _
  · exact Nat.sub_le _ _

theorem inFlight_insert_le : (w.insert reqId reservation).inFlight ≤ w.inFlight := by
  unfold insert
  split
  · exact Nat.le_refl _
  · exact Nat.sub_le _ _

end DispatchWindow

end Whdr
