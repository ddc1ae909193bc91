import Whdr.Lib.Runs
import Whdr.Server.DispatchWindow

/-! Any number of reservations on one window: reserved, answered by the reader, timed out,
cancelled and cleared in any order. -/
namespace Whdr.Reservations

open Runs (Reaches exec guarded reaches_of_exec)

variable {T : Type}

/-- `timedOut`: the timeout has fired and `remove_pending` has not run. `finished`: the
reservation is disarmed or dropped. -/
inductive Stage
  | waiting
  | timedOut
  | finished
  deriving DecidableEq, Repr

/-- `slot`: what the oneshot holds. `answers`: every result ever sent on it, with the
req_id of the line it came in. -/
structure Reservation (T : Type) where
  reqId : Uuid
  stage : Stage
  slot : Option T
  answers : List (Uuid × T)
  deriving DecidableEq

/-- `reserving`: the reserves that have incremented and not inserted. `reader`: the reader
took the sender of a reservation for a result and has not sent it yet. -/
structure State (T : Type) where
  window : DispatchWindow
  reserving : Nat
  reservations : List (Reservation T)
  reader : Option (Nat × Uuid × T)
  deriving DecidableEq

inductive Action (T : Type)
  | increment
  | insert (reqId : Uuid)
  | readLine (reqId : Uuid) (result : T)
  | sendResult
  | receive (i : Nat)
  | dead (i : Nat)
  | timeout (i : Nat)
  | removePending (i : Nat)
  | drop (i : Nat)
  | clear
  deriving DecidableEq

namespace State

def new : State T := ⟨.new, 0, [], none⟩

/-- The sender of the reservation exists: in the map, or in the reader's hand. -/
def senderAlive (s : State T) (i : Nat) (q : Reservation T) : Bool :=
  s.window.pending.get? q.reqId == some i || s.reader.any fun held => held.1 == i

def put (s : State T) (i : Nat) (q : Reservation T) : State T :=
  { s with reservations := s.reservations.set i q }

/-- `remove_pending` and the drop of an armed reservation. -/
def removePending (s : State T) (i : Nat) (q : Reservation T) : State T :=
  { s with window := (s.window.remove q.reqId).2 }.put i { q with stage := .finished }

end State

/-- The reader takes one line at a time and sends its result before the next. A timeout
polls the oneshot first, so it fires only while the oneshot is empty and its sender alive.
`removePending` is the call after the timeout, and the one when the dispatch line could not
be sent. A reservation that is over takes no result. -/
def step (max : Nat) (s : State T) : Action T → Option (State T)
  | .increment =>
    (s.window.reserveInFlight max).map fun w =>
      { s with window := w, reserving := s.reserving + 1 }
  | .insert reqId =>
    if s.reserving = 0 then none
    else some { s with
      window := s.window.insert reqId s.reservations.length
      reserving := s.reserving - 1
      reservations := s.reservations ++ [⟨reqId, .waiting, none, []⟩] }
  | .readLine reqId result =>
    if s.reader.isSome then none
    else some { s with
      window := (s.window.remove reqId).2
      reader := (s.window.remove reqId).1.map fun i => (i, reqId, result) }
  | .sendResult =>
    match s.reader with
    | none => none
    | some (i, reqId, result) =>
      match s.reservations[i]? with
      | none => none
      | some q =>
        if q.stage = .finished then some { s with reader := none }
        else some ({ s with reader := none }.put i
          { q with slot := some result, answers := q.answers ++ [(reqId, result)] })
  | .receive i =>
    match s.reservations[i]? with
    | some q =>
      if q.stage = .waiting ∧ q.slot.isSome then some (s.put i { q with stage := .finished }) else none
    | none => none
  | .dead i =>
    match s.reservations[i]? with
    | some q =>
      if q.stage = .waiting ∧ q.slot.isNone ∧ s.senderAlive i q = false then
        some (s.put i { q with stage := .finished })
      else none
    | none => none
  | .timeout i =>
    match s.reservations[i]? with
    | some q =>
      if q.stage = .waiting ∧ q.slot.isNone ∧ s.senderAlive i q = true then
        some (s.put i { q with stage := .timedOut })
      else none
    | none => none
  | .removePending i | .drop i =>
    match s.reservations[i]? with
    | some q => if q.stage = .finished then none else some (s.removePending i q)
    | none => none
  | .clear => some { s with window := s.window.clear }

/-! ## The invariant -/

/-- An entry belongs to a reservation of its id that is not over and has no answer, and so
does the sender in the reader's hand, which has left the map. -/
structure Valid (max : Nat) (s : State T) : Prop where
  balanced : s.window.Balanced s.reserving
  bounded : s.window.inFlight ≤ max
  entry : ∀ reqId i, s.window.pending.get? reqId = some i →
    (∃ q, s.reservations[i]? = some q ∧ q.reqId = reqId ∧ q.stage ≠ .finished ∧ q.answers = []) ∧
      ∀ held ∈ s.reader, held.1 ≠ i
  held : ∀ i reqId result, s.reader = some (i, reqId, result) →
    ∃ q, s.reservations[i]? = some q ∧ q.reqId = reqId ∧ q.answers = []
  answers : ∀ (i : Nat) (q : Reservation T), s.reservations[i]? = some q →
    (q.slot.isSome → q.answers ≠ []) ∧ q.answers.length ≤ 1 ∧ ∀ a ∈ q.answers, a.1 = q.reqId

variable {max : Nat} {s t : State T} {i : Nat} {q : Reservation T}

theorem valid_new : Valid max (State.new : State T) := by
  constructor
  · exact DispatchWindow.balanced_new
  · exact Nat.zero_le _
  · intro reqId i entry
    cases entry
  · intro i reqId result held
    cases held
  · intro i q mem
    cases mem

theorem get?_put {j : Nat} {q' r : Reservation T} (mem : s.reservations[i]? = some q)
    (found : (s.put i q').reservations[j]? = some r) :
    (j = i ∧ r = q') ∨ (j ≠ i ∧ s.reservations[j]? = some r) := by
  have inside : i < s.reservations.length := (List.getElem?_eq_some_iff.mp mem).1
  simp only [State.put, List.getElem?_set] at found
  by_cases eq : i = j
  · rw [if_pos eq, if_pos inside] at found
    exact .inl ⟨eq.symm, (Option.some.inj found).symm⟩
  · rw [if_neg eq] at found
    exact .inr ⟨fun same => eq same.symm, found⟩

theorem put_self {q' : Reservation T} (mem : s.reservations[i]? = some q) :
    (s.put i q').reservations[i]? = some q' := by
  have inside : i < s.reservations.length := (List.getElem?_eq_some_iff.mp mem).1
  simp [State.put, inside]

theorem put_other {j : Nat} {q' : Reservation T} (ne : j ≠ i) :
    (s.put i q').reservations[j]? = s.reservations[j]? := by
  simp [State.put, Ne.symm ne]

/-- A reservation may move on, but is not over before its entry has gone. -/
theorem valid_stage {stage : Stage} (inv : Valid max s) (mem : s.reservations[i]? = some q)
    (gone : stage = .finished → s.window.pending.get? q.reqId ≠ some i) :
    Valid max (s.put i { q with stage := stage }) := by
  constructor
  · exact inv.balanced
  · exact inv.bounded
  · intro reqId j found
    obtain ⟨⟨r, here, id, live, none⟩, free⟩ := inv.entry reqId j found
    by_cases eq : j = i
    · rw [eq, mem] at here
      cases here
      subst eq
      have live : stage ≠ .finished := fun finished => gone finished (id.symm ▸ found)
      exact ⟨⟨_, put_self mem, id, live, none⟩, free⟩
    · exact ⟨⟨r, (put_other eq).trans here, id, live, none⟩, free⟩
  · intro j reqId result held
    obtain ⟨r, here, id, none⟩ := inv.held j reqId result held
    by_cases eq : j = i
    · rw [eq, mem] at here
      cases here
      subst eq
      exact ⟨_, put_self mem, id, none⟩
    · exact ⟨r, (put_other eq).trans here, id, none⟩
  · intro j r found
    obtain ⟨rfl, rfl⟩ | ⟨_, found⟩ := get?_put mem found
    · exact inv.answers _ q mem
    · exact inv.answers j r found

/-- Taking entries out of the map keeps everything about the others. -/
theorem valid_shrink {w : DispatchWindow} (inv : Valid max s) (balanced : w.Balanced s.reserving)
    (bounded : w.inFlight ≤ max)
    (fewer : ∀ reqId i, w.pending.get? reqId = some i → s.window.pending.get? reqId = some i) :
    Valid max { s with window := w } :=
  ⟨balanced, bounded, fun reqId i found => inv.entry reqId i (fewer reqId i found), inv.held,
    inv.answers⟩

theorem get?_remove {w : DispatchWindow} {reqId other : Uuid}
    (found : (w.remove reqId).2.pending.get? other = some i) :
    other ≠ reqId ∧ w.pending.get? other = some i := by
  rw [DispatchWindow.remove_pending, OrdMap.get?_erase] at found
  by_cases eq : other = reqId
  · rw [if_pos eq] at found
    cases found
  · rw [if_neg eq] at found
    exact ⟨eq, found⟩

theorem valid_remove (inv : Valid max s) (reqId : Uuid) :
    Valid max { s with window := (s.window.remove reqId).2 } := by
  apply valid_shrink inv
  · exact DispatchWindow.balanced_remove inv.balanced
  · exact Nat.le_trans DispatchWindow.inFlight_remove_le inv.bounded
  · intro other j found
    exact (get?_remove found).2

theorem valid_removePending (inv : Valid max s) (mem : s.reservations[i]? = some q) :
    Valid max (s.removePending i q) := by
  apply valid_stage (valid_remove inv q.reqId) mem
  intro _ found
  exact (get?_remove found).1 rfl

theorem valid_insert (inv : Valid max s) (begun : s.reserving ≠ 0) (reqId : Uuid) :
    Valid max { s with
      window := s.window.insert reqId s.reservations.length
      reserving := s.reserving - 1
      reservations := s.reservations ++ [⟨reqId, .waiting, none, []⟩] } := by
  have old {j : Nat} {r : Reservation T} (mem : s.reservations[j]? = some r) :
      (s.reservations ++ [⟨reqId, .waiting, none, []⟩])[j]? = some r := by
    rw [List.getElem?_append_left (List.getElem?_eq_some_iff.mp mem).1, mem]
  constructor
  · apply DispatchWindow.balanced_insert
    rw [Nat.sub_add_cancel (Nat.pos_of_ne_zero begun)]
    exact inv.balanced
  · exact Nat.le_trans DispatchWindow.inFlight_insert_le inv.bounded
  · intro other j found
    dsimp only at found ⊢
    rw [DispatchWindow.insert_pending, OrdMap.get?_insert] at found
    by_cases eq : other = reqId
    · rw [if_pos eq] at found
      cases found
      refine ⟨⟨_, List.getElem?_concat_length, eq.symm, by simp, rfl⟩, ?_⟩
      intro held taken
      obtain ⟨r, mem, _, _⟩ := inv.held held.1 held.2.1 held.2.2 taken
      exact Nat.ne_of_lt (List.getElem?_eq_some_iff.mp mem).1
    · rw [if_neg eq] at found
      obtain ⟨⟨r, mem, id, live, none⟩, free⟩ := inv.entry other j found
      exact ⟨⟨r, old mem, id, live, none⟩, free⟩
  · intro j other result held
    obtain ⟨r, mem, id, none⟩ := inv.held j other result held
    exact ⟨r, old mem, id, none⟩
  · intro j r mem
    dsimp only at mem
    rw [List.getElem?_append] at mem
    split at mem
    · exact inv.answers j r mem
    · cases List.mem_singleton.mp (List.mem_of_getElem? mem)
      simp

theorem valid_readLine (inv : Valid max s) (reqId : Uuid) (result : T) :
    Valid max { s with
      window := (s.window.remove reqId).2
      reader := (s.window.remove reqId).1.map fun i => (i, reqId, result) } := by
  have removed := valid_remove inv reqId
  constructor
  · exact removed.balanced
  · exact removed.bounded
  · intro other j found
    obtain ⟨ne, before⟩ := get?_remove found
    obtain ⟨⟨r, mem, id, live, none⟩, _⟩ := inv.entry other j before
    refine ⟨⟨r, mem, id, live, none⟩, ?_⟩
    -- The sender taken was of another id, so of another reservation.
    intro held taken same
    simp only [DispatchWindow.remove_found, Option.mem_def, Option.map_eq_some_iff] at taken
    obtain ⟨k, entry, rfl⟩ := taken
    obtain rfl : j = k := same.symm
    obtain ⟨⟨r', mem', id', _⟩, _⟩ := inv.entry reqId j entry
    rw [mem] at mem'
    cases mem'
    exact ne (id.symm.trans id')
  · intro j other result' taken
    simp only [DispatchWindow.remove_found, Option.map_eq_some_iff] at taken
    obtain ⟨k, entry, same⟩ := taken
    cases same
    obtain ⟨⟨r, mem, id, _, none⟩, _⟩ := inv.entry reqId j entry
    exact ⟨r, mem, id, none⟩
  · exact inv.answers

theorem valid_sendResult {reqId : Uuid} {result : T} (inv : Valid max s)
    (held : s.reader = some (i, reqId, result)) (mem : s.reservations[i]? = some q) :
    Valid max ({ s with reader := none }.put i
      { q with slot := some result, answers := q.answers ++ [(reqId, result)] }) := by
  obtain ⟨r, here, id, unanswered⟩ := inv.held i reqId result held
  rw [mem] at here
  cases here
  constructor
  · exact inv.balanced
  · exact inv.bounded
  · intro other j found
    obtain ⟨⟨r, there, id', live, none⟩, free⟩ := inv.entry other j found
    have ne : j ≠ i := fun same => free _ held same.symm
    exact ⟨⟨r, (put_other ne).trans there, id', live, none⟩, by simp [State.put]⟩
  · intro j other result' taken
    cases taken
  · intro j r found
    have mem' : ({ s with reader := none } : State T).reservations[i]? = some q := mem
    obtain ⟨rfl, rfl⟩ | ⟨_, found⟩ := get?_put mem' found
    · simp [unanswered, id]
    · exact inv.answers j r found

theorem step_valid {a : Action T} (inv : Valid max s) (hs : step max s a = some t) :
    Valid max t := by
  cases a with
  | increment =>
    obtain ⟨w, ok, rfl⟩ := Option.map_eq_some_iff.mp hs
    obtain ⟨balanced, bounded, same⟩ := DispatchWindow.balanced_reserve inv.balanced ok
    exact ⟨balanced, bounded, by rw [same]; exact inv.entry, inv.held, inv.answers⟩
  | insert reqId =>
    simp only [step] at hs
    split at hs
    · cases hs
    · rename_i begun
      cases hs
      exact valid_insert inv begun reqId
  | readLine reqId result =>
    simp only [step] at hs
    split at hs
    · cases hs
    · cases hs
      exact valid_readLine inv reqId result
  | sendResult =>
    simp only [step] at hs
    split at hs
    · cases hs
    · rename_i i reqId result held
      split at hs
      · cases hs
      · rename_i q mem
        split at hs
        · cases hs
          exact ⟨inv.balanced, inv.bounded, fun r j found => ⟨(inv.entry r j found).1, by simp⟩,
            by simp, inv.answers⟩
        · cases hs
          exact valid_sendResult inv held mem
  | receive i =>
    simp only [step] at hs
    split at hs
    · rename_i q mem
      split at hs
      · rename_i arrived
        cases hs
        apply valid_stage inv mem
        intro _ entry
        obtain ⟨⟨r, here, _, _, none⟩, _⟩ := inv.entry q.reqId i entry
        rw [mem] at here
        cases here
        exact (inv.answers i q mem).1 arrived.2 none
      · cases hs
    · cases hs
  | dead i =>
    simp only [step] at hs
    split at hs
    · rename_i q mem
      split at hs
      · rename_i gone
        cases hs
        apply valid_stage inv mem
        intro _ entry
        have alive : s.senderAlive i q = true := by simp [State.senderAlive, entry]
        rw [gone.2.2] at alive
        cases alive
      · cases hs
    · cases hs
  | timeout i =>
    simp only [step] at hs
    split at hs
    · rename_i q mem
      split at hs
      · cases hs
        apply valid_stage inv mem
        intro finished
        cases finished
      · cases hs
    · cases hs
  | removePending i | drop i =>
    simp only [step] at hs
    split at hs
    · rename_i q mem
      split at hs
      · cases hs
      · cases hs
        exact valid_removePending inv mem
    · cases hs
  | clear =>
    cases hs
    apply valid_shrink inv
    · exact DispatchWindow.balanced_clear inv.balanced
    · rw [(DispatchWindow.balanced_clear inv.balanced).counted, DispatchWindow.clear_pending]
      have := inv.balanced.counted
      have := inv.bounded
      change 0 + s.reserving ≤ max
      omega
    · intro reqId i found
      rw [DispatchWindow.clear_pending] at found
      cases found

/-! ## Capacity and correlation -/

/-- A result for this id finds nothing and changes nothing. -/
def Ignored (s : State T) (reqId : Uuid) : Prop := s.window.remove reqId = (none, s.window)

theorem Valid.ignores (inv : Valid max s) {reqId : Uuid}
    (done : ∀ q ∈ s.reservations, q.reqId = reqId → q.answers ≠ [] ∨ q.stage = .finished) :
    Ignored s reqId := by
  apply DispatchWindow.remove_absent
  rw [Option.eq_none_iff_forall_not_mem]
  intro i entry
  obtain ⟨⟨q, mem, id, live, none⟩, _⟩ := inv.entry reqId i entry
  obtain answered | finished := done q (List.mem_of_getElem? mem) id
  · exact answered none
  · exact live finished

theorem Valid.drained (inv : Valid max s) (none : s.reserving = 0)
    (finished : ∀ q ∈ s.reservations, q.stage = .finished) :
    s.window.pending = .empty ∧ s.window.inFlight = 0 := by
  have empty : s.window.pending = .empty := by
    apply OrdMap.ext_get?
    intro reqId
    rw [OrdMap.get?_empty, Option.eq_none_iff_forall_not_mem]
    intro i entry
    obtain ⟨⟨q, mem, _, live, _⟩, _⟩ := inv.entry reqId i entry
    exact live (finished q (List.mem_of_getElem? mem))
  constructor
  · exact empty
  · rw [inv.balanced.counted, empty, none]
    rfl

/-- Along every run: the counter is the pending entries and the reserves half done, at most
`max`, and no release saturates; all reservations over leave nothing behind; a reservation
gets one result at most, of its own id; and a result whose id no reservation still waits
for, or of another id, changes nothing. -/
theorem window_sound (run : Reaches (· = State.new) (step max) (fun _ _ => True) s) :
    s.window.inFlight = s.window.pending.size + s.reserving ∧ s.window.inFlight ≤ max ∧
    s.window.saturated = false ∧
    (s.reserving = 0 → (∀ q ∈ s.reservations, q.stage = .finished) →
      s.window.pending = .empty ∧ s.window.inFlight = 0) ∧
    (∀ q ∈ s.reservations, q.answers.length ≤ 1 ∧ ∀ a ∈ q.answers, a.1 = q.reqId) ∧
    (∀ reqId, (∀ q ∈ s.reservations, q.reqId = reqId → q.answers ≠ [] ∨ q.stage = .finished) →
      Ignored s reqId) ∧
    ∀ reqId other, other ≠ reqId →
      (s.window.remove reqId).2.pending.get? other = s.window.pending.get? other := by
  have inv : Valid max s := by
    apply run.invariant (Valid max)
    · rintro _ rfl
      exact valid_new
    · intro s a t _ inv _ hs
      exact step_valid inv hs
  refine ⟨inv.balanced.counted, inv.bounded, inv.balanced.exact, inv.drained, ?_,
    fun _ => inv.ignores, ?_⟩
  · intro q mem
    obtain ⟨i, here⟩ := List.getElem?_of_mem mem
    exact (inv.answers i q here).2
  · intro reqId other ne
    rw [DispatchWindow.remove_pending, OrdMap.get?_erase, if_neg ne]

/-- Two requests on a window of two: the first times out as its answer comes in, late; the
second is answered twice. -/
def lateAnswer : List (Action String) :=
  [.increment, .increment, .insert 1, .insert 2, .timeout 0, .removePending 0, .readLine 1 "late",
    .readLine 2 "ok", .sendResult, .receive 1, .readLine 2 "again"]

theorem window_sound_late :
    ∃ s : State String, exec (guarded (fun _ _ => True) (step 2)) .new lateAnswer = some s ∧
      s.reservations.map Reservation.answers = [[], [(2, "ok")]] ∧ s.window.inFlight = 0 ∧
      s.window.saturated = false := by
  let s : State String :=
    ⟨⟨.empty, 0, false⟩, 0, [⟨1, .finished, none, []⟩, ⟨2, .finished, some "ok", [(2, "ok")]⟩], none⟩
  have run : exec (guarded (fun _ _ => True) (step 2)) .new lateAnswer = some s := by decide
  have law := window_sound (reaches_of_exec _ (.start rfl) run)
  exact ⟨s, run, rfl, rfl, law.2.2.1⟩

end Whdr.Reservations
