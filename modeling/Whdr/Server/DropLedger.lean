import Whdr.Server.PushCalls

/-! What the operations of the producers keep: where the events are, and the drops against
their counters. -/
namespace Whdr.LagReport

/-! ## Where the events are -/

def Call.rejects : Call → Bool
  | .rejected | .rejectCounted => true
  | _ => false

def Call.locks : Call → Bool
  | .evicting _ | .evicted _ _ | .evictCounted _ _ => true
  | _ => false

/-- The event this call evicted and has not finished to record. -/
def Call.victim : Call → Option Nat
  | .evicted _ victim | .evictCounted _ victim => some victim
  | _ => none

/-- The events that took effect are queued, popped or dropped, and the queue holds them in
the order they came in. -/
structure State.Placed (s : State) : Prop where
  aligned : s.queue.events.length = s.queued.length
  ordered : s.queued.Sublist s.order
  nodup : s.order.Nodup
  returned : ∀ e ∈ s.order, s.calls[e]? = some .returned
  rejected : ∀ i c, s.calls[i]? = some c → c.rejects = true → i ∈ s.gone
  placed : ∀ e ∈ s.order, e ∈ s.queued ∨ e ∈ s.delivered ∨ e ∈ s.gone
  delivered : ∀ e ∈ s.delivered, e ∈ s.order ∧ e ∉ s.queued ∧ e ∉ s.gone
  waiting : ∀ e ∈ s.queued, e ∉ s.gone
  gone : ∀ e ∈ s.gone, e ∈ s.order ∨ ∃ c, s.calls[e]? = some c ∧ c.rejects = true

/-- Call `i` has dropped `e` and `lag_pending` does not count it yet. -/
def Call.Records (c : Call) (i e : Nat) : Prop := i = e ∧ c.rejects = true ∨ c.victim = some e

/-- The drop of `e` is being recorded. -/
def State.Recording (s : State) (e : Nat) : Prop :=
  ∃ (i : Nat) (c : Call), s.calls[i]? = some c ∧ c.Records i e

/-- The counters against the drops. -/
structure State.Ledger (s : State) : Prop where
  locked : ∀ i c, s.calls[i]? = some c → c.locks = true → s.holder = some i
  gone : ∀ e ∈ s.gone, e ∈ s.lost ∨ s.Recording e
  pending : s.lost.length = s.taken.sum + s.queue.lagPending
  dropped : s.lost.length + s.halfway = s.queue.dropped

variable {textLen : SubServerMsg → Nat} {s t : State} {i : Nat} {c d : Call} {msg : SubServerMsg}

/-- A queue with as many events, and whatever the loop does, leave the places alone. -/
theorem State.Placed.same (placed : s.Placed) (events : t.queue.events.length = s.queue.events.length)
    (calls : t.calls = s.calls) (order : t.order = s.order) (queued : t.queued = s.queued)
    (delivered : t.delivered = s.delivered) (gone : t.gone = s.gone) : t.Placed := by
  obtain ⟨aligned, ordered, nodup, returned, rejected, isPlaced, isDelivered, waiting, isGone⟩ := placed
  constructor <;> simp only [events, calls, order, queued, delivered, gone] <;> assumption

theorem State.Ledger.same (ledger : s.Ledger) (calls : t.calls = s.calls) (holder : t.holder = s.holder)
    (gone : t.gone = s.gone) (lost : t.lost = s.lost)
    (pending : t.lost.length = t.taken.sum + t.queue.lagPending)
    (dropped : t.queue.dropped = s.queue.dropped) : t.Ledger := by
  constructor
  · rw [calls, holder]
    exact ledger.locked
  · rw [gone, lost]
    unfold State.Recording
    rw [calls]
    exact ledger.gone
  · exact pending
  · unfold State.halfway
    rw [lost, calls, dropped]
    exact ledger.dropped

theorem not_mem_order (valid : s.Placed) (at_i : s.calls[i]? = some c) (ne : c ≠ .returned) :
    i ∉ s.order := by
  intro mem
  rw [valid.returned i mem] at at_i
  cases at_i
  exact ne rfl

/-- Another call stands where it stood. -/
theorem getElem?_setCall {j : Nat} {b : Call} (h : (s.calls.set i d)[j]? = some b) :
    j ≠ i ∧ s.calls[j]? = some b ∨ j = i ∧ b = d := by
  rw [List.getElem?_set] at h
  split at h
  · rename_i eq
    split at h
    · cases h
      exact .inr ⟨eq.symm, rfl⟩
    · cases h
  · rename_i ne
    exact .inl ⟨Ne.symm ne, h⟩

/-- A step of call `i` on the places: what it keeps, what it adds to `order` and `gone`, and
what the queue then holds. -/
theorem placed_step (valid : s.Placed) (at_i : s.calls[i]? = some c) (ne : c ≠ .returned)
    (calls : t.calls = s.calls.set i d)
    (aligned : t.queue.events.length = t.queued.length)
    (ordered : t.queued.Sublist t.order)
    (order : t.order = s.order ∨ t.order = s.order ++ [i] ∧ d = .returned)
    (rejects : d.rejects = true → i ∈ t.gone)
    (more : ∀ e ∈ s.gone, e ∈ t.gone)
    (placed : ∀ e ∈ t.order, e ∈ t.queued ∨ e ∈ t.delivered ∨ e ∈ t.gone)
    (delivered : t.delivered = s.delivered)
    (queued : ∀ e ∈ t.queued, e ∈ s.queued ∨ e = i)
    (gone : ∀ e ∈ t.gone, e ∈ s.gone ∨ e ∉ t.queued ∧ (e = i ∨ e ∈ s.queued))
    (waiting : ∀ e ∈ t.queued, e ∉ t.gone)
    (own : i ∈ t.gone → d.rejects = true ∨ i ∈ t.order) : t.Placed := by
  have new := not_mem_order valid at_i ne
  have inside : i < s.calls.length := (List.getElem?_eq_some_iff.mp at_i).1
  have old : ∀ e ∈ s.order, t.calls[e]? = some .returned := by
    intro e mem
    have differ : i ≠ e := by
      rintro rfl
      exact new mem
    rw [calls, List.getElem?_set_ne differ]
    exact valid.returned e mem
  have kept : ∀ e ∈ s.order, e ∈ t.order := by
    intro e mem
    obtain same | ⟨longer, _⟩ := order
    · exact same ▸ mem
    · rw [longer]
      exact List.mem_append_left _ mem
  constructor
  · exact aligned
  · exact ordered
  · obtain same | ⟨longer, _⟩ := order
    · rw [same]
      exact valid.nodup
    · rw [longer]
      exact List.nodup_append.mpr ⟨valid.nodup, List.nodup_singleton i, by
        rintro a mem b last rfl
        rw [List.mem_singleton.mp last] at mem
        exact new mem⟩
  · intro e mem
    obtain same | ⟨longer, rfl⟩ := order
    · exact old e (same ▸ mem)
    · rw [longer, List.mem_append, List.mem_singleton] at mem
      obtain mem | rfl := mem
      · exact old e mem
      · rw [calls, List.getElem?_set_self inside]
  · intro j b at_j isReject
    rw [calls] at at_j
    obtain ⟨_, h⟩ | ⟨rfl, rfl⟩ := getElem?_setCall at_j
    · exact more j (valid.rejected j b h isReject)
    · exact rejects isReject
  · exact placed
  · intro e mem
    rw [delivered] at mem
    obtain ⟨inOrder, notQueued, notGone⟩ := valid.delivered e mem
    refine ⟨kept e inOrder, ?_, ?_⟩
    · intro mem
      obtain h | rfl := queued e mem
      · exact notQueued h
      · exact new inOrder
    · intro mem
      obtain h | ⟨_, rfl | h⟩ := gone e mem
      · exact notGone h
      · exact new inOrder
      · exact notQueued h
  · exact waiting
  · intro e mem
    by_cases here : e = i
    · subst here
      obtain isReject | h := own mem
      · exact .inr ⟨d, by rw [calls, List.getElem?_set_self inside], isReject⟩
      · exact .inl h
    · obtain h | ⟨_, h | h⟩ := gone e mem
      · obtain h | ⟨b, at_e, isReject⟩ := valid.gone e h
        · exact .inl (kept e h)
        · exact .inr ⟨b, by rw [calls, List.getElem?_set_ne (Ne.symm here), at_e], isReject⟩
      · exact absurd h here
      · exact .inl (kept e (valid.ordered.subset h))

/-- A call that rejects nothing has not dropped its own event. -/
theorem not_mem_gone (valid : s.Placed) (at_i : s.calls[i]? = some c) (ne : c ≠ .returned)
    (accepts : c.rejects = false) : i ∉ s.gone := by
  intro mem
  obtain h | ⟨b, h, isReject⟩ := valid.gone i mem
  · exact not_mem_order valid at_i ne h
  · rw [at_i] at h
    cases h
    rw [accepts] at isReject
    cases isReject

/-- The operations of a call that move no event. -/
theorem placed_quiet (valid : s.Placed) (at_i : s.calls[i]? = some c) (ne : c ≠ .returned)
    {q : OutboundQueue} (same : q.inner = s.queue.inner) {h : Option Nat} {lost : List Nat}
    (rejects : d.rejects = c.rejects) :
    (setCall { s with queue := q, holder := h, lost := lost } i d).Placed := by
  have aligned : q.events.length = s.queued.length := by
    rw [OutboundQueue.events, same]
    exact valid.aligned
  refine placed_step (d := d) valid at_i ne rfl aligned valid.ordered (.inl rfl) ?_ ?_ ?_ rfl ?_ ?_ ?_ ?_
  · exact fun isReject => valid.rejected i c at_i (rejects ▸ isReject)
  · exact fun e mem => mem
  · exact valid.placed
  · exact fun e mem => .inl mem
  · exact fun e mem => .inl mem
  · exact valid.waiting
  · intro mem
    obtain h | ⟨b, h, isReject⟩ := valid.gone i mem
    · exact .inr h
    · rw [at_i] at h
      cases h
      exact .inl (rejects ▸ isReject)

theorem placed_reject (valid : s.Placed) (at_i : s.calls[i]? = some c) (ne : c ≠ .returned) :
    (setCall { s with gone := s.gone ++ [i] } i .rejected).Placed := by
  have new := not_mem_order valid at_i ne
  have last : i ∈ s.gone ++ [i] := List.mem_append_right _ (List.mem_singleton_self i)
  have unqueued : i ∉ s.queued := fun mem => new (valid.ordered.subset mem)
  refine placed_step (d := .rejected) valid at_i ne rfl valid.aligned valid.ordered (.inl rfl) ?_ ?_ ?_ rfl ?_ ?_ ?_ ?_
  · exact fun _ => last
  · exact fun e mem => List.mem_append_left _ mem
  · intro e mem
    obtain h | h | h := valid.placed e mem
    · exact .inl h
    · exact .inr (.inl h)
    · exact .inr (.inr (List.mem_append_left _ h))
  · exact fun e mem => .inl mem
  · intro e mem
    obtain h | h := List.mem_append.mp mem
    · exact .inl h
    · rw [List.mem_singleton.mp h]
      exact .inr ⟨unqueued, .inl rfl⟩
  · intro e mem h
    obtain h | h := List.mem_append.mp h
    · exact valid.waiting e mem h
    · rw [List.mem_singleton.mp h] at mem
      exact unqueued mem
  · exact fun _ => .inl rfl

/-- A rejected event takes effect when its drop is recorded. -/
theorem placed_rejected (valid : s.Placed) (at_i : s.calls[i]? = some .rejectCounted)
    {q : OutboundQueue} (same : q.inner = s.queue.inner) {lost : List Nat} :
    (setCall { s with queue := q, lost := lost, order := s.order ++ [i] } i .returned).Placed := by
  have aligned : q.events.length = s.queued.length := by
    rw [OutboundQueue.events, same]
    exact valid.aligned
  have ne : Call.rejectCounted ≠ .returned := by simp
  refine placed_step (d := .returned) valid at_i ne rfl aligned
    (valid.ordered.trans (List.sublist_append_left _ _)) (.inr ⟨rfl, rfl⟩) ?_ ?_ ?_ rfl ?_ ?_ ?_ ?_
  · exact fun isReject => by cases isReject
  · exact fun e mem => mem
  · intro e mem
    obtain h | h := List.mem_append.mp mem
    · exact valid.placed e h
    · rw [List.mem_singleton.mp h]
      exact .inr (.inr (valid.rejected i _ at_i rfl))
  · exact fun e mem => .inl mem
  · exact fun e mem => .inl mem
  · exact valid.waiting
  · exact fun _ => .inr (List.mem_append_right _ (List.mem_singleton_self i))

theorem placed_pushBack (valid : s.Placed) (at_i : s.calls[i]? = some c) (ne : c ≠ .returned)
    (accepts : c.rejects = false) : (pushBack s i msg).Placed := by
  have accepted := not_mem_gone valid at_i ne accepts
  have aligned : (pushBack s i msg).queue.events.length = (s.queued ++ [i]).length := by
    simp only [pushBack, setCall, OutboundQueue.events_push, List.length_append,
      List.length_singleton, valid.aligned]
  refine placed_step (d := .returned) valid at_i ne rfl aligned
    (valid.ordered.append (.refl _)) (.inr ⟨rfl, rfl⟩) ?_ ?_ ?_ rfl ?_ ?_ ?_ ?_
  · exact fun isReject => by cases isReject
  · exact fun e mem => mem
  · intro e mem
    obtain h | h := List.mem_append.mp mem
    · obtain h | h := valid.placed e h
      · exact .inl (List.mem_append_left _ h)
      · exact .inr h
    · exact .inl (List.mem_append_right _ h)
  · intro e mem
    obtain h | h := List.mem_append.mp mem
    · exact .inl h
    · exact .inr (List.mem_singleton.mp h)
  · exact fun e mem => .inl mem
  · intro e mem
    obtain h | h := List.mem_append.mp mem
    · exact valid.waiting e h
    · rw [List.mem_singleton.mp h]
      exact accepted
  · exact fun _ => .inr (List.mem_append_right _ (List.mem_singleton_self i))

/-- The first event of the queue is the first of `queued`. -/
theorem queued_of_first (valid : s.Placed) {evictAt : Nat}
    (first : s.queue.inner.findIdx? Frame.isEvent = some evictAt) :
    s.queued = s.queued.headD 0 :: s.queued.tail := by
  obtain ⟨_, _, some⟩ := OutboundQueue.filter_eraseIdx_first first
  have aligned := valid.aligned
  cases queued : s.queued with
  | nil =>
    rw [queued] at aligned
    exact absurd (List.eq_nil_of_length_eq_zero aligned) some
  | cons e rest => rfl

theorem placed_evict (valid : s.Placed) (at_i : s.calls[i]? = some (.evicting msg)) {evictAt : Nat}
    (first : s.queue.inner.findIdx? Frame.isEvent = some evictAt) :
    (setCall { s with
      queue := { s.queue with inner := s.queue.inner.eraseIdx evictAt }
      queued := s.queued.tail
      gone := s.gone ++ [s.queued.headD 0] } i (.evicted msg (s.queued.headD 0))).Placed := by
  have split := queued_of_first valid first
  generalize s.queued.headD 0 = victim at *
  generalize rest : s.queued.tail = left at *
  have nodup := valid.nodup.sublist valid.ordered
  rw [split] at nodup
  obtain ⟨fresh, _⟩ := List.nodup_cons.mp nodup
  have inside : victim ∈ s.queued := split ▸ List.mem_cons_self
  have fewer : ∀ e ∈ left, e ∈ s.queued := fun e mem => split ▸ List.mem_cons_of_mem _ mem
  have aligned : { s.queue with inner := s.queue.inner.eraseIdx evictAt }.events.length =
      left.length := by
    have tail : { s.queue with inner := s.queue.inner.eraseIdx evictAt }.events =
        s.queue.events.tail := (OutboundQueue.filter_eraseIdx_first first).1
    have aligned := valid.aligned
    rw [split, List.length_cons] at aligned
    rw [tail, List.length_tail]
    omega
  have ne : Call.evicting msg ≠ .returned := by simp
  refine placed_step (d := .evicted msg victim) valid at_i ne rfl aligned
    ((split ▸ List.sublist_cons_self victim left : left.Sublist s.queued).trans valid.ordered)
    (.inl rfl) ?_ ?_ ?_ rfl ?_ ?_ ?_ ?_
  · exact fun isReject => by cases isReject
  · exact fun e mem => List.mem_append_left _ mem
  · intro e mem
    obtain h | h | h := valid.placed e mem
    · rw [split] at h
      obtain rfl | h := List.mem_cons.mp h
      · exact .inr (.inr (List.mem_append_right _ (List.mem_singleton_self e)))
      · exact .inl h
    · exact .inr (.inl h)
    · exact .inr (.inr (List.mem_append_left _ h))
  · exact fun e mem => .inl (fewer e mem)
  · intro e mem
    obtain h | h := List.mem_append.mp mem
    · exact .inl h
    · rw [List.mem_singleton.mp h]
      exact .inr ⟨fresh, .inr inside⟩
  · intro e mem h
    obtain h | h := List.mem_append.mp h
    · exact valid.waiting e (fewer e mem) h
    · rw [List.mem_singleton.mp h] at mem
      exact fresh mem
  · intro mem
    obtain h | h := List.mem_append.mp mem
    · exact absurd h (not_mem_gone valid at_i ne rfl)
    · rw [List.mem_singleton.mp h]
      exact .inr (valid.ordered.subset inside)

/-- The first of the queue is popped. -/
theorem placed_pop (valid : s.Placed) {v : Nat} {left : List Nat} (queued : s.queued = v :: left)
    {queue : OutboundQueue} (aligned : queue.events.length = left.length) {loop : Loop} :
    ({ s with
      queue := queue
      queued := left
      delivered := s.delivered ++ [v]
      loop := loop } : State).Placed := by
  have nodup := valid.nodup.sublist valid.ordered
  rw [queued] at nodup
  obtain ⟨new, _⟩ := List.nodup_cons.mp nodup
  have ordered := valid.ordered
  rw [queued] at ordered
  constructor
  · exact aligned
  · exact (List.sublist_cons_self v left).trans ordered
  · exact valid.nodup
  · exact valid.returned
  · exact valid.rejected
  · intro e mem
    have place := valid.placed e mem
    rw [queued] at place
    obtain h | h | h := place
    · obtain rfl | h := List.mem_cons.mp h
      · exact .inr (.inl (List.mem_append_right _ (List.mem_singleton_self e)))
      · exact .inl h
    · exact .inr (.inl (List.mem_append_left _ h))
    · exact .inr (.inr h)
  · intro e mem
    obtain h | h := List.mem_append.mp mem
    · obtain ⟨inOrder, notQueued, notGone⟩ := valid.delivered e h
      rw [queued] at notQueued
      exact ⟨inOrder, fun mem => notQueued (List.mem_cons_of_mem _ mem), notGone⟩
    · rw [List.mem_singleton.mp h]
      exact ⟨ordered.subset List.mem_cons_self, new,
        valid.waiting v (queued ▸ List.mem_cons_self)⟩
  · exact fun e mem => valid.waiting e (queued ▸ List.mem_cons_of_mem _ mem)
  · exact valid.gone

/-! ## The counters -/

/-- A call that rejects and evicts nothing has no drop to record. -/
theorem not_records {e : Nat} (accepts : c.rejects = false) (evicts : c.victim = none) :
    ¬ c.Records i e := by
  rintro (⟨_, isReject⟩ | isVictim)
  · rw [accepts] at isReject
    cases isReject
  · rw [evicts] at isVictim
    cases isVictim

/-- A step of call `i` on the counters. -/
theorem ledger_step (valid : s.Ledger) (at_i : s.calls[i]? = some c)
    (calls : t.calls = s.calls.set i d)
    (holder : t.holder = s.holder ∨ s.holder = none ∨ s.holder = some i)
    (locks : d.locks = true → t.holder = some i)
    (lost : ∀ e ∈ s.lost, e ∈ t.lost)
    (gone : ∀ e ∈ t.gone, e ∈ s.gone ∨ d.Records i e)
    (carried : ∀ e, c.Records i e → e ∈ t.lost ∨ d.Records i e)
    (pending : t.lost.length = t.taken.sum + t.queue.lagPending)
    (dropped : t.lost.length + (if d.halfway then 1 else 0) + s.queue.dropped =
      s.lost.length + (if c.halfway then 1 else 0) + t.queue.dropped) : t.Ledger := by
  obtain ⟨inside, c_eq⟩ := List.getElem?_eq_some_iff.mp at_i
  have here : t.calls[i]? = some d := by rw [calls, List.getElem?_set_self inside]
  constructor
  · intro j b at_j isLocked
    rw [calls] at at_j
    obtain ⟨ne, h⟩ | ⟨rfl, rfl⟩ := getElem?_setCall at_j
    · have held := valid.locked j b h isLocked
      obtain same | none | mine := holder
      · exact same.trans held
      · rw [none] at held
        cases held
      · rw [mine] at held
        cases held
        exact absurd rfl ne
    · exact locks isLocked
  · intro e mem
    obtain old | new := gone e mem
    · obtain counted | ⟨j, b, at_j, records⟩ := valid.gone e old
      · exact .inl (lost e counted)
      · by_cases other : i = j
        · subst other
          rw [at_i] at at_j
          cases at_j
          obtain counted | records := carried e records
          · exact .inl counted
          · exact .inr ⟨i, d, here, records⟩
        · exact .inr ⟨j, b, by rw [calls, List.getElem?_set_ne other, at_j], records⟩
    · exact .inr ⟨i, d, here, new⟩
  · exact pending
  · have total := valid.dropped
    have count := List.countP_set (p := Call.halfway) (a := d) inside
    have atLeast : (if c.halfway then 1 else 0) ≤ s.calls.countP Call.halfway := by
      split
      · rename_i half
        exact List.countP_pos_iff.mpr ⟨c, c_eq ▸ List.getElem_mem inside, half⟩
      · exact Nat.zero_le _
    rw [c_eq] at count
    simp only [State.halfway] at total ⊢
    rw [calls, count]
    omega

theorem run_ledger (valid : s.Ledger) (at_i : s.calls[i]? = some c)
    (ran : runCall textLen s i c = some t) : t.Ledger := by
  have pending := valid.pending
  cases c with
  | entered msg =>
    simp only [runCall] at ran
    split at ran
    · cases ran
      refine ledger_step (d := .rejected) valid at_i rfl (.inl rfl) (by simp [Call.locks])
        (fun e mem => mem) ?_ ?_ pending rfl
      · intro e mem
        obtain h | h := List.mem_append.mp mem
        · exact .inl h
        · exact .inr (.inl ⟨(List.mem_singleton.mp h).symm, rfl⟩)
      · exact fun e records => absurd records (not_records rfl rfl)
    · split at ran
      · rename_i free
        cases ran
        refine ledger_step (d := .evicting msg) valid at_i rfl (.inr (.inl free)) (fun _ => rfl)
          (fun e mem => mem) (fun e mem => .inl mem) ?_ pending rfl
        exact fun e records => absurd records (not_records rfl rfl)
      · cases ran
  | rejected =>
    cases ran
    refine ledger_step (d := .rejectCounted) valid at_i rfl (.inl rfl) (by simp [Call.locks])
      (fun e mem => mem) (fun e mem => .inl mem) (fun e records => .inr records) pending ?_
    simp [countDropped, Call.halfway, setCall]
    omega
  | rejectCounted =>
    cases ran
    refine ledger_step (d := .returned) valid at_i rfl (.inl rfl) (by simp [Call.locks])
      (fun e mem => List.mem_append_left _ mem) (fun e mem => .inl mem) ?_ ?_ ?_
    · rintro e (⟨rfl, _⟩ | no)
      · exact .inl (List.mem_append_right _ (List.mem_singleton_self _))
      · cases no
    · simp only [setCall, countLag, List.length_append, List.length_singleton]
      omega
    · simp only [setCall, countLag, List.length_append, List.length_singleton, Call.halfway,
        Bool.false_eq_true, ↓reduceIte]
  | evicting msg =>
    have held := valid.locked i _ at_i rfl
    have pushes : (pushBack s i msg).Ledger := by
      refine ledger_step (d := .returned) valid at_i rfl (.inr (.inr held)) (by simp [Call.locks])
        (fun e mem => mem) (fun e mem => .inl mem) ?_ pending rfl
      exact fun e records => absurd records (not_records rfl rfl)
    simp only [runCall] at ran
    split at ran
    · split at ran
      · cases ran
        exact pushes
      · cases ran
        refine ledger_step (d := .evicted msg (s.queued.headD 0)) valid at_i rfl (.inl rfl)
          (fun _ => held) (fun e mem => mem) ?_ ?_ pending rfl
        · intro e mem
          obtain h | h := List.mem_append.mp mem
          · exact .inl h
          · exact .inr (.inr (congrArg some (List.mem_singleton.mp h).symm))
        · exact fun e records => absurd records (not_records rfl rfl)
    · cases ran
      exact pushes
  | evicted msg victim =>
    have held := valid.locked i _ at_i rfl
    cases ran
    refine ledger_step (d := .evictCounted msg victim) valid at_i rfl (.inl rfl) (fun _ => held)
      (fun e mem => mem) (fun e mem => .inl mem) (fun e records => .inr records) pending ?_
    simp only [countDropped, Call.halfway, setCall, Bool.false_eq_true, ↓reduceIte]
    omega
  | evictCounted msg victim =>
    have held := valid.locked i _ at_i rfl
    cases ran
    refine ledger_step (d := .evicting msg) valid at_i rfl (.inl rfl) (fun _ => held)
      (fun e mem => List.mem_append_left _ mem) (fun e mem => .inl mem) ?_ ?_ ?_
    · rintro e (⟨_, no⟩ | isVictim)
      · cases no
      · cases isVictim
        exact .inl (List.mem_append_right _ (List.mem_singleton_self _))
    · simp only [setCall, countLag, List.length_append, List.length_singleton]
      omega
    · simp only [setCall, countLag, List.length_append, List.length_singleton, Call.halfway,
        Bool.false_eq_true, ↓reduceIte]
  | returned => cases ran

theorem run_placed (valid : s.Placed) (at_i : s.calls[i]? = some c)
    (ran : runCall textLen s i c = some t) : t.Placed := by
  cases c with
  | entered msg =>
    simp only [runCall] at ran
    split at ran
    · cases ran
      exact placed_reject valid at_i (by simp)
    · split at ran
      · cases ran
        refine placed_quiet valid at_i (by simp) ?_ ?_
        · rfl
        · rfl
      · cases ran
  | rejected =>
    cases ran
    refine placed_quiet valid at_i (by simp) ?_ ?_
    · rfl
    · rfl
  | rejectCounted =>
    cases ran
    refine placed_rejected valid at_i ?_
    rfl
  | evicting msg =>
    have pushes : (pushBack s i msg).Placed := placed_pushBack valid at_i (by simp) rfl
    simp only [runCall] at ran
    split at ran
    · split at ran
      · cases ran
        exact pushes
      · rename_i first
        cases ran
        exact placed_evict valid at_i first
    · cases ran
      exact pushes
  | evicted msg victim =>
    cases ran
    refine placed_quiet valid at_i (by simp) ?_ ?_
    · rfl
    · rfl
  | evictCounted msg victim =>
    cases ran
    refine placed_quiet valid at_i (by simp) ?_ ?_
    · rfl
    · rfl
  | returned => cases ran

end Whdr.LagReport
