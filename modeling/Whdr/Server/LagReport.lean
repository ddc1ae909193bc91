import Whdr.Server.DropLedger

/-! Whatever the loop of a connection writes, the drops before it are reported first. -/
namespace Whdr.LagReport

open FairLocks (Before before_concat before_asymm)
open OutboundQueue (takePendingLag)

/-- Whatever took effect before `i` was popped, or is among the first `n` drops counted. -/
def State.Covered (s : State) (i n : Nat) : Prop :=
  i ∈ s.order ∧ ∀ e, Before s.order e i → e ∈ s.delivered ∨ e ∈ s.lost.take n

/-- What the loop still owes its sink. -/
def State.Owes (s : State) : Loop → Prop
  | .selecting => reported s.sink = s.taken.sum
  | .popped _ call => reported s.sink = s.taken.sum ∧ ∀ i ∈ call, s.Covered i s.lost.length
  | .lagTaken dropped _ call => reported s.sink + dropped = s.taken.sum ∧
      ∀ i ∈ call, s.Covered i s.taken.sum
  | .writing _ call => reported s.sink = s.taken.sum ∧ ∀ i ∈ call, s.Covered i s.taken.sum
  | .ended => True

structure State.Told (s : State) : Prop where
  loop : s.Owes s.loop
  sink : ∀ before i msg after, s.sink = before ++ .live i msg :: after →
    s.Covered i (reported before)

structure State.Valid (s : State) : Prop where
  placed : s.Placed
  ledger : s.Ledger
  told : s.Told

variable {textLen : SubServerMsg → Nat} {s t : State} {i : Nat} {c d : Call} {msg : SubServerMsg}

/-- `t` has counted and popped at least what `s` has, and later calls come later. -/
structure State.Grows (s t : State) : Prop where
  order : t.order = s.order ∨ ∃ x, x ∉ s.order ∧ t.order = s.order ++ [x]
  delivered : ∀ e ∈ s.delivered, e ∈ t.delivered
  lost : s.lost <+: t.lost

theorem Covered.grow {n m : Nat} (h : s.Covered i n) (grows : s.Grows t) (le : n ≤ m) :
    t.Covered i m := by
  obtain ⟨mem, covered⟩ := h
  have still : i ∈ t.order := by
    obtain same | ⟨x, _, longer⟩ := grows.order
    · exact same ▸ mem
    · rw [longer]
      exact List.mem_append_left _ mem
  refine ⟨still, ?_⟩
  intro e front
  have before : Before s.order e i := by
    obtain same | ⟨x, new, longer⟩ := grows.order
    · exact same ▸ front
    · rw [longer] at front
      obtain h | ⟨_, rfl⟩ := before_concat front
      · exact h
      · exact absurd mem new
  obtain h | h := covered e before
  · exact .inl (grows.delivered e h)
  · obtain ⟨more, longer⟩ := grows.lost
    have still : e ∈ t.lost.take n := by
      rw [← longer, List.take_append]
      exact List.mem_append_left _ h
    exact .inr (List.take_subset_take_left _ le still)

/-- Nothing is owed that was not owed before. -/
theorem told_grow (told : s.Told) (grows : s.Grows t) (loop : t.loop = s.loop)
    (sink : t.sink = s.sink) (taken : t.taken = s.taken) : t.Told := by
  constructor
  · have owes := told.loop
    rw [loop]
    cases at_loop : s.loop with
    | selecting =>
      rw [at_loop] at owes
      simpa only [State.Owes, sink, taken] using owes
    | popped frame call =>
      rw [at_loop] at owes
      simp only [State.Owes, sink, taken]
      exact ⟨owes.1, fun i mem => Covered.grow (owes.2 i mem) grows grows.lost.length_le⟩
    | lagTaken dropped frame call =>
      rw [at_loop] at owes
      simp only [State.Owes, sink, taken]
      exact ⟨owes.1, fun i mem => Covered.grow (owes.2 i mem) grows (Nat.le_refl _)⟩
    | writing frame call =>
      rw [at_loop] at owes
      simp only [State.Owes, sink, taken]
      exact ⟨owes.1, fun i mem => Covered.grow (owes.2 i mem) grows (Nat.le_refl _)⟩
    | ended => trivial
  · intro before i msg after eq
    rw [sink] at eq
    exact Covered.grow (told.sink before i msg after eq) grows (Nat.le_refl _)

theorem run_grows (placed : s.Placed) (at_i : s.calls[i]? = some c)
    (ran : runCall textLen s i c = some t) :
    s.Grows t ∧ t.loop = s.loop ∧ t.sink = s.sink ∧ t.taken = s.taken := by
  have quiet : ∀ e ∈ s.delivered, e ∈ s.delivered := fun e mem => mem
  cases c with
  | entered msg =>
    simp only [runCall] at ran
    split at ran
    · cases ran
      exact ⟨⟨.inl rfl, quiet, List.prefix_refl _⟩, rfl, rfl, rfl⟩
    · split at ran
      · cases ran
        exact ⟨⟨.inl rfl, quiet, List.prefix_refl _⟩, rfl, rfl, rfl⟩
      · cases ran
  | rejected | evicted msg victim =>
    cases ran
    exact ⟨⟨.inl rfl, quiet, List.prefix_refl _⟩, rfl, rfl, rfl⟩
  | rejectCounted =>
    cases ran
    have new := not_mem_order placed at_i (by simp)
    exact ⟨⟨.inr ⟨i, new, rfl⟩, quiet, List.prefix_append _ _⟩, rfl, rfl, rfl⟩
  | evicting msg =>
    have new := not_mem_order placed at_i (by simp)
    simp only [runCall] at ran
    split at ran
    · split at ran
      · cases ran
        exact ⟨⟨.inr ⟨i, new, rfl⟩, quiet, List.prefix_refl _⟩, rfl, rfl, rfl⟩
      · cases ran
        exact ⟨⟨.inl rfl, quiet, List.prefix_refl _⟩, rfl, rfl, rfl⟩
    · cases ran
      exact ⟨⟨.inr ⟨i, new, rfl⟩, quiet, List.prefix_refl _⟩, rfl, rfl, rfl⟩
  | evictCounted msg victim =>
    cases ran
    exact ⟨⟨.inl rfl, quiet, List.prefix_append _ _⟩, rfl, rfl, rfl⟩
  | returned => cases ran

theorem reported_append (before after : List Sent) :
    reported (before ++ after) = reported before + reported after := by
  induction before with
  | nil => simp [reported]
  | cons first rest ih =>
    cases first with
    | lagged dropped =>
      simp only [List.cons_append, reported, ih]
      omega
    | live call msg | other msg => simpa only [List.cons_append, reported] using ih

/-- A live frame among the writes is the last of them, or was there before. -/
theorem sink_split (told : s.Told) {w : Sent} {before : List Sent} {i : Nat} {after : List Sent}
    (eq : s.sink ++ [w] = before ++ .live i msg :: after) :
    (before = s.sink ∧ w = .live i msg) ∨ s.Covered i (reported before) := by
  obtain rfl | ⟨rest, last, rfl⟩ := List.eq_nil_or_concat' after
  · obtain ⟨same, isLive⟩ := List.append_inj' eq rfl
    exact .inl ⟨same.symm, List.singleton_inj.mp isLive⟩
  · have eq : s.sink ++ [w] = (before ++ .live i msg :: rest) ++ [last] := by
      simpa [List.append_assoc] using eq
    obtain ⟨same, _⟩ := List.append_inj' eq rfl
    exact .inr (told.sink before i msg rest same)

theorem sink_append (told : s.Told) {w : Sent} (notLive : ∀ i msg, w ≠ .live i msg)
    {before : List Sent} {i : Nat} {after : List Sent}
    (eq : s.sink ++ [w] = before ++ .live i msg :: after) : s.Covered i (reported before) := by
  obtain ⟨_, isLive⟩ | covered := sink_split told eq
  · exact absurd isLive (notLive i msg)
  · exact covered

/-! ## One step -/

theorem getElem?_offer {b : Call} (h : (s.calls ++ [.entered msg])[i]? = some b) :
    s.calls[i]? = some b ∨ b = .entered msg := by
  rw [List.getElem?_append] at h
  split at h
  · exact .inl h
  · rw [List.getElem?_singleton] at h
    split at h
    · cases h
      exact .inr rfl
    · cases h

theorem offer_valid (valid : s.Valid) :
    ({ s with calls := s.calls ++ [.entered msg] } : State).Valid := by
  obtain ⟨placed, ledger, told⟩ := valid
  have kept : ∀ (j : Nat) b, s.calls[j]? = some b →
      (s.calls ++ [.entered msg])[j]? = some b := by
    intro j b at_j
    rw [List.getElem?_append_left (List.getElem?_eq_some_iff.mp at_j).1, at_j]
  refine ⟨?_, ?_, ?_⟩
  · constructor
    · exact placed.aligned
    · exact placed.ordered
    · exact placed.nodup
    · exact fun e mem => kept e _ (placed.returned e mem)
    · intro j b at_j isReject
      obtain h | rfl := getElem?_offer at_j
      · exact placed.rejected j b h isReject
      · cases isReject
    · exact placed.placed
    · exact placed.delivered
    · exact placed.waiting
    · intro e mem
      obtain h | ⟨b, at_e, isReject⟩ := placed.gone e mem
      · exact .inl h
      · exact .inr ⟨b, kept e b at_e, isReject⟩
  · constructor
    · intro j b at_j isLocked
      obtain h | rfl := getElem?_offer at_j
      · exact ledger.locked j b h isLocked
      · cases isLocked
    · intro e mem
      obtain h | ⟨j, b, at_j, records⟩ := ledger.gone e mem
      · exact .inl h
      · exact .inr ⟨j, b, kept j b at_j, records⟩
    · exact ledger.pending
    · have total := ledger.dropped
      simpa [State.halfway, Call.halfway] using total
  · exact told_grow told ⟨.inl rfl, fun e mem => mem, List.prefix_refl _⟩ rfl rfl rfl

theorem pushControl_valid (valid : s.Valid) :
    ({ s with queue := s.queue.pushControl msg } : State).Valid := by
  obtain ⟨placed, ledger, told⟩ := valid
  have events : (s.queue.pushControl msg).events = s.queue.events := by
    simp [OutboundQueue.pushControl, OutboundQueue.events]
  refine ⟨?_, ?_, ?_⟩
  · exact placed.same (congrArg List.length events) rfl rfl rfl rfl rfl
  · exact ledger.same rfl rfl rfl rfl ledger.pending rfl
  · exact told_grow told ⟨.inl rfl, fun e mem => mem, List.prefix_refl _⟩ rfl rfl rfl

/-- With the lock free, every drop that took effect is counted. -/
theorem counted_of_free (placed : s.Placed) (ledger : s.Ledger) (free : s.holder = none) {e : Nat}
    (mem : e ∈ s.order) (dropped : e ∈ s.gone) : e ∈ s.lost := by
  obtain h | ⟨j, b, at_j, ⟨rfl, isReject⟩ | isVictim⟩ := ledger.gone e dropped
  · exact h
  · rw [placed.returned j mem] at at_j
    cases at_j
    cases isReject
  · have isLocked : b.locks = true := by
      cases b with
      | evicted msg victim | evictCounted msg victim => rfl
      | _ => cases isVictim
    have held := ledger.locked j b at_j isLocked
    rw [free] at held
    cases held

/-- When the first of the queue is popped, whatever came before it was popped or counted. -/
theorem covered_head (placed : s.Placed) (ledger : s.Ledger) (free : s.holder = none)
    {v : Nat} {rest : List Nat} (queued : s.queued = v :: rest) : s.Covered v s.lost.length := by
  have inside : v ∈ s.order := placed.ordered.subset (queued ▸ List.mem_cons_self)
  refine ⟨inside, ?_⟩
  intro e front
  have mem := front.mem.1
  obtain h | h | h := placed.placed e mem
  · -- Then the queue would hold `e` behind `v`, as it came in.
    rw [queued] at h
    obtain rfl | h := List.mem_cons.mp h
    · exact absurd front (before_asymm placed.nodup front)
    · have behind : Before s.queued v e := by
        rw [queued]
        exact .cons_cons _ (List.singleton_sublist.mpr h)
      exact absurd (behind.trans placed.ordered) (before_asymm placed.nodup front)
  · exact .inl h
  · rw [List.take_length]
    exact .inr (counted_of_free placed ledger free mem h)

theorem pop_valid (valid : s.Valid) (selecting : s.loop = .selecting) (free : s.holder = none)
    (hs : step textLen s .pop = some t) : t.Valid := by
  obtain ⟨placed, ledger, told⟩ := valid
  simp only [step] at hs
  rw [if_pos ⟨selecting, free⟩] at hs
  obtain ⟨⟨frame, queue⟩, popped, eq⟩ := Option.map_eq_some_iff.mp hs
  have owes := told.loop
  rw [selecting] at owes
  have aligned := placed.aligned
  unfold OutboundQueue.pop at popped
  split at popped
  · cases popped
  · rename_i rest inner
    cases popped
    cases isEvent : frame.isEvent with
    | false =>
      simp only [isEvent, Bool.false_eq_true, ↓reduceIte] at eq
      subst eq
      have events : rest.filter Frame.isEvent = s.queue.events := by
        simp [OutboundQueue.events, inner, isEvent]
      refine ⟨?_, ?_, ⟨⟨owes, by simp⟩, told.sink⟩⟩
      · exact placed.same (congrArg List.length events) rfl rfl rfl rfl rfl
      · exact ledger.same rfl rfl rfl rfl ledger.pending rfl
    | true =>
      simp only [isEvent, ↓reduceIte] at eq
      subst eq
      have events : s.queue.events = frame :: rest.filter Frame.isEvent := by
        simp [OutboundQueue.events, inner, isEvent]
      cases queued : s.queued with
      | nil =>
        rw [events, queued] at aligned
        cases aligned
      | cons v left =>
        have covered := covered_head placed ledger free queued
        rw [events, queued, List.length_cons, List.length_cons] at aligned
        have grows : ∀ u : State, u.order = s.order → u.delivered = s.delivered ++ [v] →
            u.lost = s.lost → s.Grows u := by
          intro u order delivered lost
          refine ⟨.inl order, ?_, lost ▸ List.prefix_refl _⟩
          intro e mem
          rw [delivered]
          exact List.mem_append_left _ mem
        refine ⟨?_, ?_, ?_, ?_⟩
        · apply placed_pop placed queued
          exact Nat.succ.inj aligned
        · exact ledger.same rfl rfl rfl rfl ledger.pending rfl
        · refine ⟨owes, ?_⟩
          intro i mem
          cases mem
          exact Covered.grow covered (grows _ rfl rfl rfl) (Nat.le_refl _)
        · intro before i msg after eq
          exact Covered.grow (told.sink before i msg after eq) (grows _ rfl rfl rfl) (Nat.le_refl _)

theorem take_valid (valid : s.Valid) (hs : step textLen s .take = some t) : t.Valid := by
  obtain ⟨placed, ledger, told⟩ := valid
  have owes := told.loop
  have pending := ledger.pending
  simp only [step] at hs
  split at hs
  · rename_i frame call popped
    rw [popped] at owes
    obtain ⟨same, covered⟩ := owes
    simp only [takePendingLag] at hs
    by_cases zero : s.queue.lagPending = 0
    · rw [if_pos zero] at hs
      cases hs
      refine ⟨?_, ?_, ⟨⟨same, ?_⟩, told.sink⟩⟩
      · exact placed.same rfl rfl rfl rfl rfl rfl
      · exact ledger.same rfl rfl rfl rfl (by simpa [zero] using pending) rfl
      · intro i mem
        have total : s.taken.sum = s.lost.length := by omega
        rw [total]
        exact covered i mem
    · rw [if_neg zero] at hs
      cases hs
      have total : (s.taken ++ [s.queue.lagPending]).sum = s.lost.length := by
        rw [List.sum_append, List.sum_singleton]
        omega
      refine ⟨?_, ?_, ⟨⟨?_, ?_⟩, told.sink⟩⟩
      · exact placed.same rfl rfl rfl rfl rfl rfl
      · exact ledger.same rfl rfl rfl rfl total.symm rfl
      · rw [total, same]
        exact pending.symm
      · intro i mem
        rw [total]
        exact covered i mem
  · cases hs

/-- Only the loop and its sink are touched. -/
theorem Valid.write (valid : s.Valid) {loop : Loop} {sink : List Sent}
    (told : ({ s with loop := loop, sink := sink } : State).Told) :
    ({ s with loop := loop, sink := sink } : State).Valid := by
  obtain ⟨placed, ledger, _⟩ := valid
  refine ⟨?_, ?_, told⟩
  · exact placed.same rfl rfl rfl rfl rfl rfl
  · exact ledger.same rfl rfl rfl rfl ledger.pending rfl

/-- A live frame is written when all drops before it are reported. -/
theorem sink_live (told : s.Told) {frame : Frame} {call : Option Nat}
    (covered : ∀ i ∈ call, s.Covered i (reported s.sink)) {before : List Sent} {i : Nat}
    {after : List Sent} (eq : s.sink ++ [sent frame call] = before ++ .live i msg :: after) :
    s.Covered i (reported before) := by
  obtain ⟨rfl, isLive⟩ | earlier := sink_split told eq
  · cases call with
    | none => cases isLive
    | some v =>
      cases isLive
      exact covered i rfl
  · exact earlier

theorem send_valid (valid : s.Valid) (hs : step textLen s .send = some t) : t.Valid := by
  have owes := valid.told.loop
  simp only [step] at hs
  split at hs
  · rename_i dropped frame call lagTaken
    cases hs
    rw [lagTaken] at owes
    obtain ⟨total, covered⟩ := owes
    apply Valid.write valid
    constructor
    · refine ⟨?_, covered⟩
      rw [reported_append]
      simpa [reported] using total
    · intro before i msg after eq
      exact sink_append valid.told (fun _ _ => by simp) eq
  · rename_i frame call writing
    cases hs
    rw [writing] at owes
    obtain ⟨total, covered⟩ := owes
    apply Valid.write valid
    constructor
    · have same : reported (s.sink ++ [sent frame call]) = s.taken.sum := by
        rw [reported_append, total]
        cases call with
        | none => simp [sent, reported]
        | some v => simp [sent, reported]
      dsimp only
      split
      · trivial
      · exact same
    · intro before i msg after eq
      rw [← total] at covered
      exact sink_live valid.told covered eq
  · cases hs

theorem step_valid {a : Action} (valid : s.Valid) (hs : step textLen s a = some t) : t.Valid := by
  have owes := valid.told.loop
  cases a with
  | offer msg =>
    cases hs
    exact offer_valid valid
  | run i =>
    obtain ⟨c, at_i, ran⟩ := Option.bind_eq_some_iff.mp hs
    obtain ⟨grows, loop, sink, taken⟩ := run_grows valid.placed at_i ran
    exact ⟨run_placed valid.placed at_i ran, run_ledger valid.ledger at_i ran,
      told_grow valid.told grows loop sink taken⟩
  | pushControl msg =>
    simp only [step] at hs
    split at hs
    · cases hs
      exact pushControl_valid valid
    · cases hs
  | pop =>
    by_cases enabled : s.loop = .selecting ∧ s.holder = none
    · exact pop_valid valid enabled.1 enabled.2 hs
    · simp only [step, if_neg enabled] at hs
      cases hs
  | take => exact take_valid valid hs
  | send => exact send_valid valid hs
  | sendFails =>
    simp only [step] at hs
    split at hs
    · cases hs
      exact Valid.write valid ⟨trivial, valid.told.sink⟩
    · cases hs
      exact Valid.write valid ⟨trivial, valid.told.sink⟩
    · cases hs
  | writeOther msg =>
    simp only [step] at hs
    split at hs
    · rename_i selecting
      cases hs
      rw [selecting] at owes
      apply Valid.write valid
      constructor
      · rw [selecting]
        exact (reported_append _ _).trans owes
      · intro before i msg after eq
        exact sink_append valid.told (fun _ _ => by simp) eq
    · cases hs
  | close msg =>
    simp only [step] at hs
    split at hs
    · cases hs
      apply Valid.write valid
      refine ⟨trivial, ?_⟩
      intro before i frame after eq
      cases msg with
      | none => exact valid.told.sink before i frame after (by simpa using eq)
      | some msg => exact sink_append valid.told (fun _ _ => by simp) eq
    · cases hs

theorem fresh_valid (maxEvents maxEventBytes : Nat) : (fresh maxEvents maxEventBytes).Valid := by
  refine ⟨?_, ?_, ?_⟩
  · exact ⟨rfl, .refl _, .nil, by simp [fresh], by simp [fresh], by simp [fresh], by simp [fresh],
      by simp [fresh], by simp [fresh]⟩
  · exact ⟨by simp [fresh], by simp [fresh], rfl, rfl⟩
  · exact ⟨rfl, by simp [fresh]⟩

/-- Whatever the interleaving, no event is written before the drops of earlier ones are
reported, and the counters agree but for the drops that are halfway through being recorded. -/
theorem drops_reported {maxEvents maxEventBytes : Nat}
    (run : Runs.Reaches (· = fresh maxEvents maxEventBytes) (step textLen) (fun _ _ => True) s) :
    s.DropsReported ∧ s.taken.sum + s.queue.lagPending + s.halfway = s.queue.dropped := by
  have valid : s.Valid := by
    apply run.invariant State.Valid
    · rintro _ rfl
      exact fresh_valid maxEvents maxEventBytes
    · intro s a t _ valid _ hs
      exact step_valid valid hs
  constructor
  · intro before i msg after eq e front gone
    obtain popped | counted := (valid.told.sink before i msg after eq).2 e front
    · exact absurd gone (valid.placed.delivered e popped).2.2
    · exact counted
  · rw [← valid.ledger.pending]
    exact valid.ledger.dropped

/-- The queue holds one event: the second evicts the first and is written after the
`lagged` frame. -/
theorem drops_reported_evicted : ∃ s : State,
    s.sink = [.lagged 1, .live 1 (.event ⟨2, 11, 0, "dev.a", ""⟩)] ∧ s.gone = [0] ∧ s.DropsReported ∧
      s.taken.sum + s.queue.lagPending + s.halfway = s.queue.dropped := by
  have run : ∃ s, Runs.exec (Runs.guarded (fun _ _ => True) (step fun _ => 1)) (fresh 1 8)
      ([.offer (.event ⟨1, 10, 0, "dev.a", ""⟩), .run 0, .run 0,
        .offer (.event ⟨2, 11, 0, "dev.a", ""⟩)] ++ List.replicate 5 (.run 1) ++
        [.pop, .take, .send, .send]) = some s ∧
      s.sink = [.lagged 1, .live 1 (.event ⟨2, 11, 0, "dev.a", ""⟩)] ∧ s.gone = [0] := ⟨_, rfl, rfl, rfl⟩
  obtain ⟨s, ran, sink, gone⟩ := run
  exact ⟨s, sink, gone, drops_reported (Runs.reaches_of_exec _ (.start rfl) ran)⟩

/-- A rejected event between the two increments: `dropped` counts it, `lag_pending` does not. -/
theorem counters_apart_while_recording : ∃ s : State,
    Runs.Reaches (· = fresh 4 8) (step fun _ => 9) (fun _ _ => True) s ∧
      s.taken.sum + s.queue.lagPending ≠ s.queue.dropped := by
  have run : ∃ s, Runs.exec (Runs.guarded (fun _ _ => True) (step fun _ => 9)) (fresh 4 8)
      [.offer (.event ⟨1, 10, 0, "dev.a", ""⟩), .run 0, .run 0] = some s ∧
      s.taken.sum + s.queue.lagPending ≠ s.queue.dropped := ⟨_, rfl, by decide⟩
  obtain ⟨s, ran, apart⟩ := run
  exact ⟨s, Runs.reaches_of_exec _ (.start rfl) ran, apart⟩

end Whdr.LagReport
