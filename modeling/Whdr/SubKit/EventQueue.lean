import Mathlib.Data.List.Induction
import Whdr.SubKit.Stream

/-! `EventQueue` of the TypeScript kit (subscriber.ts) with each promise of a `next` on its own:
the events go out in order in every run, but a promise is lost when another `next` has to wait
beside it. -/
namespace Whdr.EventQueue

variable {α ε : Type}

/-! ## The queue -/

/-- What a promise settles with. A reason to reject may be null. -/
inductive Outcome (α ε : Type)
  | event (e : α)
  | ended
  | failed (err : Option ε)
  deriving DecidableEq, Repr

/-- The fields of the class, where `slot` is the promise that `#resolve` and `#reject` belong
to, the number of `next` calls, which also names their promises, and what was settled. -/
structure Queue (α ε : Type) where
  items : List α
  slot : Option Nat
  done : Bool
  error : Option ε
  calls : Nat
  settled : List (Nat × Outcome α ε)
  deriving DecidableEq, Repr

inductive Action (α ε : Type)
  | push (e : α)
  | finish
  | fail (err : Option ε)
  | next
  deriving DecidableEq, Repr

namespace Queue

def new : Queue α ε := ⟨[], none, false, none, 0, []⟩

def settle (q : Queue α ε) (p : Nat) (o : Outcome α ε) : Queue α ε :=
  { q with settled := q.settled ++ [(p, o)] }

def push (q : Queue α ε) (e : α) : Queue α ε :=
  match q.slot with
  | some p => settle { q with slot := none } p (.event e)
  | none => { q with items := q.items ++ [e] }

def finish (q : Queue α ε) : Queue α ε :=
  match q.slot with
  | some p => settle { q with done := true, slot := none } p .ended
  | none => { q with done := true }

def fail (q : Queue α ε) (err : Option ε) : Queue α ε :=
  match q.slot with
  | some p => settle { q with error := err, slot := none } p (.failed err)
  | none => { q with error := err }

/-- A promise that has to wait takes the slot, whoever had it. -/
def next (q : Queue α ε) : Queue α ε :=
  let p := q.calls
  let q := { q with calls := p + 1 }
  match q.items with
  | e :: rest => settle { q with items := rest } p (.event e)
  | [] =>
    match q.error with
    | some err => q.settle p (.failed (some err))
    | none => if q.done then q.settle p .ended else { q with slot := some p }

def step (q : Queue α ε) : Action α ε → Queue α ε
  | .push e => q.push e
  | .finish => q.finish
  | .fail err => q.fail err
  | .next => q.next

def run (as : List (Action α ε)) : Queue α ε := as.foldl step new

end Queue

/-- The promises settled with an event, in the order they were settled in. -/
def given (settled : List (Nat × Outcome α ε)) : List (Nat × α) :=
  settled.filterMap fun
    | (p, .event e) => some (p, e)
    | _ => none

def pushes (as : List (Action α ε)) : List α :=
  as.filterMap fun
    | .push e => some e
    | _ => none

/-! ## A queue that forgets nobody -/

/-- As `Queue`, with all the waiting promises in the order of their calls: what should have
been settled is what this one settles. -/
structure Fair (α ε : Type) where
  items : List α
  waiting : List Nat
  done : Bool
  error : Option ε
  calls : Nat
  settled : List (Nat × Outcome α ε)

namespace Fair

def new : Fair α ε := ⟨[], [], false, none, 0, []⟩

def settle (f : Fair α ε) (ps : List Nat) (o : Outcome α ε) : Fair α ε :=
  { f with settled := f.settled ++ ps.map (·, o) }

/-- An event settles the promise that waits longest, an end or an error all of them. -/
def step (f : Fair α ε) : Action α ε → Fair α ε
  | .push e =>
    match f.waiting with
    | p :: more => settle { f with waiting := more } [p] (.event e)
    | [] => { f with items := f.items ++ [e] }
  | .finish => settle { f with done := true, waiting := [] } f.waiting .ended
  | .fail err => settle { f with error := err, waiting := [] } f.waiting (.failed err)
  | .next =>
    let p := f.calls
    let f := { f with calls := p + 1 }
    match f.items with
    | e :: rest => settle { f with items := rest } [p] (.event e)
    | [] =>
      match f.error with
      | some err => f.settle [p] (.failed (some err))
      | none => if f.done then f.settle [p] .ended else { f with waiting := f.waiting ++ [p] }

def run (as : List (Action α ε)) : Fair α ε := as.foldl step new

end Fair

/-! ## Events in order, in every run -/

theorem mem_given {settled : List (Nat × Outcome α ε)} {g : Nat × α} (mem : g ∈ given settled) :
    (g.1, .event g.2) ∈ settled := by
  obtain ⟨⟨p, o⟩, inside, eq⟩ := List.mem_filterMap.mp mem
  cases o with
  | event e =>
    cases eq
    exact inside
  | ended | failed => cases eq

theorem given_event (settled : List (Nat × Outcome α ε)) (p : Nat) (e : α) :
    given (settled ++ [(p, .event e)]) = given settled ++ [(p, e)] := by
  simp [given]

/-- An end or an error gives no event. -/
theorem given_ends (settled : List (Nat × Outcome α ε)) (p : Nat) {o : Outcome α ε}
    (ends : ∀ e, o ≠ .event e) : given (settled ++ [(p, o)]) = given settled := by
  cases o with
  | event e => exact absurd rfl (ends e)
  | ended | failed => simp [given]

/-- The settled promises are those of earlier calls than `n`, and the events went to them in
the order of the calls. -/
structure Ordered (n : Nat) (settled : List (Nat × Outcome α ε)) : Prop where
  order : (given settled).Pairwise (·.1 < ·.1)
  older : ∀ s ∈ settled, s.1 < n

theorem Ordered.mono {n m : Nat} {settled : List (Nat × Outcome α ε)} (h : Ordered n settled)
    (le : n ≤ m) : Ordered m settled :=
  ⟨h.order, fun s mem => Nat.lt_of_lt_of_le (h.older s mem) le⟩

theorem Ordered.settle {p : Nat} {settled : List (Nat × Outcome α ε)} (h : Ordered p settled)
    (o : Outcome α ε) : Ordered (p + 1) (settled ++ [(p, o)]) where
  order := by
    cases o with
    | event e =>
      rw [given_event, List.pairwise_append]
      refine ⟨h.order, List.pairwise_singleton _ _, fun g mem b last => ?_⟩
      rw [List.mem_singleton.mp last]
      exact h.older _ (mem_given mem)
    | ended | failed =>
      rw [given_ends settled p (by simp)]
      exact h.order
  older s mem := by
    rcases List.mem_append.mp mem with old | new
    · exact Nat.lt_succ_of_lt (h.older s old)
    · rw [List.mem_singleton.mp new]
      exact Nat.lt_succ_self p

namespace Queue

/-- The promise in the slot came after all that are settled, and nothing could settle it. -/
structure Waits (q : Queue α ε) (p : Nat) : Prop where
  call : p < q.calls
  last : Ordered p q.settled
  empty : q.items = []
  open_ : q.done = false
  fine : q.error = none

/-- What holds in every state: the events given and those in the buffer are those pushed. -/
structure Inv (pushed : List α) (q : Queue α ε) : Prop where
  events : (given q.settled).map Prod.snd ++ q.items = pushed
  ordered : Ordered q.calls q.settled
  waits : ∀ p ∈ q.slot, q.Waits p

theorem push_inv {pushed : List α} {q : Queue α ε} (inv : Inv pushed q) (e : α) :
    Inv (pushed ++ [e]) (q.push e) := by
  obtain ⟨items, slot, done, error, calls, settled⟩ := q
  cases slot with
  | some p =>
    obtain ⟨call, last, rfl, -, -⟩ := inv.waits p rfl
    refine ⟨?_, (last.settle _).mono call, by simp [push, settle]⟩
    simpa [push, settle, given_event] using inv.events
  | none =>
    refine ⟨?_, inv.ordered, by simp [push]⟩
    have events := inv.events
    simp only [push] at events ⊢
    rw [← List.append_assoc, events]

/-- The promise in the slot is settled with the end or an error. -/
theorem settle_inv {pushed : List α} {q : Queue α ε} (inv : Inv pushed q) {p : Nat}
    (waits : q.slot = some p) (done : Bool) (error : Option ε) {o : Outcome α ε}
    (ends : ∀ e, o ≠ .event e) :
    Inv pushed (settle { q with done := done, error := error, slot := none } p o) where
  events := by
    simp only [settle, given_ends q.settled p ends]
    exact inv.events
  ordered := ((inv.waits p waits).last.settle o).mono (inv.waits p waits).call
  waits := by simp [settle]

theorem finish_inv {pushed : List α} {q : Queue α ε} (inv : Inv pushed q) :
    Inv pushed q.finish := by
  unfold finish
  split
  · rename_i p slot
    exact settle_inv inv slot true q.error (by simp)
  · rename_i slot
    exact ⟨inv.events, inv.ordered, by simp [slot]⟩

theorem fail_inv {pushed : List α} {q : Queue α ε} (inv : Inv pushed q) (err : Option ε) :
    Inv pushed (q.fail err) := by
  unfold fail
  split
  · rename_i p slot
    exact settle_inv inv slot q.done err (by simp)
  · rename_i slot
    exact ⟨inv.events, inv.ordered, by simp [slot]⟩

/-- What `next` does: it settles its promise, with nobody waiting, or takes the slot. -/
theorem next_cases {pushed : List α} {q : Queue α ε} (inv : Inv pushed q) :
    (∃ e rest, q.items = e :: rest ∧ q.slot = none ∧
      q.next = { q with items := rest, calls := q.calls + 1,
                        settled := q.settled ++ [(q.calls, .event e)] }) ∨
    (∃ o, (∀ e, o ≠ .event e) ∧ q.items = [] ∧ q.slot = none ∧
      q.next = { q with calls := q.calls + 1, settled := q.settled ++ [(q.calls, o)] }) ∨
    (q.items = [] ∧ q.done = false ∧ q.error = none ∧
      q.next = { q with calls := q.calls + 1, slot := some q.calls }) := by
  have free (busy : q.items ≠ [] ∨ q.done = true ∨ q.error ≠ none) : q.slot = none := by
    cases slot : q.slot with
    | none => rfl
    | some p =>
      obtain ⟨-, -, empty, open_, fine⟩ := inv.waits p slot
      simp [empty, open_, fine] at busy
  unfold next
  dsimp only
  split
  · rename_i e rest items
    exact .inl ⟨e, rest, items, free (by simp [items]), rfl⟩
  · rename_i items
    right
    split
    · rename_i err error
      exact .inl ⟨.failed (some err), by simp, items, free (by simp [error]), rfl⟩
    · rename_i error
      split
      · rename_i done
        exact .inl ⟨.ended, by simp, items, free (by simp [done]), rfl⟩
      · rename_i open_
        exact .inr ⟨items, by simpa using open_, error, rfl⟩

theorem next_inv {pushed : List α} {q : Queue α ε} (inv : Inv pushed q) : Inv pushed q.next := by
  have events := inv.events
  obtain ⟨e, rest, items, slot, next⟩ | ⟨o, ends, items, slot, next⟩ | ⟨items, open_, fine, next⟩ :=
    next_cases inv
  · rw [items] at events
    rw [next]
    refine ⟨?_, inv.ordered.settle _, by simp [slot]⟩
    simpa [given_event] using events
  · rw [next]
    refine ⟨?_, inv.ordered.settle _, by simp [slot]⟩
    rwa [given_ends q.settled q.calls ends]
  · rw [next]
    refine ⟨events, inv.ordered.mono (Nat.le_succ _), ?_⟩
    rintro p ⟨⟩
    exact ⟨Nat.lt_succ_self _, inv.ordered, items, open_, fine⟩

theorem run_snoc (as : List (Action α ε)) (a : Action α ε) : run (as ++ [a]) = (run as).step a := by
  simp [run]

theorem run_inv (as : List (Action α ε)) : Inv (pushes as) (run as) := by
  induction as using List.reverseRecOn with
  | nil => exact ⟨rfl, ⟨List.Pairwise.nil, by simp [run, new]⟩, by simp [run, new]⟩
  | append_singleton as a ih =>
    rw [run_snoc, pushes, List.filterMap_append]
    cases a with
    | push e => exact push_inv ih e
    | finish =>
      rw [List.filterMap_cons_none rfl, List.filterMap_nil, List.append_nil]
      exact finish_inv ih
    | fail err =>
      rw [List.filterMap_cons_none rfl, List.filterMap_nil, List.append_nil]
      exact fail_inv ih err
    | next =>
      rw [List.filterMap_cons_none rfl, List.filterMap_nil, List.append_nil]
      exact next_inv ih

/-- A step that reports the end or an error finds no event in the buffer. -/
theorem ends_empty {pushed : List α} {q : Queue α ε} (inv : Inv pushed q) {a : Action α ε} {p : Nat}
    {o : Outcome α ε} (reported : (q.step a).settled = q.settled ++ [(p, o)])
    (ends : ∀ e, o ≠ .event e) : q.items = [] := by
  cases a with
  | push e =>
    cases slot : q.slot with
    | some w =>
      obtain ⟨rfl, rfl⟩ : w = p ∧ .event e = o := by simpa [step, push, settle, slot] using reported
      exact absurd rfl (ends e)
    | none => simp [step, push, slot] at reported
  | finish =>
    cases slot : q.slot with
    | some w => exact (inv.waits w slot).empty
    | none => simp [step, finish, slot] at reported
  | fail err =>
    cases slot : q.slot with
    | some w => exact (inv.waits w slot).empty
    | none => simp [step, fail, slot] at reported
  | next =>
    obtain ⟨e, rest, items, slot, next⟩ | ⟨o, -, items, -⟩ | ⟨items, -⟩ := next_cases inv
    · obtain ⟨-, rfl⟩ : q.calls = p ∧ .event e = o := by simpa [step, next] using reported
      exact absurd rfl (ends e)
    · exact items
    · exact items

/-! ## Waiters -/

/-- No `next` is called while another promise waits. -/
def Alone (as : List (Action α ε)) : Prop :=
  ∀ before after, as = before ++ .next :: after → (run before).slot = none

/-- The state of the fair queue with the promise in the slot as its only waiter. -/
def toFair (q : Queue α ε) : Fair α ε :=
  ⟨q.items, q.slot.toList, q.done, q.error, q.calls, q.settled⟩

theorem step_toFair {q : Queue α ε} {a : Action α ε} (alone : a = .next → q.slot = none) :
    q.toFair.step a = (q.step a).toFair := by
  obtain ⟨items, slot, done, error, calls, settled⟩ := q
  cases a with
  | push | finish | fail =>
    cases slot <;> simp [toFair, step, push, finish, fail, settle, Fair.step, Fair.settle]
  | next =>
    obtain rfl : slot = none := alone rfl
    cases items with
    | cons e rest => rfl
    | nil =>
      cases error with
      | some err => rfl
      | none => cases done <;> rfl

theorem fair_snoc (as : List (Action α ε)) (a : Action α ε) :
    Fair.run (as ++ [a]) = (Fair.run as).step a := by
  simp [Fair.run]

/-- As long as promises wait alone, the queue is the fair one. -/
theorem run_toFair {as : List (Action α ε)} (alone : Alone as) :
    Fair.run as = (run as).toFair := by
  induction as using List.reverseRecOn with
  | nil => rfl
  | append_singleton as a ih =>
    have before : Alone as := fun front after cut => alone front (after ++ [a]) (by simp [cut])
    rw [run_snoc, fair_snoc, ih before]
    exact step_toFair fun isNext => alone as [] (by rw [isNext])

/-- A promise that nothing will ever settle. -/
structure Lost (p : Nat) (q : Queue α ε) : Prop where
  call : p < q.calls
  unsettled : ∀ s ∈ q.settled, s.1 ≠ p
  slot : q.slot ≠ some p

/-- A step settles the promise in the slot or the one it makes. -/
theorem Lost.settle {p w : Nat} {q : Queue α ε} (lost : Lost p q) (other : w ≠ p)
    (o : Outcome α ε) : Lost p (q.settle w o) where
  call := lost.call
  unsettled s mem := by
    rcases List.mem_append.mp mem with old | new
    · exact lost.unsettled s old
    · rw [List.mem_singleton.mp new]
      exact other
  slot := lost.slot

theorem step_lost {p : Nat} {q : Queue α ε} (lost : Lost p q) (a : Action α ε) :
    Lost p (q.step a) := by
  have freed {w : Nat} (slot : q.slot = some w) (done : Bool) (error : Option ε)
      (o : Outcome α ε) :
      Lost p (settle { q with done := done, error := error, slot := none } w o) := by
    have other : w ≠ p := fun eq => lost.slot (eq ▸ slot)
    have free : Lost p { q with done := done, error := error, slot := none } :=
      ⟨lost.call, lost.unsettled, by simp⟩
    exact free.settle other o
  cases a with
  | push e =>
    simp only [step, push]
    split
    · rename_i w slot
      exact freed slot q.done q.error _
    · exact ⟨lost.call, lost.unsettled, lost.slot⟩
  | finish =>
    simp only [step, finish]
    split
    · rename_i w slot
      exact freed slot true q.error _
    · exact ⟨lost.call, lost.unsettled, lost.slot⟩
  | fail err =>
    simp only [step, fail]
    split
    · rename_i w slot
      exact freed slot q.done err _
    · exact ⟨lost.call, lost.unsettled, lost.slot⟩
  | next =>
    have isNew : q.calls ≠ p := Nat.ne_of_gt lost.call
    have called (items : List α) : Lost p { q with items := items, calls := q.calls + 1 } :=
      ⟨Nat.lt_succ_of_lt lost.call, lost.unsettled, lost.slot⟩
    simp only [step, next]
    split
    · rename_i rest _
      exact (called rest).settle isNew _
    · split
      · exact (called q.items).settle isNew _
      · split
        · exact (called q.items).settle isNew _
        · exact ⟨(called q.items).call, lost.unsettled, by simpa using isNew⟩

theorem run_lost {p : Nat} {before : List (Action α ε)} (lost : Lost p (run before))
    (after : List (Action α ε)) : Lost p (run (before ++ after)) := by
  induction after using List.reverseRecOn with
  | nil => simpa using lost
  | append_singleton after a ih =>
    rw [← List.append_assoc, run_snoc]
    exact step_lost ih a

/-- A second promise that has to wait takes the slot from the first. -/
theorem next_lost {pushed : List α} {q : Queue α ε} (inv : Inv pushed q) {p : Nat}
    (waits : q.slot = some p) : Lost p q.next := by
  obtain ⟨call, last, empty, open_, fine⟩ := inv.waits p waits
  obtain ⟨e, rest, -, free, -⟩ | ⟨o, -, -, free, -⟩ | ⟨-, -, -, next⟩ := next_cases inv
  · rw [waits] at free
    cases free
  · rw [waits] at free
    cases free
  · rw [next]
    refine ⟨Nat.lt_succ_of_lt call, fun s mem => Nat.ne_of_lt (last.older s mem), ?_⟩
    simpa using Nat.ne_of_gt call

/-! ## The fair queue -/

theorem step_calls (q : Queue α ε) (a : Action α ε) :
    (q.step a).calls = if a matches .next then q.calls + 1 else q.calls := by
  cases a with
  | push | finish | fail =>
    simp only [step, push, finish, fail, settle]
    split <;> rfl
  | next =>
    simp only [step, next]
    split
    · rfl
    · split
      · rfl
      · split <;> rfl

theorem fair_step_calls (f : Fair α ε) (a : Action α ε) :
    (f.step a).calls = if a matches .next then f.calls + 1 else f.calls := by
  cases a with
  | push =>
    simp only [Fair.step, Fair.settle]
    split <;> rfl
  | finish | fail => rfl
  | next =>
    simp only [Fair.step]
    split
    · rfl
    · split
      · rfl
      · split <;> rfl

theorem fair_calls (as : List (Action α ε)) : (Fair.run as).calls = (run as).calls := by
  induction as using List.reverseRecOn with
  | nil => rfl
  | append_singleton as a ih => rw [fair_snoc, run_snoc, fair_step_calls, step_calls, ih]

/-- Every call waits or is settled. -/
def Served (f : Fair α ε) : Prop := ∀ p < f.calls, p ∈ f.waiting ∨ ∃ o, (p, o) ∈ f.settled

theorem served_settle {f : Fair α ε} {ps : List Nat}
    (served : ∀ p < f.calls, p ∈ f.waiting ∨ p ∈ ps ∨ ∃ o, (p, o) ∈ f.settled)
    (o : Outcome α ε) : Served (f.settle ps o) := by
  intro p call
  obtain waits | now | ⟨o', old⟩ := served p call
  · exact .inl waits
  · exact .inr ⟨o, List.mem_append_right _ (List.mem_map_of_mem now)⟩
  · exact .inr ⟨o', List.mem_append_left _ old⟩

theorem step_served {f : Fair α ε} (served : Served f) (a : Action α ε) : Served (f.step a) := by
  have all (p : Nat) (call : p < f.calls) : p ∈ [] ∨ p ∈ f.waiting ∨ ∃ o, (p, o) ∈ f.settled :=
    .inr (served p call)
  -- the promise of a new call, and those before it
  have called (p : Nat) (call : p < f.calls + 1) :
      p ∈ f.waiting ∨ p ∈ [f.calls] ∨ ∃ o, (p, o) ∈ f.settled := by
    rcases Nat.lt_succ_iff_lt_or_eq.mp call with old | rfl
    · exact (served p old).imp_right .inr
    · exact .inr (.inl (List.mem_singleton_self _))
  cases a with
  | push e =>
    simp only [Fair.step]
    split
    · rename_i w more waiting
      refine served_settle (fun p call => ?_) _
      rcases served p call with waits | old
      · rw [waiting, List.mem_cons] at waits
        exact waits.elim (fun first => .inr (.inl (List.mem_singleton.mpr first))) .inl
      · exact .inr (.inr old)
    · exact served
  | finish => exact served_settle all _
  | fail err => exact served_settle all _
  | next =>
    simp only [Fair.step]
    split
    · exact served_settle called _
    · split
      · exact served_settle called _
      · split
        · exact served_settle called _
        · intro p call
          rw [List.mem_append, or_assoc]
          exact called p call

theorem run_served (as : List (Action α ε)) : Served (Fair.run as) := by
  induction as using List.reverseRecOn with
  | nil => exact fun p call => absurd call (Nat.not_lt_zero p)
  | append_singleton as a ih =>
    rw [fair_snoc]
    exact step_served ih a

/-- After `finish` the fair queue has settled every call. -/
theorem finish_served (as : List (Action α ε)) {p : Nat} (call : p < (run as).calls) :
    ∃ o, (p, o) ∈ (Fair.run (as ++ [.finish])).settled := by
  have served := run_served (as ++ [.finish]) p
  rw [fair_snoc, fair_step_calls, fair_calls] at served
  rw [fair_snoc]
  exact (served call).resolve_left (by simp [Fair.step, Fair.settle])

/-! ## What the queue keeps -/

/-- No promise that should have been settled is left. -/
def Settles (as : List (Action α ε)) : Prop :=
  ∀ p o, (p, o) ∈ (Fair.run as).settled → ∃ o', (p, o') ∈ (run as).settled

/-- In every run the promises that are given an event are given the pushed ones in order, and
an end or an error is reported only when all of them are out. No promise is left over while
none is made to wait beside another; and once one has been, a `finish` leaves one over. -/
theorem queue_keeps (as : List (Action α ε)) :
    (given (run as).settled).Pairwise (·.1 < ·.1) ∧
    (given (run as).settled).map Prod.snd <+: pushes as ∧
    (∀ a p o, (run (as ++ [a])).settled = (run as).settled ++ [(p, o)] → (∀ e, o ≠ .event e) →
      (given (run as).settled).map Prod.snd = pushes as) ∧
    (Alone as → Settles as) ∧
    (¬Alone as → ¬Settles (as ++ [.finish])) := by
  have inv := run_inv as
  refine ⟨inv.ordered.order, ⟨(run as).items, inv.events⟩, fun a p o reported ends => ?_,
    fun alone p o due => ?_, fun shared settles => ?_⟩
  · rw [run_snoc] at reported
    have events := inv.events
    rwa [ends_empty inv reported ends, List.append_nil] at events
  · rw [run_toFair alone] at due
    exact ⟨o, due⟩
  · simp only [Alone, not_forall] at shared
    obtain ⟨before, after, cut, taken⟩ := shared
    obtain ⟨p, waits⟩ := Option.ne_none_iff_exists'.mp taken
    have lost : Lost p (run (before ++ [.next])) := by
      rw [run_snoc]
      exact next_lost (run_inv before) waits
    have still : Lost p (run as) := by
      have later := run_lost lost after
      rwa [List.append_assoc, List.singleton_append, ← cut] at later
    obtain ⟨o, due⟩ := finish_served as still.call
    obtain ⟨o', got⟩ := settles p o due
    exact (run_lost still [.finish]).unsettled _ got rfl

/-- One `next`, and the event it waits for. -/
theorem queue_keeps_waiter : Settles ([.next, .push 7] : List (Action Nat Unit)) := by
  refine (queue_keeps _).2.2.2.1 fun before after cut => ?_
  cases before with
  | nil => rfl
  | cons a rest =>
    cases rest with
    | nil => simp at cut
    | cons b rest => simp at cut

/-- Two calls of `next` and an event: the event goes to the second, and the first waits on. -/
theorem first_waiter_lost : ¬Settles ([.next, .next, .push 7] : List (Action Nat Unit)) := by
  intro settles
  obtain ⟨o, got⟩ := settles 0 (.event 7) (by decide)
  have settled : (run ([.next, .next, .push 7] : List (Action Nat Unit))).settled =
      [(1, .event 7)] := by decide
  rw [settled] at got
  cases List.mem_singleton.mp got

/-! ## The queue beside the run loop -/

/-- Without the promises' names, and with a reason that is not null. -/
def toStream (q : Queue StampedEvent ε) : Stream.EventQueue :=
  ⟨q.items, q.slot.isSome, q.done, q.error.isSome⟩

theorem push_toStream (q : Queue StampedEvent ε) (e : StampedEvent) :
    (q.push e).toStream = (q.toStream.push e).2 ∧
      (given (q.push e).settled).map Prod.snd =
        (given q.settled).map Prod.snd ++ (q.toStream.push e).1 := by
  obtain ⟨items, slot, done, error, calls, settled⟩ := q
  cases slot <;> simp [push, settle, toStream, Stream.EventQueue.push, given_event]

theorem finish_toStream (q : Queue StampedEvent ε) : q.finish.toStream = q.toStream.finish := by
  obtain ⟨items, slot, done, error, calls, settled⟩ := q
  cases slot <;> rfl

theorem fail_toStream (q : Queue StampedEvent ε) (err : ε) :
    (q.fail (some err)).toStream = q.toStream.fail := by
  obtain ⟨items, slot, done, error, calls, settled⟩ := q
  cases slot <;> rfl

theorem next_toStream (q : Queue StampedEvent ε) :
    q.next.toStream = q.toStream.next.2 ∧
      (given q.next.settled).map Prod.snd =
        (given q.settled).map Prod.snd ++ q.toStream.next.1 := by
  obtain ⟨items, slot, done, error, calls, settled⟩ := q
  cases items with
  | cons e rest => simp [next, settle, toStream, Stream.EventQueue.next, given_event]
  | nil =>
    cases error with
    | some err => simp [next, settle, toStream, Stream.EventQueue.next, given_ends]
    | none =>
      cases done <;> simp [next, settle, toStream, Stream.EventQueue.next, given_ends]

end Queue

end Whdr.EventQueue
