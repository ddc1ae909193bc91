import Mathlib.Data.Fintype.Defs
import Mathlib.Data.List.Nodup
import Whdr.Lib.Runs

/-! Tasks on fair reader-writer locks. A lock is the queue of the requests made for it and
not given back, oldest first; a request is granted once it conflicts with none before it.
A task may ask for several locks before it waits for them. -/
namespace FairLocks

inductive Mode
  | read
  | write
  deriving DecidableEq, Repr

structure Request where
  task : Nat
  mode : Mode
  deriving DecidableEq, Repr

/-! ## Order in a queue -/

section
variable {α : Type*} {l : List α} {u v x : α}

/-- `u` stands in front of `v`. -/
def Before (l : List α) (u v : α) : Prop := [u, v].Sublist l

instance [DecidableEq α] (l : List α) (u v : α) : Decidable (Before l u v) :=
  inferInstanceAs (Decidable (List.Sublist _ _))

theorem Before.mem (h : Before l u v) : u ∈ l ∧ v ∈ l :=
  ⟨List.Sublist.subset h (by simp), List.Sublist.subset h (by simp)⟩

theorem before_cons (h : Before (x :: l) u v) : Before l u v ∨ (u = x ∧ v ∈ l) := by
  cases h with
  | cons _ rest => exact .inl rest
  | cons_cons _ rest => exact .inr ⟨rfl, rest.mem (by simp)⟩

/-- Whoever comes last stands in front of nobody. -/
theorem before_concat (h : Before (l ++ [x]) u v) : Before l u v ∨ (u ∈ l ∧ v = x) := by
  induction l with
  | nil =>
    have := h.length_le
    simp at this
  | cons y rest ih =>
    obtain h | ⟨rfl, mem⟩ := before_cons h
    · obtain h | ⟨mem, eq⟩ := ih h
      · exact .inl (.cons y h)
      · exact .inr ⟨List.mem_cons_of_mem _ mem, eq⟩
    · obtain mem | mem := List.mem_append.mp mem
      · exact .inl (.cons_cons _ (List.singleton_sublist.mpr mem))
      · exact .inr ⟨List.mem_cons_self, List.mem_singleton.mp mem⟩

theorem before_last (mem : u ∈ l) : Before (l ++ [x]) u x := by
  have one : [u].Sublist l := List.singleton_sublist.mpr mem
  exact one.append (List.Sublist.refl [x])

theorem before_total (hu : u ∈ l) (hv : v ∈ l) (ne : u ≠ v) : Before l u v ∨ Before l v u := by
  induction l with
  | nil => cases hu
  | cons x rest ih =>
    obtain rfl | inU := List.mem_cons.mp hu
    · obtain eq | inV := List.mem_cons.mp hv
      · exact absurd eq.symm ne
      · exact .inl (.cons_cons _ (List.singleton_sublist.mpr inV))
    · obtain rfl | inV := List.mem_cons.mp hv
      · exact .inr (.cons_cons _ (List.singleton_sublist.mpr inU))
      · obtain h | h := ih inU inV
        · exact .inl (.cons x h)
        · exact .inr (.cons x h)

theorem before_asymm (nodup : l.Nodup) (h : Before l u v) : ¬ Before l v u := by
  induction l with
  | nil =>
    cases h
  | cons x rest ih =>
    obtain ⟨fresh, nodup⟩ := List.nodup_cons.mp nodup
    intro back
    obtain inner | ⟨rfl, hv⟩ := before_cons h
    · obtain back | ⟨rfl, _⟩ := before_cons back
      · exact ih nodup inner back
      · exact fresh inner.mem.2
    · obtain back | ⟨_, here⟩ := before_cons back
      · exact fresh back.mem.2
      · exact fresh here

/-- Of the members that `D` has in the queue, one stands in front of all others. -/
theorem exists_first (D : α → Prop) (nodup : l.Nodup) (mem : u ∈ l) (hu : D u) :
    ∃ v, D v ∧ v ∈ l ∧ (v = u ∨ Before l v u) ∧ ∀ w, D w → ¬ Before l w v := by
  induction l with
  | nil => cases mem
  | cons x rest ih =>
    obtain ⟨fresh, nodup⟩ := List.nodup_cons.mp nodup
    by_cases hx : D x
    · refine ⟨x, hx, List.mem_cons_self, ?_, ?_⟩
      · obtain rfl | mem := List.mem_cons.mp mem
        · exact .inl rfl
        · exact .inr (.cons_cons _ (List.singleton_sublist.mpr mem))
      · intro w _ h
        obtain h | ⟨_, mem⟩ := before_cons h
        · exact fresh h.mem.2
        · exact fresh mem
    · obtain rfl | mem := List.mem_cons.mp mem
      · exact absurd hu hx
      · obtain ⟨v, hv, inside, place, first⟩ := ih nodup mem
        refine ⟨v, hv, List.mem_cons_of_mem _ inside, ?_, ?_⟩
        · obtain eq | place := place
          · exact .inl eq
          · exact .inr (.cons x place)
        · intro w hw h
          obtain h | ⟨rfl, _⟩ := before_cons h
          · exact first w hw h
          · exact hx hw

end

/-! ## Grants -/

/-- Only reads up to and including the request of `t`. -/
def grantedReader : List Request → Nat → Bool
  | [], _ => false
  | r :: rest, t => r.mode == .read && (r.task == t || grantedReader rest t)

/-- The request of `t` conflicts with none before it. -/
def granted : List Request → Nat → Bool
  | [], _ => false
  | r :: rest, t => r.task == t || (r.mode == .read && grantedReader rest t)

def waiters (q : List Request) : List Nat := q.map Request.task

section
variable {q : List Request} {t u : Nat}

theorem grantedReader_reads (nodup : (waiters q).Nodup) (h : grantedReader q t = true)
    {r : Request} (mem : r ∈ q) (place : r.task = t ∨ Before (waiters q) r.task t) :
    r.mode = .read := by
  induction q with
  | nil => cases mem
  | cons x rest ih =>
    simp only [grantedReader, Bool.and_eq_true, Bool.or_eq_true, beq_iff_eq] at h
    obtain ⟨fresh, nodup⟩ := List.nodup_cons.mp nodup
    obtain rfl | mem := List.mem_cons.mp mem
    · exact h.1
    · have here : r.task ∈ waiters rest := List.mem_map_of_mem mem
      obtain eq | h := h.2
      · -- `t` is the first: the request behind it is neither its own nor before it.
        exfalso
        obtain place | place := place
        · exact fresh (by rw [eq, ← place]; exact here)
        · obtain place | ⟨same, _⟩ := before_cons place
          · exact fresh (by rw [eq]; exact place.mem.2)
          · exact fresh (same ▸ here)
      · apply ih nodup h mem
        obtain place | place := place
        · exact .inl place
        · obtain place | ⟨same, _⟩ := before_cons place
          · exact .inr place
          · exact absurd (same ▸ here) fresh

/-- A granted request with one before it is a read, and so is the one before it. -/
theorem granted_reads (nodup : (waiters q).Nodup) (h : granted q t = true)
    (place : Before (waiters q) u t) {r : Request} (mem : r ∈ q)
    (isOne : r.task = t ∨ r.task = u) : r.mode = .read := by
  cases q with
  | nil => cases mem
  | cons x rest =>
    simp only [granted, Bool.and_eq_true, Bool.or_eq_true, beq_iff_eq] at h
    obtain ⟨fresh, nodup'⟩ := List.nodup_cons.mp nodup
    have behind : t ∈ waiters rest := by
      obtain place | ⟨_, mem⟩ := before_cons place
      · exact place.mem.2
      · exact mem
    obtain eq | ⟨read, h⟩ := h
    · exact absurd (eq ▸ behind) fresh
    · obtain rfl | mem := List.mem_cons.mp mem
      · exact read
      · apply grantedReader_reads nodup' h mem
        obtain own | other := isOne
        · exact .inl own
        · obtain place | ⟨same, _⟩ := before_cons place
          · exact .inr (other ▸ place)
          · have here : r.task ∈ waiters rest := List.mem_map_of_mem mem
            exact absurd (same ▸ other ▸ here) fresh

/-- Nobody stands before a granted write. -/
theorem granted_write_first (nodup : (waiters q).Nodup) (h : granted q t = true)
    (mem : ⟨t, .write⟩ ∈ q) : ¬ Before (waiters q) u t := by
  intro place
  have read := granted_reads nodup h place mem (.inl rfl)
  cases read

theorem mem_waiters : t ∈ waiters q ↔ ∃ m, ⟨t, m⟩ ∈ q := by
  simp only [waiters, List.mem_map]
  constructor
  · rintro ⟨⟨_, m⟩, mem, rfl⟩
    exact ⟨m, mem⟩
  · rintro ⟨m, mem⟩
    exact ⟨⟨t, m⟩, mem, rfl⟩

theorem waiters_leave (t : Nat) :
    waiters (q.filter fun r => r.task ≠ t) = (waiters q).filter fun u => u ≠ t := by
  simp only [waiters, List.filter_map]
  rfl

theorem before_leave {v : Nat} (hu : u ≠ t) (hv : v ≠ t) (h : Before (waiters q) u v) :
    Before ((waiters q).filter fun w => w ≠ t) u v := by
  have kept := List.Sublist.filter (fun w => decide (w ≠ t)) h
  simpa [Before, hu, hv] using kept

end

/-! ## Tasks -/

/-- A task may go on asking; at an `await` it stops until all of `ls` are granted. -/
inductive Instr (L : Type)
  | ask (l : L) (m : Mode)
  | await (ls : List L)
  | release (l : L) (m : Mode)
  deriving DecidableEq, Repr

/-- `now`: the rest of the section under way. -/
structure Task (L S : Type) where
  now : List (Instr L)
  later : List S

structure State (L S : Type) where
  queue : L → List Request
  tasks : List (Task L S)

inductive Action (P : Type)
  | spawn (program : P)
  | run (t : Nat)
  deriving DecidableEq, Repr

variable {L S P : Type} [DecidableEq L]

namespace State

def new : State L S := ⟨fun _ => [], []⟩

def now (s : State L S) (t : Nat) : List (Instr L) := (s.tasks[t]?.map Task.now).getD []

/-- Who holds the lock or waits for it, in the order of the requests. -/
def line (s : State L S) (l : L) : List Nat := waiters (s.queue l)

def put (s : State L S) (t : Nat) (task : Task L S) : State L S :=
  { s with tasks := s.tasks.set t task }

def request (s : State L S) (l : L) (r : Request) : State L S :=
  { s with queue := Function.update s.queue l (s.queue l ++ [r]) }

def giveBack (s : State L S) (l : L) (t : Nat) : State L S :=
  { s with queue := Function.update s.queue l ((s.queue l).filter fun r => r.task ≠ t) }

end State

/-- A program is a list of sections; a task runs one after the other. -/
def step (sections : P → List S) (instrs : S → List (Instr L)) (s : State L S) :
    Action P → Option (State L S)
  | .spawn program => some { s with tasks := s.tasks ++ [⟨[], sections program⟩] }
  | .run t =>
    match s.tasks[t]? with
    | none | some ⟨[], []⟩ => none
    | some ⟨[], sec :: later⟩ => some (s.put t ⟨instrs sec, later⟩)
    | some ⟨.ask l m :: p, later⟩ => some ((s.request l ⟨t, m⟩).put t ⟨p, later⟩)
    | some ⟨.await ls :: p, later⟩ =>
      if ls.all fun l => granted (s.queue l) t then some (s.put t ⟨p, later⟩) else none
    | some ⟨.release l _ :: p, later⟩ => some ((s.giveBack l t).put t ⟨p, later⟩)

/-- `t` stops at a lock for which `u` stands before it. -/
def WaitsFor (s : State L S) (t u : Nat) : Prop :=
  ∃ ls p, s.now t = .await ls :: p ∧
    ∃ l ∈ ls, granted (s.queue l) t = false ∧ Before (s.line l) u t

instance (s : State L S) (t u : Nat) : Decidable (WaitsFor s t u) :=
  match now : s.now t with
  | .await ls :: p =>
    decidable_of_iff (∃ l ∈ ls, granted (s.queue l) t = false ∧ Before (s.line l) u t)
      ⟨fun h => ⟨ls, p, now, h⟩, fun ⟨_, _, now', h⟩ => by cases now.symm.trans now'; exact h⟩
  | [] | .ask _ _ :: _ | .release _ _ :: _ =>
    isFalse fun ⟨_, _, now', _⟩ => by cases now.symm.trans now'

/-- Some tasks wait for each other. -/
def CircularWait (s : State L S) : Prop :=
  ∃ D : Nat → Prop, (∃ t, D t) ∧ ∀ t, D t → ∃ u, D u ∧ WaitsFor s t u

/-- The rest asks for `l` before it releases `e`. -/
def asksBefore (l e : L) : List (Instr L) → Bool
  | [] => false
  | .ask k _ :: p => k = l || asksBefore l e p
  | .await _ :: p => asksBefore l e p
  | .release k _ :: p => k ≠ e && asksBefore l e p

/-- A task asks for a lock while a request of its own still waits only if no task before
that request has still to ask for the lock. -/
def AsksInOrder (s : State L S) : Action P → Prop
  | .spawn _ => True
  | .run t =>
    match s.now t with
    | .ask l _ :: _ => ∀ e, granted (s.queue e) t = false → ∀ u ∈ s.line e,
      Before (s.line e) u t → asksBefore l e (s.now u) = false
    | _ => True

instance [Fintype L] (s : State L S) (a : Action P) : Decidable (AsksInOrder s a) := by
  unfold AsksInOrder
  split
  · exact isTrue trivial
  · split
    · exact inferInstance
    · exact isTrue trivial

/-! ## Well-formed sections -/

/-- What the rest gives back without having asked for it. -/
def owed : List (Instr L) → List (L × Mode)
  | [] => []
  | .ask l _ :: p => (owed p).filter fun r => r.1 ≠ l
  | .await _ :: p => owed p
  | .release l m :: p => (l, m) :: owed p

/-- Every request is given back once, and no lock is asked for twice at a time. -/
def WellFormed : List (Instr L) → Prop
  | [] => True
  | .ask l m :: p => ((owed p).filter fun r => r.1 = l) = [(l, m)] ∧ WellFormed p
  | .await _ :: p => WellFormed p
  | .release l _ :: p => ((owed p).filter fun r => r.1 = l) = [] ∧ WellFormed p

instance decidableWellFormed : (p : List (Instr L)) → Decidable (WellFormed p)
  | [] => isTrue trivial
  | .ask _ _ :: p =>
    have := decidableWellFormed p
    inferInstanceAs (Decidable (_ ∧ _))
  | .await _ :: p => decidableWellFormed p
  | .release _ _ :: p =>
    have := decidableWellFormed p
    inferInstanceAs (Decidable (_ ∧ _))

/-- A section ends with no request of its own left. -/
def Closed (section' : List (Instr L)) : Prop := WellFormed section' ∧ owed section' = []

instance (p : List (Instr L)) : Decidable (Closed p) := inferInstanceAs (Decidable (_ ∧ _))

variable {p : List (Instr L)} {l e k : L} {m n : Mode}

theorem owed_ask (wf : WellFormed (.ask l m :: p)) :
    (k, n) ∈ owed p ↔ (k, n) = (l, m) ∨ (k, n) ∈ owed (.ask l m :: p) := by
  have only : (k, n) ∈ ((owed p).filter fun r => r.1 = l) ↔ (k, n) = (l, m) := by
    rw [wf.1, List.mem_singleton]
  simp only [List.mem_filter, decide_eq_true_eq] at only
  simp only [owed, List.mem_filter, ne_eq, decide_not, Bool.not_eq_true',
    decide_eq_false_iff_not]
  by_cases eq : k = l
  · simp [eq] at only ⊢
    simp [only]
  · simp [eq]

theorem not_owed_ask : (l, n) ∉ owed (.ask l m :: p) := by
  simp [owed]

theorem owed_release (wf : WellFormed (.release l m :: p)) :
    (k, n) ∈ owed p ↔ k ≠ l ∧ (k, n) ∈ owed (.release l m :: p) := by
  have none : (k, n) ∉ ((owed p).filter fun r => r.1 = l) := by
    rw [wf.1]
    exact List.not_mem_nil
  simp only [List.mem_filter, decide_eq_true_eq, not_and] at none
  simp only [owed, List.mem_cons, Prod.mk.injEq]
  constructor
  · intro mem
    exact ⟨none mem, .inr mem⟩
  · rintro ⟨ne, eq | mem⟩
    · exact absurd eq.1 ne
    · exact mem

/-- What a rest asks for later, a longer rest asks for, unless it releases `e` first. -/
theorem asksBefore_tail {i : Instr L} (none : asksBefore l e (i :: p) = false)
    (keeps : ∀ m, i ≠ .release e m) : asksBefore l e p = false := by
  cases i with
  | ask k m =>
    simp only [asksBefore, Bool.or_eq_false_iff] at none
    exact none.2
  | await ls => exact none
  | release k m =>
    have ne : k ≠ e := fun eq => keeps m (eq ▸ rfl)
    simpa [asksBefore, ne] using none

end FairLocks
