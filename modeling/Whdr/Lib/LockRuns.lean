import Whdr.Lib.FairLocks

/-! Runs of tasks on fair locks: which requests a task has in the queues, and the order
in which they stand in two of them. -/
namespace FairLocks

open Runs (Reaches)

variable {L S P : Type} {sections : P → List S} {instrs : S → List (Instr L)}
  {s s' : State L S} {t u v : Nat} {l e k : L} {p : List (Instr L)} {later : List S}

/-! ## What a step does -/

@[simp] theorem now_put (task : Task L S) (here : t < s.tasks.length) :
    (s.put t task).now u = if u = t then task.now else s.now u := by
  simp only [State.now, State.put, List.getElem?_set]
  by_cases eq : t = u
  · simp [← eq, here]
  · simp [eq, Ne.symm eq]

theorem now_of (task : s.tasks[t]? = some ⟨p, later⟩) : s.now t = p := by
  simp [State.now, task]

variable [DecidableEq L]

@[simp] theorem now_request (r : Request) : (s.request l r).now t = s.now t := rfl

@[simp] theorem now_giveBack : (s.giveBack l u).now t = s.now t := rfl

theorem queue_request (r : Request) :
    (s.request l r).queue k = if k = l then s.queue l ++ [r] else s.queue k := by
  simp [State.request, Function.update_apply]

theorem queue_giveBack : (s.giveBack l t).queue k =
    if k = l then (s.queue l).filter fun r => r.task ≠ t else s.queue k := by
  simp [State.giveBack, Function.update_apply]

/-- One step of task `t`. -/
inductive Ran (instrs : S → List (Instr L)) (s : State L S) (t : Nat) : State L S → Prop
  | begins {sec : S} {later : List S} (now : s.now t = []) (here : t < s.tasks.length) :
      Ran instrs s t (s.put t ⟨instrs sec, later⟩)
  | asks {l : L} {m : Mode} {p : List (Instr L)} {later : List S}
      (now : s.now t = .ask l m :: p) (here : t < s.tasks.length) :
      Ran instrs s t ((s.request l ⟨t, m⟩).put t ⟨p, later⟩)
  | awaits {ls : List L} {p : List (Instr L)} {later : List S}
      (now : s.now t = .await ls :: p) (here : t < s.tasks.length) :
      Ran instrs s t (s.put t ⟨p, later⟩)
  | releases {l : L} {m : Mode} {p : List (Instr L)} {later : List S}
      (now : s.now t = .release l m :: p) (here : t < s.tasks.length) :
      Ran instrs s t ((s.giveBack l t).put t ⟨p, later⟩)

theorem ran_of_step (hs : step sections instrs s (.run t) = some s') : Ran instrs s t s' := by
  have here {task : Task L S} (found : s.tasks[t]? = some task) : t < s.tasks.length := by
    obtain ⟨bound, _⟩ := List.getElem?_eq_some_iff.mp found
    exact bound
  simp only [step] at hs
  split at hs
  · cases hs
  · cases hs
  · rename_i found
    cases hs
    exact .begins (now_of found) (here found)
  · rename_i found
    cases hs
    exact .asks (now_of found) (here found)
  · rename_i found
    split at hs
    · cases hs
      exact .awaits (now_of found) (here found)
    · cases hs
  · rename_i found
    cases hs
    exact .releases (now_of found) (here found)

theorem spawn_step {program : P} (hs : step sections instrs s (.spawn program) = some s') :
    s'.queue = s.queue ∧ ∀ t, s'.now t = s.now t := by
  simp only [step, Option.some.injEq] at hs
  subst hs
  refine ⟨rfl, fun t => ?_⟩
  simp only [State.now, List.getElem?_append]
  split
  · rfl
  · rename_i beyond
    rw [List.getElem?_eq_none (Nat.le_of_not_lt beyond)]
    by_cases eq : t - s.tasks.length = 0
    · simp [eq]
    · rw [List.getElem?_eq_none (by simp; omega)]

/-! ## Requests in the queues -/

/-- The requests of a task in the queues are those the rest of its section gives back. -/
structure Valid (instrs : S → List (Instr L)) (s : State L S) : Prop where
  within : ∀ t, s.now t = [] ∨ ∃ sec, (s.now t).IsSuffix (instrs sec)
  wellFormed : ∀ t, WellFormed (s.now t)
  queued : ∀ l t m, ⟨t, m⟩ ∈ s.queue l ↔ (l, m) ∈ owed (s.now t)
  nodup : ∀ l, (s.line l).Nodup

theorem valid_new : Valid instrs (State.new : State L S) := by
  constructor
  · exact fun t => .inl rfl
  · exact fun t => trivial
  · intro l t m
    simp [State.new, State.now, owed]
  · exact fun l => List.nodup_nil

theorem Valid.mem_line (valid : Valid instrs s) :
    t ∈ s.line l ↔ ∃ m, (l, m) ∈ owed (s.now t) := by
  unfold State.line
  rw [mem_waiters]
  simp only [valid.queued]

theorem Valid.idle (valid : Valid instrs s) (now : s.now t = []) : t ∉ s.line l := by
  rw [valid.mem_line, now]
  simp [owed]

theorem Valid.tail (valid : Valid instrs s) {i : Instr L} (now : s.now t = i :: p) :
    (∃ sec, p.IsSuffix (instrs sec)) := by
  obtain none | ⟨sec, inside⟩ := valid.within t
  · rw [now] at none
    cases none
  · rw [now] at inside
    exact ⟨sec, (List.suffix_cons i p).trans inside⟩

/-- The parts of `Valid` that only read the rests. -/
theorem valid_put {q : State L S} {task : Task L S} (valid : Valid instrs s)
    (rests : ∀ u, q.now u = s.now u) (here : t < q.tasks.length)
    (within : task.now = [] ∨ ∃ sec, task.now.IsSuffix (instrs sec))
    (wf : WellFormed task.now)
    (mine : ∀ l m, ⟨t, m⟩ ∈ q.queue l ↔ (l, m) ∈ owed task.now)
    (others : ∀ l m, ∀ u ≠ t, ⟨u, m⟩ ∈ q.queue l ↔ ⟨u, m⟩ ∈ s.queue l)
    (nodup : ∀ l, (q.line l).Nodup) : Valid instrs (q.put t task) := by
  constructor
  · intro u
    rw [now_put task here, rests]
    by_cases eq : u = t
    · simpa [eq] using within
    · simpa [eq] using valid.within u
  · intro u
    rw [now_put task here, rests]
    by_cases eq : u = t
    · simpa [eq] using wf
    · simpa [eq] using valid.wellFormed u
  · intro l u m
    rw [now_put task here, rests]
    by_cases eq : u = t
    · rw [if_pos eq, eq]
      exact mine l m
    · rw [if_neg eq, ← valid.queued]
      exact others l m u eq
  · exact nodup

theorem ran_valid (closed : ∀ sec, Closed (instrs sec)) (valid : Valid instrs s)
    (ran : Ran instrs s t s') : Valid instrs s' := by
  have wf := valid.wellFormed t
  have mine := fun l m => valid.queued l t m
  cases ran with
  | @begins sec later now here =>
    refine valid_put valid (fun _ => rfl) here (.inr ⟨sec, List.suffix_rfl⟩) (closed sec).1 ?_
      (fun _ _ _ _ => .rfl) valid.nodup
    intro l m
    rw [mine, now, (closed sec).2, owed]
  | @awaits ls p later now here =>
    rw [now] at wf
    simp only [now] at mine
    exact valid_put valid (fun _ => rfl) here (.inr (valid.tail now)) wf mine
      (fun _ _ _ _ => .rfl) valid.nodup
  | @asks k m p later now here =>
    rw [now] at wf
    simp only [now] at mine
    refine valid_put valid (fun _ => rfl) here (.inr (valid.tail now)) wf.2 ?_ ?_ ?_
    · intro l n
      rw [owed_ask wf, ← mine, queue_request]
      by_cases eq : l = k
      · simp [eq, or_comm]
      · simp [eq]
    · intro l n u ne
      rw [queue_request]
      by_cases eq : l = k
      · simp [eq, ne]
      · simp [eq]
    · intro l
      unfold State.line
      rw [queue_request]
      by_cases eq : l = k
      · have fresh : t ∉ s.line k := by
          rw [valid.mem_line, now]
          rintro ⟨n, mem⟩
          exact not_owed_ask mem
        have apart := List.Nodup.append (valid.nodup k) (List.nodup_singleton t) (by simpa using fresh)
        simpa [eq, waiters, State.line] using apart
      · rw [if_neg eq]
        exact valid.nodup l
  | @releases k m p later now here =>
    rw [now] at wf
    simp only [now] at mine
    refine valid_put valid (fun _ => rfl) here (.inr (valid.tail now)) wf.2 ?_ ?_ ?_
    · intro l n
      rw [owed_release wf, ← mine, queue_giveBack]
      by_cases eq : l = k
      · simp [eq]
      · simp [eq]
    · intro l n u ne
      rw [queue_giveBack]
      by_cases eq : l = k
      · simp [eq, ne]
      · simp [eq]
    · intro l
      unfold State.line
      rw [queue_giveBack]
      by_cases eq : l = k
      · rw [if_pos eq, waiters_leave]
        exact (valid.nodup k).filter _
      · rw [if_neg eq]
        exact valid.nodup l

theorem spawn_valid (valid : Valid instrs s) (queue : s'.queue = s.queue)
    (rests : ∀ t, s'.now t = s.now t) : Valid instrs s' := by
  constructor
  · intro t
    rw [rests]
    exact valid.within t
  · intro t
    rw [rests]
    exact valid.wellFormed t
  · intro l t m
    rw [rests, queue]
    exact valid.queued l t m
  · intro l
    unfold State.line
    rw [queue]
    exact valid.nodup l

/-! ## Order in two queues -/

/-- Of the tasks before a write at `e`, none asks any more for a lock the writer has asked
for, and those in the line of that lock stand before the writer there too. -/
def Follows (e : L) (s : State L S) : Prop :=
  ∀ v l, l ≠ e → ⟨v, .write⟩ ∈ s.queue e → v ∈ s.line l → ∀ u, Before (s.line e) u v →
    asksBefore l e (s.now u) = false ∧ (u ∈ s.line l → Before (s.line l) u v)

omit [DecidableEq L] in
theorem Before.ne (nodup : (s.line l).Nodup) (h : Before (s.line l) u v) : u ≠ v := by
  rintro rfl
  exact before_asymm nodup h h

theorem line_request (m : Mode) : (s.request l ⟨t, m⟩).line k =
    if k = l then s.line l ++ [t] else s.line k := by
  unfold State.line
  rw [queue_request]
  by_cases eq : k = l
  · simp [eq, waiters]
  · simp [eq]

theorem line_giveBack : (s.giveBack l t).line k =
    if k = l then (s.line l).filter fun u => u ≠ t else s.line k := by
  unfold State.line
  rw [queue_giveBack]
  by_cases eq : k = l
  · rw [if_pos eq, if_pos eq, waiters_leave]
  · rw [if_neg eq, if_neg eq]

/-- A step that leaves the lines alone only shortens the rests of those in line. -/
theorem follows_put {task : Task L S} (follows : Follows e s) (here : t < s.tasks.length)
    (shorter : t ∈ s.line e → ∀ l, asksBefore l e (s.now t) = false →
      asksBefore l e task.now = false) : Follows e (s.put t task) := by
  intro v l ne writes inLine u before
  obtain ⟨none, order⟩ := follows v l ne writes inLine u before
  refine ⟨?_, order⟩
  rw [now_put task here]
  by_cases eq : u = t
  · rw [if_pos eq]
    subst eq
    exact shorter before.mem.1 l none
  · rw [if_neg eq]
    exact none

theorem request_follows {m : Mode} (valid : Valid instrs s) (follows : Follows e s)
    (now : s.now t = .ask k m :: p) (inOrder : AsksInOrder s (.run t : Action P))
    (first : k = e → m = .write → ∀ l, t ∉ s.line l) : Follows e (s.request k ⟨t, m⟩) := by
  intro v l ne writes inLine u before
  rw [now_request]
  rw [line_request] at before inLine ⊢
  rw [queue_request] at writes
  by_cases same : k = e
  · -- A newcomer at `e` stands before nobody, and has no other request if it writes.
    subst same
    rw [if_neg ne] at inLine ⊢
    rw [if_pos rfl] at before writes
    have fresh : t ∉ s.line k := by
      rw [valid.mem_line, now]
      rintro ⟨n, mem⟩
      exact not_owed_ask mem
    obtain old | new := List.mem_append.mp writes
    · obtain before | ⟨_, rfl⟩ := before_concat before
      · exact follows v l ne old inLine u before
      · exact absurd (mem_waiters.mpr ⟨_, old⟩) fresh
    · obtain ⟨rfl, rfl⟩ : v = t ∧ Mode.write = m := by simpa using new
      exact absurd inLine (first rfl rfl l)
  · rw [if_neg (Ne.symm same)] at before writes
    by_cases other : l = k
    · subst other
      rw [if_pos rfl] at inLine ⊢
      by_cases asker : v = t
      · subst asker
        have apart := before.ne (valid.nodup e)
        constructor
        · cases got : granted (s.queue e) v with
          | true => exact absurd before (granted_write_first (valid.nodup e) got writes)
          | false =>
            simp only [AsksInOrder, now] at inOrder
            exact inOrder e got u before.mem.1 before
        · intro mem
          have mem : u ∈ s.line l := by simpa [apart] using mem
          exact before_last mem
      · have inLine : v ∈ s.line l := by simpa [asker] using inLine
        obtain ⟨none, order⟩ := follows v l ne writes inLine u before
        refine ⟨none, fun mem => ?_⟩
        obtain mem | mem := List.mem_append.mp mem
        · exact (order mem).trans (List.sublist_append_left _ _)
        · -- Whoever stands before `v` at `e` would not ask for this lock.
          rw [List.mem_singleton.mp mem, now] at none
          simp [asksBefore] at none
    · rw [if_neg other] at inLine ⊢
      exact follows v l ne writes inLine u before

theorem giveBack_follows (follows : Follows e s) : Follows e (s.giveBack k t) := by
  intro v l ne writes inLine u before
  rw [now_giveBack]
  rw [line_giveBack] at before inLine ⊢
  rw [queue_giveBack] at writes
  by_cases same : e = k
  · subst same
    rw [if_neg ne] at inLine ⊢
    rw [if_pos rfl] at before writes
    exact follows v l ne (List.mem_of_mem_filter writes) inLine u
      (before.trans List.filter_sublist)
  · rw [if_neg same] at before writes
    by_cases other : l = k
    · subst other
      rw [if_pos rfl] at inLine ⊢
      obtain ⟨inLine, stays⟩ := List.mem_filter.mp inLine
      obtain ⟨none, order⟩ := follows v l ne writes inLine u before
      refine ⟨none, fun mem => ?_⟩
      obtain ⟨mem, stays'⟩ := List.mem_filter.mp mem
      exact before_leave (by simpa using stays') (by simpa using stays) (order mem)
    · rw [if_neg other] at inLine ⊢
      exact follows v l ne writes inLine u before

/-- A write at `e` is the first request of its section. -/
def WritesFirst (instrs : S → List (Instr L)) (e : L) : Prop :=
  ∀ sec p, (.ask e .write :: p).IsSuffix (instrs sec) → owed (.ask e .write :: p) = []

theorem ran_follows (first : WritesFirst instrs e) (valid : Valid instrs s)
    (follows : Follows e s) (inOrder : AsksInOrder s (.run t : Action P))
    (ran : Ran instrs s t s') : Follows e s' := by
  cases ran with
  | begins now here =>
    apply follows_put follows here
    intro inLine
    exact absurd inLine (valid.idle now)
  | awaits now here =>
    apply follows_put follows here
    intro _ l none
    rw [now] at none
    exact asksBefore_tail none nofun
  | @asks k m p later now here =>
    refine follows_put (request_follows valid follows now inOrder ?_) here ?_
    · rintro rfl rfl l
      obtain none | ⟨sec, inside⟩ := valid.within t
      · exact valid.idle none
      · rw [valid.mem_line, now, first sec p (now ▸ inside)]
        simp
    · intro _ l none
      rw [now_request, now] at none
      exact asksBefore_tail none nofun
  | @releases k m p later now here =>
    refine follows_put (giveBack_follows follows) here ?_
    intro inLine l none
    rw [now_giveBack, now] at none
    apply asksBefore_tail none
    rintro n eq
    cases eq
    simp [line_giveBack] at inLine

/-- Such runs keep the requests and their order. -/
theorem reaches_valid (closed : ∀ sec, Closed (instrs sec)) (first : WritesFirst instrs e)
    (run : Reaches (· = State.new) (step sections instrs) AsksInOrder s) :
    Valid instrs s ∧ Follows e s := by
  apply run.invariant fun s => Valid instrs s ∧ Follows e s
  · rintro _ rfl
    refine ⟨valid_new, fun v l _ writes => ?_⟩
    cases writes
  · intro s a s' _ inv inOrder hs
    cases a with
    | spawn program =>
      obtain ⟨queue, rests⟩ := spawn_step hs
      refine ⟨spawn_valid inv.1 queue rests, ?_⟩
      intro v l ne
      unfold State.line
      rw [queue]
      intro writes inLine u before
      rw [rests]
      exact inv.2 v l ne writes inLine u before
    | run t =>
      have ran := ran_of_step hs
      exact ⟨ran_valid closed inv.1 ran, ran_follows first inv.1 inv.2 inOrder ran⟩

end FairLocks
