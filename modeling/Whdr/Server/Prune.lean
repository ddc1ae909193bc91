import Whdr.Server.LogInvariant

/-! Which rows a prune removes: the shortest run of them from the front after which the
limits hold. Only the front row is held against the TTL. -/
namespace Whdr.DeliveryLog

section
variable (valueLen : StoredEvent → Nat)

def Fresh (limits : Limits) (nowMs : Nat) (e : StoredEvent) : Prop :=
  (nowMs - e.tsMs) / 1000 ≤ limits.retentionSecs

instance (limits : Limits) (nowMs : Nat) (e : StoredEvent) : Decidable (Fresh limits nowMs e) :=
  inferInstanceAs (Decidable (_ ≤ _))

/-- Rows of which none has to go: there is none, or the front one is within the TTL and
all of them are within the caps. -/
def Sufficient (limits : Limits) (nowMs : Nat) (rows : List (Nat × StoredEvent)) : Prop :=
  rows = [] ∨ (∃ front ∈ rows.head?, Fresh limits nowMs front.2) ∧
    rows.length ≤ limits.maxEvents ∧ (rows.map fun row => valueLen row.2).sum ≤ limits.maxBytes

/-- `n` is the least number of rows that have to go. -/
def Shortest (limits : Limits) (nowMs : Nat) (rows : List (Nat × StoredEvent)) (n : Nat) : Prop :=
  Sufficient valueLen limits nowMs (rows.drop n) ∧
    ∀ m < n, ¬ Sufficient valueLen limits nowMs (rows.drop m)

end

variable {valueLen : StoredEvent → Nat} {limits : Limits} {nowMs passes n : Nat} {p : Pruning}
  {log log' : Shared} {rows : List (Nat × StoredEvent)}

/-! ## The loop -/

theorem sufficient_nil : Sufficient valueLen limits nowMs [] := .inl rfl

/-- With its locals exact, the loop goes on as long as the rows left are too many. -/
theorem shed_iff {seq : Nat} {front : StoredEvent} (counts : p.Counts valueLen)
    (first : p.table.first? = some (seq, front)) :
    shed limits nowMs front p = true ↔ ¬ Sufficient valueLen limits nowMs p.table.entries := by
  have nonempty : p.table.entries ≠ [] := by
    intro empty
    simp [OrdMap.first?, empty] at first
  have bytes : p.bytes = (p.table.entries.map fun row => valueLen row.2).sum := by
    rw [counts.bytes, OrdMap.values, List.map_map]
    rfl
  have front : (∃ row ∈ p.table.entries.head?, Fresh limits nowMs row.2) ↔
      Fresh limits nowMs front := by
    rw [OrdMap.first?] at first
    simp [first]
  have count : p.count = p.table.entries.length := counts.count
  rw [Sufficient, front, ← bytes, ← count]
  simp only [shed, Fresh, nonempty, false_or, Bool.or_eq_true, decide_eq_true_eq]
  omega

theorem shortest_zero (done : Sufficient valueLen limits nowMs rows) :
    Shortest valueLen limits nowMs rows 0 :=
  ⟨done, fun _ lt => absurd lt (Nat.not_lt_zero _)⟩

theorem shortest_succ {row : Nat × StoredEvent} (more : ¬ Sufficient valueLen limits nowMs (row :: rows))
    (rest : Shortest valueLen limits nowMs rows n) :
    Shortest valueLen limits nowMs (row :: rows) (n + 1) := by
  refine ⟨rest.1, fun m lt => ?_⟩
  cases m with
  | zero => exact more
  | succ m => exact rest.2 m (by omega)

/-- What the loop does with at least as many passes as there are rows. -/
theorem pruneLoop_shortest (counts : p.Counts valueLen) (enough : p.table.size ≤ passes) :
    ∃ n, (pruneLoop valueLen limits nowMs passes p).pruned = p.pruned + n ∧
      (pruneLoop valueLen limits nowMs passes p).table.entries = p.table.entries.drop n ∧
      n ≤ p.table.size ∧ Shortest valueLen limits nowMs p.table.entries n := by
  induction passes generalizing p with
  | zero =>
    have empty : p.table.entries = [] := List.eq_nil_of_length_eq_zero (Nat.le_zero.mp enough)
    refine ⟨0, rfl, rfl, Nat.zero_le _, shortest_zero ?_⟩
    rw [empty]
    exact sufficient_nil
  | succ passes ih =>
    unfold pruneLoop
    cases first : p.table.first? with
    | none =>
      have empty : p.table.entries = [] := List.head?_eq_none_iff.mp first
      refine ⟨0, rfl, rfl, Nat.zero_le _, shortest_zero ?_⟩
      rw [empty]
      exact sufficient_nil
    | some row =>
      obtain ⟨seq, front⟩ := row
      dsimp only
      split
      · rename_i goes
        obtain ⟨rest, eq⟩ := List.head?_eq_some_iff.mp first
        have erased := p.table.erase_first eq
        have size : p.table.size = rest.length + 1 := by rw [OrdMap.size, eq, List.length_cons]
        obtain ⟨n, pruned, left, le, shortest⟩ := ih (counts.pass first (p.pruned + 1)).2.2
          (by rw [OrdMap.size, erased]; omega)
        simp only [OrdMap.size, erased] at pruned left le shortest
        refine ⟨n + 1, by omega, by rw [left, eq, List.drop_succ_cons], by omega, ?_⟩
        have more := (shed_iff counts first).mp goes
        rw [eq] at more ⊢
        exact shortest_succ more shortest
      · rename_i stays
        refine ⟨0, rfl, rfl, Nat.zero_le _, shortest_zero ?_⟩
        by_contra more
        exact stays ((shed_iff counts first).mpr more)

/-- The loop ends by itself after at most one pass for each row. -/
theorem pruneLoop_ends (enough : p.table.size ≤ passes) (more : Nat) :
    pruneLoop valueLen limits nowMs (passes + more) p =
      pruneLoop valueLen limits nowMs passes p := by
  induction passes generalizing p with
  | zero =>
    have empty : p.table.entries = [] := List.eq_nil_of_length_eq_zero (Nat.le_zero.mp enough)
    cases more with
    | zero => rfl
    | succ more => simp [pruneLoop, OrdMap.first?, empty]
  | succ passes ih =>
    rw [Nat.add_right_comm, pruneLoop, pruneLoop]
    cases first : p.table.first? with
    | none => rfl
    | some row =>
      obtain ⟨seq, front⟩ := row
      dsimp only
      split
      · obtain ⟨rest, eq⟩ := List.head?_eq_some_iff.mp first
        apply ih
        rw [OrdMap.size, p.table.erase_first eq]
        rw [OrdMap.size, eq, List.length_cons] at enough
        omega
      · rfl

/-! ## One prune -/

theorem Counts.locals (counts : Counts valueLen log) :
    Pruning.Counts valueLen ⟨log.db, log.retainedCount, log.retainedBytes, 0⟩ :=
  ⟨counts.count, counts.bytes⟩

theorem pruneBlocking_ok {fault : Option PruneFault}
    (ok : log.pruneBlocking valueLen fault nowMs = (.ok n, log')) :
    n = (log.pruning valueLen nowMs).pruned ∧
      log' = (log.commitPrune (log.pruning valueLen nowMs)).storePruned
        (log.pruning valueLen nowMs) := by
  unfold Shared.pruneBlocking at ok
  dsimp only at ok
  split at ok
  · cases ok
  · cases ok
    exact ⟨rfl, rfl⟩

theorem pruning_shortest (counts : Counts valueLen log) (nowMs : Nat) :
    Shortest valueLen log.limits nowMs log.db.entries (log.pruning valueLen nowMs).pruned ∧
      (log.pruning valueLen nowMs).table.entries =
        log.db.entries.drop (log.pruning valueLen nowMs).pruned ∧
      (log.pruning valueLen nowMs).pruned ≤ log.db.size := by
  obtain ⟨n, pruned, left, le, shortest⟩ :=
    @pruneLoop_shortest valueLen log.limits nowMs log.db.size _ counts.locals (Nat.le_refl _)
  rw [Nat.zero_add] at pruned
  rw [Shared.pruning, pruned]
  exact ⟨shortest, left, le⟩

/-- Where nothing has to go, a prune changes nothing. -/
theorem prune_sufficient {fault : Option PruneFault} (counts : Counts valueLen log)
    (done : Sufficient valueLen log.limits nowMs log.db.entries)
    (ok : log.pruneBlocking valueLen fault nowMs = (.ok n, log')) : n = 0 ∧ log' = log := by
  have stays : log.pruning valueLen nowMs = ⟨log.db, log.retainedCount, log.retainedBytes, 0⟩ := by
    rw [Shared.pruning]
    cases size : log.db.size with
    | zero => rfl
    | succ passes =>
      rw [pruneLoop]
      cases first : log.db.first? with
      | none => rfl
      | some row =>
        obtain ⟨seq, front⟩ := row
        have := mt (shed_iff counts.locals first).mp (not_not.mpr done)
        simp only [this, Bool.false_eq_true, ↓reduceIte]
  obtain ⟨rfl, rfl⟩ := pruneBlocking_ok ok
  rw [stays]
  refine ⟨rfl, ?_⟩
  rw [Shared.storePruned, Shared.commitPrune, ← counts.floor]

/-- A successful prune removes the shortest run of rows from the front after which the limits
hold, counts what is left, and ends; the next one at the same time removes nothing. -/
theorem prune_removes_shortest {fault : Option PruneFault} (counts : Counts valueLen log)
    (ok : log.pruneBlocking valueLen fault nowMs = (.ok n, log')) :
    Shortest valueLen log.limits nowMs log.db.entries n ∧
      log'.db.entries = log.db.entries.drop n ∧ log.db.size = n + log'.db.size ∧
      Counts valueLen log' ∧ log'.head = log.head ∧ log'.limits = log.limits ∧
      (∀ passes, log.db.size ≤ passes → pruneLoop valueLen log.limits nowMs passes
        ⟨log.db, log.retainedCount, log.retainedBytes, 0⟩ = log.pruning valueLen nowMs) ∧
      ∀ again m log'', log'.pruneBlocking valueLen again nowMs = (.ok m, log'') →
        m = 0 ∧ log'' = log' := by
  obtain ⟨shortest, left, le⟩ := pruning_shortest counts nowMs
  have after : Counts valueLen log' := by
    have := pruneBlocking_counts fault nowMs counts
    rwa [ok] at this
  obtain ⟨rfl, rfl⟩ := pruneBlocking_ok ok
  refine ⟨shortest, left, ?_, after, rfl, rfl, ?_, ?_⟩
  · have := congrArg List.length left
    rw [List.length_drop] at this
    change log.db.size = _ + (log.pruning valueLen nowMs).table.size
    rw [OrdMap.size] at le ⊢
    rw [OrdMap.size]
    omega
  · intro passes enough
    obtain ⟨more, rfl⟩ := Nat.exists_eq_add_of_le enough
    rw [Shared.pruning]
    apply pruneLoop_ends
    exact Nat.le_refl _
  · intro again m log'' second
    refine prune_sufficient after ?_ second
    change Sufficient valueLen log.limits nowMs (log.pruning valueLen nowMs).table.entries
    rw [left]
    exact shortest.1

/-- The first of three rows is past the TTL, and the caps leave two. -/
theorem prune_removes_shortest_front :
    let log : Shared := ⟨⟨[(4, ⟨1, 0, "a", ""⟩), (5, ⟨2, 70000, "b", ""⟩), (6, ⟨3, 60000, "c", ""⟩)],
      by simp⟩, 6, 4, 3, 30, ⟨60, 20, 5⟩⟩
    ∃ log', log.pruneBlocking (fun _ => 10) none 80000 = (.ok 1, log') ∧
      Shortest (fun _ => 10) log.limits 80000 log.db.entries 1 ∧ Counts (fun _ => 10) log' := by
  intro log
  have counts : Counts (fun _ => 10) log := ⟨rfl, rfl, rfl⟩
  have law := @prune_removes_shortest (fun _ => 10) 80000 1 log _ none counts rfl
  exact ⟨_, rfl, law.1, law.2.2.2.1⟩

/-! ## The TTL -/

/-- Every payload left is within the TTL. -/
def TtlBounds (log : Shared) (nowMs : Nat) : Prop :=
  ∀ row ∈ log.db.entries, Fresh log.limits nowMs row.2

/-- No row past the TTL is behind one that is within it and from which on the caps hold. -/
def NoneHidden (valueLen : StoredEvent → Nat) (log : Shared) (nowMs : Nat) : Prop :=
  ∀ front row behind, log.db.entries = front ++ row :: behind → Fresh log.limits nowMs row.2 →
    (row :: behind).length ≤ log.limits.maxEvents →
    ((row :: behind).map fun row => valueLen row.2).sum ≤ log.limits.maxBytes →
    ∀ late ∈ behind, Fresh log.limits nowMs late.2

/-- The prune stops at the first row that hides those behind it. -/
theorem ttlBounds_iff {fault : Option PruneFault} (counts : Counts valueLen log)
    (ok : log.pruneBlocking valueLen fault nowMs = (.ok n, log')) :
    TtlBounds log' nowMs ↔ NoneHidden valueLen log nowMs := by
  obtain ⟨shortest, left, -, -, -, limits, -⟩ := prune_removes_shortest counts ok
  rw [TtlBounds, left, limits]
  constructor
  · intro fresh front row behind cut isFresh count bytes late mem
    -- the prune stopped at this row or in front of it
    have stopped : n ≤ front.length := by
      by_contra beyond
      apply shortest.2 front.length (by omega)
      rw [cut, List.drop_left]
      exact .inr ⟨⟨row, rfl, isFresh⟩, count, bytes⟩
    apply fresh late
    rw [cut, List.drop_append_of_le_length stopped]
    exact List.mem_append_right _ (List.mem_cons_of_mem _ mem)
  · intro hidden
    cases rows : log.db.entries.drop n with
    | nil => exact fun _ mem => absurd mem List.not_mem_nil
    | cons row behind =>
      obtain sufficient := shortest.1
      rw [rows] at sufficient
      obtain empty | ⟨⟨first, isFirst, isFresh⟩, count, bytes⟩ := sufficient
      · cases empty
      · cases isFirst
        have cut : log.db.entries = log.db.entries.take n ++ row :: behind := by
          rw [← rows, List.take_append_drop]
        rw [List.forall_mem_cons]
        exact ⟨isFresh, hidden _ row behind cut isFresh count bytes⟩

/-- Stamps that do not go back along the seqs hide nothing. -/
theorem noneHidden_of_ordered (ordered : log.db.entries.Pairwise fun a b => a.2.tsMs ≤ b.2.tsMs) :
    NoneHidden valueLen log nowMs := by
  intro front row behind cut isFresh _ _ late mem
  rw [cut] at ordered
  have later := List.rel_of_pairwise_cons (List.pairwise_append.mp ordered).2.1 mem
  have older : (nowMs - late.2.tsMs) / 1000 ≤ (nowMs - row.2.tsMs) / 1000 :=
    Nat.div_le_div_right (by omega)
  exact Nat.le_trans older isFresh

end Whdr.DeliveryLog

namespace Whdr.DeliveryLog.Reopen

open Runs (Reaches exec guarded reaches_of_exec)

variable {valueLen : StoredEvent → Nat} {s t : State} {log log' : Shared}

/-- The log that the next prune works on: the open one, or the one an open recovers. -/
inductive Prunes (valueLen : StoredEvent → Nat) (s : State) : Shared → Prop
  | opened {l : Shared} : s.handle = .opened l → Prunes valueLen s l
  | opening {file : Table} (limits : Limits) : s.handle = .closed file →
      Prunes valueLen s (recover valueLen limits file)

theorem Prunes.table (prunes : Prunes valueLen s log) : log.db = s.handle.table := by
  cases prunes with
  | opened eq => rw [eq]; rfl
  | opening limits eq => rw [eq, recover_db]; rfl

theorem Prunes.counts {low last : Nat} (prunes : Prunes valueLen s log)
    (inv : Sound valueLen s low last) : Counts valueLen log := by
  cases prunes with
  | opened eq => exact (inv.log log eq).2
  | opening limits eq =>
    have spans := inv.spans
    rw [eq] at spans
    exact recover_counts limits spans inv.start

/-- The wall clock has not gone back behind a row that is still there. -/
def InOrder (s : State) : Op → Prop
  | .append _ _ _ tsMs => ∀ row ∈ s.handle.table.entries, row.2.tsMs ≤ tsMs
  | _ => True

instance (s : State) (op : Op) : Decidable (InOrder s op) :=
  match op with
  | .append _ _ _ tsMs =>
    inferInstanceAs (Decidable (∀ row ∈ s.handle.table.entries, row.2.tsMs ≤ tsMs))
  | .openLog _ _ _ | .prune _ _ | .close => isTrue trivial

def Ordered (table : Table) : Prop := table.entries.Pairwise fun a b => a.2.tsMs ≤ b.2.tsMs

theorem prune_ordered (fault : Option PruneFault) (nowMs : Nat) (counts : Counts valueLen log)
    (ordered : Ordered log.db) : Ordered (log.pruneBlocking valueLen fault nowMs).2.db := by
  cases result : (log.pruneBlocking valueLen fault nowMs).1 with
  | error err =>
    rw [pruneBlocking_error result]
    exact ordered
  | ok n =>
    rw [Ordered, (prune_removes_shortest counts (Prod.ext result rfl)).2.1]
    exact ordered.sublist (List.drop_sublist _ _)

theorem append_ordered {low : Nat} {fault : Option AppendFault} {mint : Nat → Uuid}
    {events : List Event} {tsMs : Nat} {rows : List StampedEvent}
    (spans : Spans log.db low log.head) (ordered : Ordered log.db)
    (inOrder : ∀ row ∈ log.db.entries, row.2.tsMs ≤ tsMs)
    (ok : log.append valueLen fault mint events tsMs = (.ok rows, log')) : Ordered log'.db := by
  obtain ⟨rfl, after, -⟩ := append_ok ok
  have stamped : ∀ row ∈ stampRows log.head tsMs mint events, row.tsMs = tsMs := by
    intro row mem
    obtain ⟨i, _, rfl⟩ := List.mem_mapIdx.mp mem
    rfl
  have above : ∀ e ∈ log.db.entries, ∀ row ∈ stampRows log.head tsMs mint events,
      e.1 < row.seq := by
    rintro ⟨k, e⟩ he row hr
    have inTable := (spans k).mp ⟨e, (log.db.get?_eq_some_iff k e).mpr he⟩
    have new := stampRows_bounds hr
    omega
  rw [Ordered, after, insertRows_entries _ (stampRows_ascending _ _ _ _) above]
  refine List.pairwise_append.mpr ⟨ordered, ?_, ?_⟩
  · rw [List.pairwise_map]
    apply List.pairwise_of_forall_mem_list
    intro a ha b hb
    exact Nat.le_of_eq ((stamped a ha).trans (stamped b hb).symm)
  · intro a ha b hb
    obtain ⟨row, mem, rfl⟩ := List.mem_map.mp hb
    exact (inOrder a ha).trans_eq (stamped row mem).symm

theorem step_ordered {low last : Nat} {op : Op} (inv : Sound valueLen s low last)
    (ordered : Ordered s.handle.table) (inOrder : InOrder s op) (hs : step valueLen s op = some t) :
    Ordered t.handle.table := by
  cases step_cases hs with
  | @opened limits fault nowMs file log closed ok =>
    obtain rfl := openLog_ok ok
    have prunes : Prunes valueLen s (recover valueLen limits file) := .opening limits closed
    exact prune_ordered none nowMs (prunes.counts inv) (prunes.table ▸ ordered)
  | @appended fault mint events tsMs log rows log' opened ok =>
    have prunes : Prunes valueLen s log := .opened opened
    have spans : Spans log.db low log.head := by
      rw [prunes.table, (inv.log log opened).1]
      exact inv.spans
    exact append_ordered spans (prunes.table ▸ ordered) (by rw [prunes.table]; exact inOrder) ok
  | @pruned fault nowMs log opened =>
    have prunes : Prunes valueLen s log := .opened opened
    exact prune_ordered fault nowMs (prunes.counts inv) (prunes.table ▸ ordered)
  | @closed log opened =>
    have prunes : Prunes valueLen s log := .opened opened
    exact prunes.table ▸ ordered
  | refused | failed => exact ordered

theorem reaches_ordered (run : Reaches (· = created) (step valueLen) InOrder s) :
    Ordered s.handle.table := by
  apply run.invariant fun s => Ordered s.handle.table
  · rintro _ rfl
    exact List.Pairwise.nil
  · intro s op t reached ordered inOrder hs
    obtain ⟨low, last, inv⟩ := reaches_sound reached
    exact step_ordered inv ordered inOrder hs

/-- After a prune of any history every payload is within the TTL exactly if no row past it was
behind one at which the prune stops; none ever is while the stamps do not go back. -/
theorem ttl_bounds_payloads {ok : State → Op → Prop} {fault : Option PruneFault} {nowMs n : Nat}
    (run : Reaches (· = created) (step valueLen) ok s) (prunes : Prunes valueLen s log)
    (pruned : log.pruneBlocking valueLen fault nowMs = (.ok n, log')) :
    (TtlBounds log' nowMs ↔ NoneHidden valueLen log nowMs) ∧
      (Reaches (· = created) (step valueLen) InOrder s → TtlBounds log' nowMs) := by
  obtain ⟨low, last, inv⟩ := reaches_sound run
  have counts := prunes.counts inv
  have exactly := ttlBounds_iff counts pruned
  refine ⟨exactly, fun inOrder => exactly.mpr (noneHidden_of_ordered ?_)⟩
  rw [prunes.table]
  exact reaches_ordered inOrder

/-- Two batches; the clock is at `second` when the second one is stamped. -/
def twoBatches (second : Nat) : List Op :=
  [.openLog ⟨60, 1000, 10⟩ none 0, .append none id [⟨"dev.one", ""⟩] 100000,
    .append none id [⟨"dev.two", ""⟩] second]

theorem ttl_bounds_payloads_ordered :
    ∃ s log log', Reaches (· = created) (step fun _ => 10) InOrder s ∧ s.handle = .opened log ∧
      log.pruneBlocking (fun _ => 10) none 170000 = (.ok 1, log') ∧ TtlBounds log' 170000 := by
  let log : Shared := ⟨⟨[(1, ⟨0, 100000, "dev.one", ""⟩), (2, ⟨0, 120000, "dev.two", ""⟩)], by simp⟩,
    2, 1, 2, 20, ⟨60, 1000, 10⟩⟩
  have run : exec (guarded InOrder (step fun _ => 10)) created (twoBatches 120000) =
      some ⟨.opened log, [1, 2]⟩ := by decide
  have reached : Reaches (· = created) (step fun _ => 10) InOrder ⟨.opened log, [1, 2]⟩ :=
    reaches_of_exec _ (.start rfl) run
  have pruned : log.pruneBlocking (fun _ => 10) none 170000 =
      (.ok 1, (log.pruneBlocking (fun _ => 10) none 170000).2) := rfl
  have law := ttl_bounds_payloads reached (.opened rfl) pruned
  exact ⟨_, log, _, reached, rfl, pruned, law.2 reached⟩

/-- The clock steps back by 80 s between the batches: the second one stays behind the first. -/
theorem expired_behind_fresh :
    ¬ ∀ (s : State) (log log' : Shared) (nowMs n : Nat),
      Reaches (· = created) (step fun _ => 10) (fun _ _ => True) s → s.handle = .opened log →
        log.pruneBlocking (fun _ => 10) none nowMs = (.ok n, log') → TtlBounds log' nowMs := by
  intro all
  let log : Shared := ⟨⟨[(1, ⟨0, 100000, "dev.one", ""⟩), (2, ⟨0, 20000, "dev.two", ""⟩)], by simp⟩,
    2, 1, 2, 20, ⟨60, 1000, 10⟩⟩
  have run : exec (guarded (fun _ _ => True) (step fun _ => 10)) created (twoBatches 20000) =
      some ⟨.opened log, [1, 2]⟩ := by decide
  have bounds := all _ log log 100000 0 (reaches_of_exec _ (.start rfl) run) rfl rfl
  have old := bounds (2, ⟨0, 20000, "dev.two", ""⟩) (by decide)
  exact absurd old (by decide)

end Whdr.DeliveryLog.Reopen
