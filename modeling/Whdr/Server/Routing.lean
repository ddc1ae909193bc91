import Whdr.Server.Exclusivity

/-! The routing tables against the running extensions. `unroute_extension` drops rows by
id in separate sections, so the unroute of one generation can meet the rows of the next. -/
namespace Whdr.Lifecycle.Routing

open Runs (Reaches exec guarded reaches_of_exec)

/-- `unrouted`: the generations whose handle had its unroute started. -/
structure State where
  tables : Lifecycle.State
  unrouted : List Uuid
  deriving DecidableEq

def State.new : State := ⟨.new, []⟩

/-- The generation that a task is about to unroute. The unroute in a cleanup comes after
the handle has left the table. -/
def startsUnroute : List Op → List Uuid
  | .dropRoutes _ :: .dropPrefixes _ :: .clearUnavailable _ :: .sendDrainStop generation :: _ =>
    [generation]
  | _ => []

def unroutes (s : Lifecycle.State) : Action → List Uuid
  | .runTask i => startsUnroute (s.tasks[i]?.getD [])
  | _ => []

def step (s : State) (a : Action) : Option State :=
  (Lifecycle.step s.tables a).map fun tables => ⟨tables, unroutes s.tables a ++ s.unrouted⟩

/-! ## The property and its condition -/

/-- A handle of the table on which no unroute has been started. -/
def Serving (s : State) (handle : ExtHandle) : Prop :=
  handle ∈ s.tables.extensions.values ∧ handle.generation ∉ s.unrouted

/-- Neither a row nor a claim of a serving handle has a second owner. -/
structure OneOwner (s : State) : Prop where
  routes : ∀ path owner owner', (path, owner) ∈ s.tables.routes.entries →
    (path, owner') ∈ s.tables.routes.entries → owner = owner'
  prefixes : ∀ channel owner owner', (channel, owner) ∈ s.tables.channelPrefixes.entries →
    (channel, owner') ∈ s.tables.channelPrefixes.entries → owner = owner'
  paths : ∀ g h path, Serving s g → Serving s h → path ∈ g.paths → path ∈ h.paths → g = h
  channels : ∀ g h channel, Serving s g → Serving s h → channel ∈ g.channels →
    channel ∈ h.channels → g = h

/-- The registration leaves the three tables as they are. -/
def Untouched (s : State) (a : Action) : Prop :=
  ∃ t, step s a = some t ∧ t.tables.extensions = s.tables.extensions ∧
    t.tables.routes = s.tables.routes ∧ t.tables.channelPrefixes = s.tables.channelPrefixes

structure Agrees (s : State) : Prop where
  routed : ∀ handle, Serving s handle → Routed s.tables handle
  oneOwner : OneOwner s
  rejected : ∀ candidateId reg generation msg,
    registerExtension s.tables (newHandle candidateId reg generation) = .error msg →
      Untouched s (.start candidateId reg generation)

/-- No section of an unroute drops rows that a serving handle has under the same id. -/
def DropsOwnRows (s : State) : Action → Prop
  | .runTask i =>
    match s.tables.tasks[i]? with
    | some (.dropRoutes id :: rest) => ∀ handle ∈ s.tables.extensions.get? id,
      handle.generation ∈ startsUnroute (.dropRoutes id :: rest) ++ s.unrouted
    | some (.dropPrefixes id :: _) => ∀ handle ∈ s.tables.extensions.get? id,
      handle.channels = [] ∨ handle.generation ∈ s.unrouted
    | _ => True
  | _ => True

instance (s : State) (a : Action) : Decidable (DropsOwnRows s a) := by
  unfold DropsOwnRows
  split
  · split
    · exact inferInstance
    · exact inferInstance
    · exact isTrue trivial
  · exact isTrue trivial

/-! ## The invariant -/

variable {s t : State} {a : Action} {h : ExtHandle}

/-- Handles stand under their ids. -/
def Keyed (s : Lifecycle.State) : Prop :=
  ∀ id handle, s.extensions.get? id = some handle → handle.id = id

theorem step_keyed {s t : Lifecycle.State} (keyed : Keyed s)
    (hs : Lifecycle.step s a = some t) : Keyed t := by
  intro id handle mem
  obtain kept | ⟨candidateId, reg, generation, u, _, ok, ext, _, _⟩ := step_extensions hs
  · exact keyed id handle (kept id handle mem)
  · obtain ⟨_, _, rfl⟩ := registerExtension_ok ok
    rw [ext, OrdMap.get?_insert] at mem
    split at mem
    · rename_i eq
      cases mem
      exact eq.symm
    · exact keyed id handle mem

theorem Serving.get? (keyed : Keyed s.tables) (serving : Serving s h) :
    s.tables.extensions.get? h.id = some h := by
  obtain ⟨id, mem⟩ := (s.tables.extensions.mem_values_iff h).mp serving.1
  rw [keyed id h mem]
  exact mem

/-- The rows of a serving handle survive the unroutes of other generations. -/
theorem unroute_keeps_rows (keyed : Keyed s.tables) (serving : Serving s h)
    (spared : h.generation ∉ unroutes s.tables a) (routed : Routed s.tables h)
    (own : DropsOwnRows s a) (unroute : Unroutes s.tables h.id a) {t : Lifecycle.State}
    (hs : Lifecycle.step s.tables a = some t) : Routed t h := by
  have mem := serving.get? keyed
  cases a with
  | runTask i =>
    obtain ⟨rest, task | task⟩ := unroute
    · -- The unroute of `h` itself starts here, or another one hits it.
      simp only [DropsOwnRows, task] at own
      obtain started | earlier := List.mem_append.mp (own h mem)
      · exact absurd (by simpa [unroutes, task] using started) spared
      · exact absurd earlier serving.2
    · simp only [DropsOwnRows, task] at own
      obtain none | earlier := own h mem
      · simp only [Lifecycle.step, task, Op.run, Option.some.injEq] at hs
        subst hs
        exact ⟨routed.1, by simp [none]⟩
      · exact absurd earlier serving.2
  | _ => cases unroute

theorem step_routed (keyed : Keyed s.tables)
    (routed : ∀ handle, Serving s handle → Routed s.tables handle) (own : DropsOwnRows s a)
    (hs : step s a = some t) : ∀ handle, Serving t handle → Routed t.tables handle := by
  obtain ⟨tables, moved, rfl⟩ := Option.map_eq_some_iff.mp hs
  rintro h ⟨mem, fresh⟩
  have spared : h.generation ∉ unroutes s.tables a := fun started =>
    fresh (List.mem_append_left _ started)
  have old : ∀ id, s.tables.extensions.get? id = some h → Routed tables h := by
    intro id mem
    have serving : Serving s h := ⟨(s.tables.extensions.mem_values_iff h).mpr ⟨id, mem⟩,
      fun earlier => fresh (List.mem_append_right _ earlier)⟩
    by_cases unroute : Unroutes s.tables h.id a
    · exact unroute_keeps_rows keyed serving spared (routed h serving) own unroute moved
    · exact step_keeps_rows moved (serving.get? keyed) (routed h serving) unroute
  obtain ⟨id, mem⟩ := (tables.extensions.mem_values_iff h).mp mem
  obtain before | new := step_new_routed moved mem
  · exact old id before
  · exact new

theorem oneOwner_of_routed (keyed : Keyed s.tables)
    (routed : ∀ handle, Serving s handle → Routed s.tables handle) : OneOwner s := by
  have same : ∀ g h, Serving s g → Serving s h → g.id = h.id → g = h := by
    intro g h hg hh eq
    have found := hg.get? keyed
    rw [eq, hh.get? keyed] at found
    exact (Option.some.inj found).symm
  constructor
  · intro path owner owner' row row'
    rw [← OrdMap.get?_eq_some_iff] at row row'
    exact Option.some.inj (row.symm.trans row')
  · intro channel owner owner' row row'
    rw [← OrdMap.get?_eq_some_iff] at row row'
    exact Option.some.inj (row.symm.trans row')
  · intro g h path hg hh gp hp
    have owner := ((routed g hg).1 path gp).symm.trans ((routed h hh).1 path hp)
    exact same g h hg hh (Option.some.inj owner)
  · intro g h channel hg hh gc hc
    have owner := ((routed g hg).2 channel gc).symm.trans ((routed h hh).2 channel hc)
    exact same g h hg hh (Option.some.inj owner)

theorem rejected_untouched {candidateId : String} {reg : Registration} {generation : Uuid}
    {msg : String} (rejected : registerExtension s.tables
      (newHandle candidateId reg generation) = .error msg) :
    Untouched s (.start candidateId reg generation) := by
  refine ⟨_, rfl, ?_⟩
  simp [startExtension, rejected]

/-- Along every run in which no unroute drops the rows of a serving handle of another
generation, the routing tables agree with the extensions. -/
theorem tables_agree (run : Reaches (· = State.new) step DropsOwnRows s) : Agrees s := by
  have inv : Keyed s.tables ∧ ∀ handle, Serving s handle → Routed s.tables handle := by
    apply run.invariant fun s => Keyed s.tables ∧
      ∀ handle, Serving s handle → Routed s.tables handle
    · rintro _ rfl
      constructor
      · intro id handle mem
        cases mem
      · intro handle serving
        cases serving.1
    · intro s a t _ inv own hs
      refine ⟨?_, step_routed inv.1 inv.2 own hs⟩
      obtain ⟨tables, moved, rfl⟩ := Option.map_eq_some_iff.mp hs
      exact step_keyed inv.1 moved
  constructor
  · exact inv.2
  · exact oneOwner_of_routed inv.1 inv.2
  · intro candidateId reg generation msg rejected
    exact rejected_untouched rejected

/-- Generation 1 crashes and its cleanup ends before generation 2 registers; a reload then
has unrouted generation 2, and extension `b` serves on. -/
def respawnThenRemove : List Action :=
  [.start "a" ⟨"a", [], ["feed"]⟩ 1, .runTask 0, .runTask 0, .runTask 0, .start "b" ⟨"b", [], []⟩ 3,
    .exits 0 "crashed", .runTask 2, .runTask 2, .runTask 2, .start "a" ⟨"a", [], ["feed"]⟩ 2,
    .stopRemoved ["b"], .runTask 4, .runTask 4]

theorem tables_agree_respawn :
    ∃ s, exec (guarded DropsOwnRows step) .new respawnThenRemove = some s ∧
      s.tables.extensions.keys = ["a", "b"] ∧ s.unrouted = [2] ∧ Agrees s := by
  have run : (exec (guarded DropsOwnRows step) .new respawnThenRemove).map
      (fun s => (s.tables.extensions.keys, s.unrouted)) = some (["a", "b"], [2]) := by decide
  obtain ⟨s, hs, found⟩ := Option.map_eq_some_iff.mp run
  obtain ⟨keys, unrouted⟩ := Prod.mk.inj found
  exact ⟨s, hs, keys, unrouted, tables_agree (reaches_of_exec _ (.start rfl) hs)⟩

/-- The cleanup of the crashed generation 1 has dropped its routes when a reload registers
generation 2; the cleanup goes on and drops the prefixes of generation 2. -/
def respawnDuringCleanup : List Action :=
  [.start "a" ⟨"a", [], ["feed"]⟩ 1, .runTask 0, .runTask 0, .runTask 0, .exits 0 "crashed",
    .runTask 1, .runTask 1, .start "a" ⟨"a", [], ["feed"]⟩ 2, .runTask 1]

theorem cleanup_drops_next_generation :
    ¬ ∀ s, Reaches (· = State.new) step (fun _ _ => True) s → Agrees s := by
  intro claim
  have run : (exec (guarded (fun _ _ => True) step) .new respawnDuringCleanup).map
      (fun s => (s.tables.extensions.get? "a", s.unrouted, s.tables.channelPrefixes.get? "feed")) =
      some (some ⟨"a", "a", 2, ["a"], ["feed"]⟩, [], none) := by decide
  obtain ⟨s, hs, found⟩ := Option.map_eq_some_iff.mp run
  obtain ⟨handle, found⟩ := Prod.mk.inj found
  obtain ⟨unrouted, row⟩ := Prod.mk.inj found
  have serving : Serving s ⟨"a", "a", 2, ["a"], ["feed"]⟩ := by
    refine ⟨(s.tables.extensions.mem_values_iff _).mpr ⟨"a", handle⟩, ?_⟩
    simp [unrouted]
  have rows := (claim s (reaches_of_exec _ (.start rfl) hs)).routed _ serving
  have there := rows.2 "feed" (by simp)
  rw [row] at there
  cases there

end Whdr.Lifecycle.Routing
