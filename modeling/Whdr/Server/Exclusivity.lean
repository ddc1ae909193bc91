import Whdr.Lib.Runs
import Whdr.Server.Lifecycle

/-! No channel is open to two extensions at once, as long as the claim tables are
complete whenever a newcomer is checked against them. -/
namespace Whdr.Lifecycle

open Runs (Reaches exec guarded reaches_of_exec)

/-! ## The property and its condition -/

def Exclusive (s : State) : Prop :=
  ∀ channel, ∀ g ∈ s.extensions.values, ∀ h ∈ s.extensions.values,
    s.extensionIsActive g.id g.generation = true → s.extensionIsActive h.id h.generation = true →
      g.owns channel → h.owns channel → g = h

/-- Every row the handle registered is in the tables. -/
def Routed (s : State) (handle : ExtHandle) : Prop :=
  (∀ path ∈ handle.paths, s.routes.get? path = some handle.id) ∧
    ∀ channel ∈ handle.channels, s.channelPrefixes.get? channel = some handle.id

instance (s : State) (handle : ExtHandle) : Decidable (Routed s handle) :=
  inferInstanceAs (Decidable (_ ∧ _))

/-- No registration passes its checks while a handle of the table lacks rows. -/
def TablesComplete (s : State) : Action → Prop
  | .start candidateId reg generation =>
    validateRegistrationClaims reg.id s.routes s.channelPrefixes
        (newHandle candidateId reg generation).paths reg.channels = .ok () →
      ∀ handle ∈ s.extensions.values, Routed s handle
  | _ => True

instance (s : State) (a : Action) : Decidable (TablesComplete s a) :=
  match a with
  | .start _ _ _ => inferInstanceAs (Decidable (_ → _))
  | .stopRemoved _ | .runTask _ | .exits _ _ | .takeDrainStop _ | .drained _ _ => isTrue trivial

/-! ## Claims that keep two handles apart -/

structure Apart (g h : ExtHandle) : Prop where
  paths : ∀ path ∈ g.paths, path ∉ h.paths
  left : ∀ channel ∈ g.channels, firstChannelSegment channel ∉ h.paths
  right : ∀ channel ∈ h.channels, firstChannelSegment channel ∉ g.paths
  channels : ∀ c ∈ g.channels, ∀ d ∈ h.channels, channelPrefixesOverlap c d = false

variable {s t u : State} {a : Action} {g h handle : ExtHandle} {channel : String}

theorem Apart.symm (apart : Apart g h) : Apart h g := by
  constructor
  · intro path hp gp
    exact apart.paths path gp hp
  · exact apart.right
  · exact apart.left
  · intro c hc d hd
    have := apart.channels d hd c hc
    rwa [channelPrefixesOverlap, Bool.or_comm] at this

/-- The four ways in which both could own a channel are the four ways to collide. -/
theorem Apart.not_both (apart : Apart g h) (hg : g.owns channel) (hh : h.owns channel) : False := by
  obtain ⟨_, gOwns⟩ := validateEmittedChannel_ok_iff.mp hg
  obtain ⟨_, hOwns⟩ := validateEmittedChannel_ok_iff.mp hh
  cases gOwns with
  | inl gPath =>
    cases hOwns with
    | inl hPath => exact apart.paths _ gPath hPath
    | inr hIn =>
      obtain ⟨pre, mem, isIn⟩ := hIn
      rw [firstChannelSegment_of_isInPrefix isIn] at gPath
      exact apart.right pre mem gPath
  | inr gIn =>
    obtain ⟨pre, mem, isIn⟩ := gIn
    cases hOwns with
    | inl hPath =>
      rw [firstChannelSegment_of_isInPrefix isIn] at hPath
      exact apart.left pre mem hPath
    | inr hIn =>
      obtain ⟨other, mem', isIn'⟩ := hIn
      have overlap := channelPrefixesOverlap_of_isInPrefix isIn isIn'
      rw [apart.channels pre mem other mem'] at overlap
      cases overlap

/-- A newcomer that collides with no row is apart from whoever has all his rows. -/
theorem apart_of_noCollision
    (free : NoCollision g.id s.routes s.channelPrefixes g.paths g.channels)
    (routed : Routed s h) (ne : h.id ≠ g.id) : Apart g h := by
  constructor
  · intro path gp hp
    have taken := routed.1 path hp
    rw [free.routeFree path gp] at taken
    cases taken
  · intro channel mem hp
    exact ne (free.prefixApart channel mem h.id (routed.1 _ hp))
  · intro channel mem gp
    exact free.claimApart _ gp channel h.id (routed.2 channel mem) ne rfl
  · intro c hc d hd
    exact free.prefixDisjoint c hc d h.id (routed.2 d hd) ne

/-! ## What a step does to the tables -/

theorem registerExtension_ok (ok : registerExtension s handle = .ok u) :
    s.extensions.get? handle.id = none ∧
      validateRegistrationClaims handle.id s.routes s.channelPrefixes handle.paths
        handle.channels = .ok () ∧
      u = { s with
        extensions := s.extensions.insert handle.id handle
        routes := insertAll s.routes handle.paths handle.id
        channelPrefixes := insertAll s.channelPrefixes handle.channels handle.id } := by
  unfold registerExtension at ok
  split at ok
  · cases ok
  · rename_i absent
    split at ok
    · cases ok
    · split at ok
      · cases ok
      · rename_i valid
        cases ok
        exact ⟨by simpa using absent, valid, rfl⟩

/-- A section never adds a handle. -/
theorem run_extensions (op : Op) {id : String}
    (mem : (op.run s).1.extensions.get? id = some handle) :
    s.extensions.get? id = some handle := by
  cases op with
  | removeGeneration other generation reason mark =>
    simp only [Op.run] at mem
    split at mem
    · exact mem
    · split at mem
      · rw [OrdMap.get?_erase] at mem
        split at mem
        · cases mem
        · exact mem
      · exact mem
  | _ => exact mem

/-- A step registers an extension, runs a section, or leaves the tables alone. -/
theorem step_cases (hs : step s a = some t) :
    (∃ candidateId reg generation u supervisors tasks, a = .start candidateId reg generation ∧
      registerExtension s (newHandle candidateId reg generation) = .ok u ∧
      t = { u with supervisors := supervisors, tasks := tasks }) ∨
    (∃ i op rest tasks, a = .runTask i ∧ s.tasks[i]? = some (op :: rest) ∧
      t = { (op.run s).1 with tasks := tasks }) ∨
    (t.extensions = s.extensions ∧ t.routes = s.routes ∧
      t.channelPrefixes = s.channelPrefixes) := by
  cases a with
  | start candidateId reg generation =>
    simp only [step, startExtension, Option.some.injEq] at hs
    split at hs
    · subst hs
      exact .inr (.inr ⟨rfl, rfl, rfl⟩)
    · rename_i u ok
      subst hs
      exact .inl ⟨candidateId, reg, generation, u, _, _, rfl, ok, rfl⟩
  | stopRemoved desired =>
    cases hs
    exact .inr (.inr ⟨rfl, rfl, rfl⟩)
  | runTask i =>
    simp only [step] at hs
    split at hs
    · rename_i op rest task
      exact .inr (.inl ⟨i, op, rest, _, rfl, task, (Option.some.inj hs).symm⟩)
    · cases hs
  | exits i reason | takeDrainStop i | drained i reason =>
    simp only [step] at hs
    split at hs
    · split at hs
      · cases hs
        exact .inr (.inr ⟨rfl, rfl, rfl⟩)
      · cases hs
    · cases hs

/-- A step registers one handle or adds none. -/
theorem step_extensions (hs : step s a = some t) :
    (∀ id handle, t.extensions.get? id = some handle → s.extensions.get? id = some handle) ∨
    ∃ candidateId reg generation u, a = .start candidateId reg generation ∧
      registerExtension s (newHandle candidateId reg generation) = .ok u ∧
      t.extensions = u.extensions ∧ t.routes = u.routes ∧
      t.channelPrefixes = u.channelPrefixes := by
  obtain ⟨candidateId, reg, generation, u, _, _, rfl, ok, rfl⟩ | ⟨_, op, _, _, _, _, rfl⟩ |
    ⟨ext, _, _⟩ := step_cases hs
  · exact .inr ⟨candidateId, reg, generation, u, rfl, ok, rfl, rfl, rfl⟩
  · exact .inl fun id handle mem => run_extensions op mem
  · rw [ext]
    exact .inl fun id handle mem => mem

/-! ## When rows come and go -/

theorem get?_insertAll (m : OrdMap String String) (keys : List String) (value key : String) :
    (insertAll m keys value).get? key = if key ∈ keys then some value else m.get? key := by
  unfold insertAll
  induction keys generalizing m with
  | nil => simp
  | cons first rest ih =>
    rw [List.foldl_cons, ih, OrdMap.get?_insert]
    by_cases eq : key = first
    · simp [eq]
    · simp [eq]

theorem registered_routed (ok : registerExtension s handle = .ok u) : Routed u handle := by
  obtain ⟨_, _, rfl⟩ := registerExtension_ok ok
  constructor
  · intro path mem
    rw [get?_insertAll, if_pos mem]
  · intro channel mem
    rw [get?_insertAll, if_pos mem]

/-- A registration overwrites no row of another handle. -/
theorem register_keeps_rows (ok : registerExtension s g = .ok u) (ne : h.id ≠ g.id)
    (routed : Routed s h) : Routed u h := by
  obtain ⟨_, valid, rfl⟩ := registerExtension_ok ok
  have apart := apart_of_noCollision (noCollision_of_ok valid) routed ne
  constructor
  · intro path mem
    have fresh : path ∉ g.paths := fun gp => apart.paths path gp mem
    rw [get?_insertAll, if_neg fresh, routed.1 path mem]
  · intro channel mem
    have fresh : channel ∉ g.channels := by
      intro gc
      have := apart.channels channel gc channel mem
      simp [channelPrefixesOverlap, channelIsInPrefix] at this
    rw [get?_insertAll, if_neg fresh, routed.2 channel mem]

/-- The next section of some task drops rows of `id`. -/
def Unroutes (s : State) (id : String) : Action → Prop
  | .runTask i => ∃ rest, s.tasks[i]? = some (.dropRoutes id :: rest) ∨
      s.tasks[i]? = some (.dropPrefixes id :: rest)
  | _ => False

theorem retain_keeps {m : OrdMap String String} {key owner id : String} (ne : owner ≠ id)
    (row : m.get? key = some owner) :
    (m.retain fun _ owner => owner ≠ id).get? key = some owner := by
  rw [OrdMap.get?_retain_eq_some]
  exact ⟨row, by simpa using ne⟩

theorem run_keeps_rows (op : Op) (routed : Routed s h) (routes : op ≠ .dropRoutes h.id)
    (prefixes : op ≠ .dropPrefixes h.id) : Routed (op.run s).1 h := by
  cases op with
  | dropRoutes id =>
    have ne : h.id ≠ id := fun eq => routes (eq ▸ rfl)
    exact ⟨fun path mem => retain_keeps ne (routed.1 path mem), routed.2⟩
  | dropPrefixes id =>
    have ne : h.id ≠ id := fun eq => prefixes (eq ▸ rfl)
    exact ⟨routed.1, fun channel mem => retain_keeps ne (routed.2 channel mem)⟩
  | removeGeneration id generation reason mark =>
    simp only [Op.run]
    split
    · exact routed
    · split
      · exact routed
      · exact routed
  | _ => exact routed

/-- A registered handle loses rows only to an `unroute_extension` for its id. -/
theorem step_keeps_rows (hs : step s a = some t) (mem : s.extensions.get? h.id = some h)
    (routed : Routed s h) (kept : ¬ Unroutes s h.id a) : Routed t h := by
  obtain ⟨candidateId, reg, generation, u, _, _, rfl, ok, rfl⟩ | ⟨i, op, rest, _, rfl, task, rfl⟩ |
    ⟨_, routes, prefixes⟩ := step_cases hs
  · have ne : h.id ≠ (newHandle candidateId reg generation).id := by
      intro same
      have absent := (registerExtension_ok ok).1
      rw [← same, mem] at absent
      cases absent
    have rows := register_keeps_rows ok ne routed
    exact rows
  · apply run_keeps_rows op routed
    · rintro rfl
      exact kept ⟨rest, .inl task⟩
    · rintro rfl
      exact kept ⟨rest, .inr task⟩
  · unfold Routed
    rw [routes, prefixes]
    exact routed

/-- A handle of the table was there before, or has just registered its rows. -/
theorem step_new_routed (hs : step s a = some t) {id : String}
    (mem : t.extensions.get? id = some h) : s.extensions.get? id = some h ∨ Routed t h := by
  obtain kept | ⟨candidateId, reg, generation, u, _, ok, ext, routes, prefixes⟩ :=
    step_extensions hs
  · exact .inl (kept id h mem)
  · have new := registered_routed ok
    obtain ⟨_, _, rfl⟩ := registerExtension_ok ok
    rw [ext, OrdMap.get?_insert] at mem
    split at mem
    · cases mem
      unfold Routed
      rw [routes, prefixes]
      exact .inr new
    · exact .inl mem

/-! ## The invariant -/

/-- Handles stand under their ids, and different ones are apart. -/
structure Separate (s : State) : Prop where
  keyed : ∀ id handle, s.extensions.get? id = some handle → handle.id = id
  apart : ∀ id id' g h, s.extensions.get? id = some g → s.extensions.get? id' = some h →
    id ≠ id' → Apart g h

theorem separate_new : Separate .new := by
  constructor
  · intro id handle mem
    cases mem
  · intro id id' g h mem
    cases mem

theorem separate_register (inv : Separate s) (ok : registerExtension s handle = .ok u)
    (routed : ∀ h ∈ s.extensions.values, Routed s h) : Separate u := by
  obtain ⟨absent, valid, rfl⟩ := registerExtension_ok ok
  have free := noCollision_of_ok valid
  have newcomer : ∀ id h, s.extensions.get? id = some h → Apart handle h := by
    intro id h mem
    have key := inv.keyed id h mem
    apply apart_of_noCollision free (routed h ((s.extensions.mem_values_iff h).mpr ⟨id, mem⟩))
    rintro same
    rw [← same, key, mem] at absent
    cases absent
  constructor
  · intro id h mem
    rw [OrdMap.get?_insert] at mem
    split at mem
    · rename_i eq
      cases mem
      exact eq.symm
    · exact inv.keyed id h mem
  · intro id id' g h hg hh ne
    rw [OrdMap.get?_insert] at hg hh
    split at hg
    · cases hg
      split at hh
      · rename_i eq eq'
        exact absurd (eq.trans eq'.symm) ne
      · exact newcomer id' h hh
    · split at hh
      · cases hh
        exact (newcomer id g hg).symm
      · exact inv.apart id id' g h hg hh ne

theorem step_separate (inv : Separate s) (complete : TablesComplete s a)
    (hs : step s a = some t) : Separate t := by
  obtain kept | ⟨candidateId, reg, generation, u, rfl, ok, ext, _, _⟩ := step_extensions hs
  · constructor
    · exact fun id handle mem => inv.keyed id handle (kept id handle mem)
    · exact fun id id' g h hg hh => inv.apart id id' g h (kept id g hg) (kept id' h hh)
  · have valid := (registerExtension_ok ok).2.1
    have sep := separate_register inv ok (complete valid)
    constructor
    · rw [ext]; exact sep.keyed
    · rw [ext]; exact sep.apart

theorem exclusive_of_separate (inv : Separate s) : Exclusive s := by
  intro channel g hg h hh _ _ gOwns hOwns
  obtain ⟨id, hg⟩ := (s.extensions.mem_values_iff g).mp hg
  obtain ⟨id', hh⟩ := (s.extensions.mem_values_iff h).mp hh
  by_cases same : id = id'
  · rw [same, hh] at hg
    cases hg
    rfl
  · exact ((inv.apart id id' g h hg hh same).not_both gOwns hOwns).elim

/-- Along every run that accepts no registration while a handle of the table lacks rows,
no channel is open to two handles. -/
theorem namespace_exclusive (run : Reaches (· = State.new) step TablesComplete s) :
    Exclusive s := by
  apply exclusive_of_separate
  apply run.invariant Separate
  · rintro _ rfl
    exact separate_new
  · intro s a t _ inv complete hs
    exact step_separate inv complete hs

/-- No rows are dropped of an id that the table still has. -/
def UnroutesGone (s : State) (a : Action) : Prop :=
  ∀ handle ∈ s.extensions.values, ¬ Unroutes s handle.id a

theorem step_routed (inv : Separate s) (routed : ∀ h ∈ s.extensions.values, Routed s h)
    (gone : UnroutesGone s a) (hs : step s a = some t) :
    ∀ h ∈ t.extensions.values, Routed t h := by
  have old : ∀ id h, s.extensions.get? id = some h → Routed t h := by
    intro id h mem
    have inTable := (s.extensions.mem_values_iff h).mpr ⟨id, mem⟩
    have key := inv.keyed id h mem
    exact step_keeps_rows hs (key.symm ▸ mem) (routed h inTable) (gone h inTable)
  intro h inTable
  obtain ⟨id, mem⟩ := (t.extensions.mem_values_iff h).mp inTable
  obtain before | new := step_new_routed hs mem
  · exact old id h before
  · exact new

/-- Were an extension unrouted only once it is out of the table, no registration could
meet incomplete tables. -/
theorem tables_complete_of_gone (run : Reaches (· = State.new) step UnroutesGone s) :
    Separate s ∧ ∀ handle ∈ s.extensions.values, Routed s handle := by
  apply run.invariant fun s => Separate s ∧ ∀ handle ∈ s.extensions.values, Routed s handle
  · rintro _ rfl
    exact ⟨separate_new, fun handle mem => by cases mem⟩
  · intro s a t _ inv gone hs
    have complete : TablesComplete s a := by
      cases a with
      | start candidateId reg generation => exact fun _ => inv.2
      | _ => trivial
    exact ⟨step_separate inv.1 complete hs, step_routed inv.1 inv.2 gone hs⟩

/-- A reload swaps extension `a` for `b`, which claims the same channel; the drain of `a`
is over when `b` registers. -/
def swapAfterDrain : List Action :=
  [.start "a" ⟨"a", [], ["shared"]⟩ 1, .runTask 0, .runTask 0, .runTask 0, .stopRemoved ["b"],
    .runTask 1, .runTask 1, .runTask 1, .runTask 1, .takeDrainStop 0,
    .drained 0 "removed from config", .runTask 2, .runTask 2, .runTask 2,
    .start "b" ⟨"b", [], ["shared"]⟩ 2]

theorem namespace_exclusive_swap :
    ∃ s, exec (guarded TablesComplete step) .new swapAfterDrain = some s ∧
      s.extensions.keys = ["b"] ∧ Exclusive s := by
  have run : (exec (guarded TablesComplete step) .new swapAfterDrain).map
      (fun s => s.extensions.keys) = some ["b"] := by decide
  obtain ⟨s, hs, keys⟩ := Option.map_eq_some_iff.mp run
  exact ⟨s, hs, keys, namespace_exclusive (reaches_of_exec _ (.start rfl) hs)⟩

theorem not_exclusive_of_exec (actions : List Action) (g h : ExtHandle) (channel : String)
    (run : (exec (guarded (fun _ _ => True) step) .new actions).map (fun s =>
      (s.extensions.get? g.id, s.extensions.get? h.id)) = some (some g, some h))
    (ne : g ≠ h) (hg : g.owns channel) (hh : h.owns channel) :
    ¬ ∀ s, Reaches (· = State.new) step (fun _ _ => True) s → Exclusive s := by
  intro claim
  obtain ⟨s, hs, found⟩ := Option.map_eq_some_iff.mp run
  obtain ⟨foundG, foundH⟩ := Prod.mk.inj found
  apply ne
  apply claim s (reaches_of_exec _ (.start rfl) hs) channel
  · exact (s.extensions.mem_values_iff g).mpr ⟨g.id, foundG⟩
  · exact (s.extensions.mem_values_iff h).mpr ⟨h.id, foundH⟩
  · simp [State.extensionIsActive, foundG]
  · simp [State.extensionIsActive, foundH]
  · exact hg
  · exact hh

/-- The same reload, but `b` registers while `a` drains: `a` has no row left and still
emits on the channel. -/
theorem draining_extension_shares_channel :
    ¬ ∀ s, Reaches (· = State.new) step (fun _ _ => True) s → Exclusive s :=
  not_exclusive_of_exec
    [.start "a" ⟨"a", [], ["shared"]⟩ 1, .runTask 0, .runTask 0, .runTask 0, .stopRemoved ["b"],
      .runTask 1, .runTask 1, .runTask 1, .runTask 1, .takeDrainStop 0,
      .start "b" ⟨"b", [], ["shared"]⟩ 2]
    ⟨"a", "a", 1, ["a"], ["shared"]⟩ ⟨"b", "b", 2, ["b"], ["shared"]⟩ "shared.x"
    (by decide) (by decide) (by decide) (by decide)

-- No drain is needed: the cleanup of a crashed generation drops the rows of the next one,
-- which registered between its two sections.
example : ¬ ∀ s, Reaches (· = State.new) step (fun _ _ => True) s → Exclusive s :=
  not_exclusive_of_exec
    [.start "a" ⟨"a", [], ["shared"]⟩ 1, .runTask 0, .runTask 0, .runTask 0, .exits 0 "crashed",
      .runTask 1, .runTask 1, .start "a2" ⟨"a", [], ["shared"]⟩ 2, .runTask 1,
      .start "b" ⟨"b", [], ["shared"]⟩ 3]
    ⟨"a2", "a", 2, ["a"], ["shared"]⟩ ⟨"b", "b", 3, ["b"], ["shared"]⟩ "shared.x"
    (by decide) (by decide) (by decide) (by decide)

end Whdr.Lifecycle
