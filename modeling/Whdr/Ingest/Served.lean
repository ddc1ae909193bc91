import Mathlib.Data.Finset.Card
import Mathlib.Data.Finset.Range
import Whdr.Ingest.Health
import Whdr.Lib.Progress

/-! While its extensions are up, the daemon answers every webhook by itself: whatever order its
tasks and the children go in, the steps run out, and no request was left to its timeout. -/
namespace Whdr.Ingest

open Whdr.Configuration (Config)
open Ndjson (decodeLine_render)
open Runs (Reaches Settles Stuck settles reaches_of_exec)
open Wire (toJson uuidSize)

variable {setup : Setup} {s t u : State} {n : Nat} {q q' : Request} {g reqId : Uuid} {l : Link}

/-- The request has no answer yet, and its timeout has not struck. -/
def Stage.isOpen : Stage → Bool
  | .timedOut | .answered _ | .dropped => false
  | _ => true

/-- The requests that were open have an answer: it was declined before it got a reservation, or
its extension made it, and what it emitted was fanned out once. -/
def Served (setup : Setup) (s t : State) : Prop :=
  ∀ n q, s.requests.get? n = some q → q.stage.isOpen = true →
    ∃ q' response, t.requests.get? n = some q' ∧ q'.http = q.http ∧
      q'.stage = .answered response ∧
      (q'.ticket = none ∧ t.fannedFor n = [] ∧ Declined t q.http response ∨
        ∃ reply, Emitted setup t n q' reply ∧ response = httpReplyToResponse setup.http reply)

/-! ## Open requests -/

/-- The request is on its way to an answer, or was declined before a reservation, or its
result was fanned out. -/
def Fair (s : State) (n : Nat) (q : Request) : Prop :=
  match q.stage with
  | .timedOut | .dropped => False
  | .answered response => q.ticket = none ∧ Declined s q.http response ∨ s.fannedFor n ≠ []
  | _ => True

/-- The requests that were open then. -/
def Kept (s t : State) : Prop :=
  ∀ n q, s.requests.get? n = some q → q.stage.isOpen = true →
    ∃ q', t.requests.get? n = some q' ∧ q'.http = q.http ∧ Fair t n q'

theorem kept_refl (s : State) : Kept s s := by
  intro n q found isOpen
  refine ⟨q, found, rfl, ?_⟩
  unfold Fair
  cases stage : q.stage with
  | timedOut | answered | dropped =>
    rw [stage] at isOpen
    cases isOpen
  | arrived | keyed | routed | handled | cloned | sending | waiting | fanning => trivial

theorem Fair.of_early (early : q.stage.early = true) : Fair s n q := by
  unfold Fair
  cases stage : q.stage with
  | arrived | keyed | routed | handled | cloned => trivial
  | sending | waiting | timedOut | fanning | answered | dropped =>
    rw [stage] at early
    cases early

theorem Fair.of_grows (fair : Fair s n q) (config : t.config = s.config)
    (fanned : s.fanned ⊆ t.fanned) : Fair t n q := by
  unfold Fair at fair ⊢
  split
  · rename_i stage
    rw [stage] at fair
    exact fair
  · rename_i stage
    rw [stage] at fair
    exact fair
  · rename_i response stage
    rw [stage] at fair
    obtain ⟨free, declined⟩ | some := fair
    · refine .inl ⟨free, ?_⟩
      cases declined with
      | tooLarge large => exact .tooLarge (config ▸ large)
      | noRoute noKey => exact .noRoute noKey
      | notFound => exact .notFound
      | starting => exact .starting
      | busy => exact .busy
    · obtain ⟨b, mem⟩ := List.exists_mem_of_ne_nil _ some
      refine .inr (List.ne_nil_of_mem (a := b) ?_)
      obtain ⟨inside, isFor⟩ := List.mem_filter.mp mem
      exact List.mem_filter.mpr ⟨fanned inside, isFor⟩
  · trivial

/-- What a step leaves of the requests. -/
theorem Kept.next (kept : Kept s t) (config : u.config = t.config) (fanned : t.fanned ⊆ u.fanned)
    (moves : ∀ m q, t.requests.get? m = some q → Fair t m q →
      ∃ q', u.requests.get? m = some q' ∧ q'.http = q.http ∧ (q' = q ∨ Fair u m q')) :
    Kept s u := by
  intro n q found isOpen
  obtain ⟨q₁, found₁, http, fair⟩ := kept n q found isOpen
  obtain ⟨q₂, found₂, http', rfl | fair'⟩ := moves n q₁ found₁ fair
  · exact ⟨q₂, found₂, http, fair.of_grows config fanned⟩
  · exact ⟨q₂, found₂, http'.trans http, fair'⟩

theorem Kept.put (kept : Kept s t) (found : t.requests.get? n = some q) (http : q'.http = q.http)
    (fair : Fair t n q → Fair t n q') : Kept s (t.put n q') := by
  apply kept.next (u := t.put n q') rfl (List.Subset.refl _)
  intro m p foundP fairP
  by_cases same : m = n
  · subst same
    rw [found] at foundP
    cases foundP
    have next : Fair (t.put m q') m q' := (fair fairP).of_grows rfl (List.Subset.refl _)
    exact ⟨q', t.requests.get?_insert_self m q', http, .inr next⟩
  · exact ⟨p, (t.requests.get?_insert_ne q' same).trans foundP, rfl, .inl rfl⟩

theorem Kept.of_eq (kept : Kept s t) (config : u.config = t.config) (fanned : t.fanned ⊆ u.fanned)
    (requests : u.requests = t.requests) : Kept s u := by
  apply kept.next config fanned
  intro m q found _
  exact ⟨q, requests ▸ found, rfl, .inl rfl⟩

theorem release_config (s : State) (q : Request) : (release s q).config = s.config := by
  unfold release
  split
  · rfl
  · split <;> rfl

theorem early_free (valid : Valid setup s) (found : s.requests.get? n = some q)
    (early : q.stage.early = true) : q.ticket = none := by
  have told := (valid.requests n q found).told
  unfold Told at told
  cases stage : q.stage with
  | arrived =>
    simp only [stage] at told
    exact told.2
  | keyed | routed | handled | cloned =>
    simp only [stage] at told
    exact told.2.1
  | sending | waiting | timedOut | fanning | answered | dropped =>
    rw [stage] at early
    cases early

theorem advance_kept {a : RequestAction} (inner : Inner (.request n a)) (kept : Kept s t)
    (healthy : Healthy t) (valid : Valid setup t) (found : t.requests.get? n = some q)
    (hs : advance setup t n q a = some u) : Kept s u := by
  cases advance_moves hs with
  | decline _ response early declined =>
    have free := early_free valid found early
    exact kept.put (q := q) found rfl fun _ => .inl ⟨free, declined⟩
  | forward _ stage ahead =>
    exact kept.put (q := q) found rfl fun _ => Fair.of_early ahead.early.2
  | reserve g reqId config l window =>
    have next : Kept s (t.putLink g { l with window := window.insert reqId n }) :=
      kept.of_eq rfl (List.Subset.refl _) rfl
    exact next.put (q := q) found rfl fun _ => trivial
  | send g reqId l msg =>
    have next : Kept s (t.putLink g { l with queue := l.queue ++ [msg] }) :=
      kept.of_eq rfl (List.Subset.refl _) rfl
    exact next.put (q := q) found rfl fun _ => trivial
  | receive g reqId l result events violations =>
    have next : Kept s { t.putLink g { l with namespaceViolations := violations } with
        fanned := t.fanned ++ [Batch.mk g (some n) events] } :=
      kept.of_eq rfl (List.subset_append_left _ _) rfl
    exact next.put (q := q) found rfl fun _ => trivial
  | removePending stage =>
    have next : Kept s (release t q) := kept.of_eq (release_config t q)
      (release_fanned t q ▸ List.Subset.refl _) (release_requests t q)
    have found' := (congrArg (·.get? n) (release_requests t q)).trans found
    refine next.put (q := q) found' rfl fun fair => ?_
    rw [Fair, stage] at fair
    exact fair.elim
  | dead stage slot gone =>
    rw [healthy.awaited n q found (by rw [stage]; rfl) slot] at gone
    cases gone
  | respond reply stage =>
    have told := (valid.requests n q found).told
    simp only [Told, stage] at told
    obtain ⟨g, reqId, l, events, _, _, _, once⟩ := told
    refine kept.put (q := q) found rfl fun _ => .inr ?_
    rw [once]
    exact List.cons_ne_nil _ _
  | sendFails | timeout | cancelReserved | cancel => exact inner.elim

theorem sendResult_kept {result : ExtResult} (kept : Kept s t) :
    Kept s (sendResult t g l n result) := by
  have next : Kept s (t.putLink g { l with reader := none }) :=
    kept.of_eq rfl (List.Subset.refl _) rfl
  unfold sendResult
  dsimp only
  split
  · rename_i q found
    split
    · exact next.put (q := q) found rfl fun fair => fair
    · exact next
  · exact next

theorem runLink_kept {a : LinkAction} (inner : Inner (.link g a)) (kept : Kept s t)
    (hs : runLink setup t g l a = some u) : Kept s u := by
  cases a with
  | write =>
    simp only [runLink] at hs
    split at hs
    · cases hs
    · cases hs
      exact kept.of_eq rfl (List.Subset.refl _) rfl
  | print line =>
    simp only [runLink] at hs
    split at hs
    · cases hs
      exact kept.of_eq rfl (List.Subset.refl _) rfl
    · cases hs
  | readLine =>
    simp only [runLink] at hs
    split at hs
    · split at hs
      · cases hs
      · cases hs
        exact kept.of_eq rfl (List.subset_append_left _ _) rfl
    · cases hs
  | sendResult =>
    simp only [runLink] at hs
    split at hs
    · cases hs
    · cases hs
      exact sendResult_kept kept
  | shutdown | clear => exact inner.elim

/-! ## What there was before -/

/-- Nothing came in: the configurations, the tables, the generations and the requests are those
there were. -/
structure Within (s t : State) : Prop where
  configs : t.configs = s.configs
  tables : t.tables = s.tables
  tabled : t.tabled = s.tabled
  links : ∀ g l', t.links.get? g = some l' → ∃ l, s.links.get? g = some l ∧ l.handle = l'.handle
  requests : ∀ n q', t.requests.get? n = some q' → ∃ q, s.requests.get? n = some q ∧
    q.http = q'.http ∧ (q.ticket = q'.ticket ∨ q.stage.early = true) ∧
    (q'.stage.early = true → q.stage.early = true)

theorem within_refl (s : State) : Within s s :=
  ⟨rfl, rfl, rfl, fun _ l link => ⟨l, link, rfl⟩, fun _ q found => ⟨q, found, rfl, .inl rfl, id⟩⟩

theorem Within.put (within : Within s t) (found : t.requests.get? n = some q)
    (http : q'.http = q.http) (ticket : q'.ticket = q.ticket ∨ q.stage.early = true)
    (early : q'.stage.early = true → q.stage.early = true) : Within s (t.put n q') := by
  refine ⟨within.configs, within.tables, within.tabled, within.links, fun m p foundP => ?_⟩
  by_cases same : m = n
  · subst same
    rw [State.put, OrdMap.get?_insert_self] at foundP
    cases foundP
    obtain ⟨q₀, found₀, http₀, ticket₀, early₀⟩ := within.requests m q found
    refine ⟨q₀, found₀, http₀.trans http.symm, ?_, fun now => early₀ (early now)⟩
    obtain keeps | free := ticket
    · rw [keeps]
      exact ticket₀
    · exact .inr (early₀ free)
  · exact within.requests m p ((t.requests.get?_insert_ne q' same).symm.trans foundP)

theorem Within.putLink {l' : Link} (within : Within s t) (link : t.links.get? g = some l)
    (handle : l'.handle = l.handle) : Within s (t.putLink g l') := by
  refine ⟨within.configs, within.tables, within.tabled, fun h k found => ?_, within.requests⟩
  by_cases same : h = g
  · subst same
    rw [State.putLink, OrdMap.get?_insert_self] at found
    cases found
    obtain ⟨l₀, link₀, handle₀⟩ := within.links h l link
    exact ⟨l₀, link₀, handle₀.trans handle.symm⟩
  · exact within.links h k ((t.links.get?_insert_ne l' same).symm.trans found)

theorem Within.fan {batches : List Batch} (within : Within s t) :
    Within s { t with fanned := batches } :=
  ⟨within.configs, within.tables, within.tabled, within.links, within.requests⟩

theorem Within.release (within : Within s t) (q : Request) : Within s (release t q) := by
  unfold Ingest.release
  split
  · exact within
  · split
    · exact within
    · rename_i l link
      exact within.putLink link rfl

theorem advance_within {a : RequestAction} (inner : Inner (.request n a)) (within : Within s t)
    (found : t.requests.get? n = some q) (hs : advance setup t n q a = some u) : Within s u := by
  cases advance_moves hs with
  | decline | dead | respond => exact within.put found rfl (.inl rfl) (by rintro ⟨⟩)
  | forward _ stage ahead => exact within.put found rfl (.inl rfl) fun _ => ahead.early.1
  | reserve g reqId config l window stage _ _ link =>
    have next : Within s (t.putLink g { l with window := window.insert reqId n }) :=
      within.putLink link rfl
    exact next.put (q := q) found rfl (.inr (by rw [stage]; rfl)) (by rintro ⟨⟩)
  | send g reqId l msg stage ticket link =>
    have next : Within s (t.putLink g { l with queue := l.queue ++ [msg] }) :=
      within.putLink link rfl
    exact next.put (q := q) found rfl (.inl rfl) (by rintro ⟨⟩)
  | receive g reqId l result events violations stage slot ticket link =>
    have next : Within s (t.putLink g { l with namespaceViolations := violations }) :=
      within.putLink link rfl
    exact next.fan.put (q := q) found rfl (.inl rfl) (by rintro ⟨⟩)
  | removePending stage =>
    have found' := (congrArg (·.get? n) (release_requests t q)).trans found
    exact (within.release q).put (q := q) found' rfl (.inl rfl) (by rintro ⟨⟩)
  | sendFails | timeout | cancelReserved | cancel => exact inner.elim

theorem runLink_within {a : LinkAction} (within : Within s t) (valid : Valid setup t)
    (link : t.links.get? g = some l) (hs : runLink setup t g l a = some u) : Within s u := by
  cases a with
  | write =>
    simp only [runLink] at hs
    split at hs
    · cases hs
    · cases hs
      exact within.putLink link rfl
  | shutdown | print =>
    simp only [runLink] at hs
    split at hs
    · cases hs
      exact within.putLink link rfl
    · cases hs
  | readLine =>
    simp only [runLink] at hs
    split at hs
    · split at hs
      · cases hs
      · rename_i line at'
        cases hs
        have handle := (readLine_link valid link (List.mem_of_getElem? at')).1
        exact (within.putLink link handle).fan
    · cases hs
  | sendResult =>
    simp only [runLink] at hs
    split at hs
    · cases hs
    · cases hs
      rename_i m result _
      have next : Within s (t.putLink g { l with reader := none }) := within.putLink link rfl
      unfold sendResult
      dsimp only
      split
      · rename_i q found
        split
        · exact next.put found rfl (.inl rfl) id
        · exact next
      · exact next
  | clear =>
    cases hs
    exact within.putLink link rfl

/-! ## Where the steps run out -/

/-- A working child that has nothing left to do has answered all it was sent, and the daemon has
read all of it. -/
theorem stuck_link {child : Kit} (valid : Valid setup s) (flows : Flows s)
    (correct : ∀ j : Json, j.Fits → setup.read j.render = some j)
    (isKit : setup.programs g = .kit child)
    (replies : ∀ n q reqId, s.requests.get? n = some q → q.ticket = some (g, reqId) →
      RepliesTo setup s child l q.http)
    (stuck : Stuck (step setup) (fun _ a => Inner a) s) (link : s.links.get? g = some l)
    (working : Working s.tables g l) :
    l.queue = [] ∧ l.reader = none ∧ l.linesRead = l.stdin.length := by
  have idle : ∀ a, Inner (.link g a) → runLink setup s g l a = none := by
    intro a inner
    cases hs : runLink setup s g l a with
    | none => rfl
    | some t => exact absurd (by simp [step, link, hs]) (stuck (.link g a) t inner)
  have queue : l.queue = [] := by
    have none := idle .write trivial
    simp only [runLink] at none
    split at none
    · assumption
    · cases none
  have reader : l.reader = none := by
    have none := idle .sendResult trivial
    simp only [runLink] at none
    split at none
    · assumption
    · cases none
  have all : (Ext.serve setup.read child.handle l.stdin).1.length = l.stdin.length := by
    apply serve_all
    intro line mem
    obtain ⟨msg, rfl, sent⟩ := (valid.links g l link).stdin line mem
    obtain rfl | ⟨n, q, reqId, found, ticket, config, inForce, rfl⟩ := sent
    · exact absurd mem working.stdin
    · have small := ((valid.requests n q found).routed g reqId ticket).2
      have ok := replies n q reqId found ticket reqId config inForce
      cases answered : child.handle (.dispatch (dispatchMsg setup.http setup.b64Encode q.http reqId
          (config.secrets.get? l.handle.id))) with
      | error stop =>
        rw [answered] at ok
        cases ok
      | ok reply => exact ⟨_, reply, (decodeLine_render correct small).1, answered⟩
  have printed : l.stdout.length = l.stdin.length := by
    have inside := (valid.links g l link).stdout child isKit
    have bound := inside.length_le
    rw [List.length_map, all] at bound
    by_cases short : l.stdout.length = l.stdin.length
    · exact short
    · -- there is one more result to print
      obtain ⟨rest, eq⟩ := inside
      cases rest with
      | nil =>
        have same := congrArg List.length eq
        rw [List.append_nil, List.length_map, all] at same
        exact same
      | cons line rest =>
        have none := idle (.print line) trivial
        have prints : (setup.programs g).prints setup.read l.stdin l.stdout line = true := by
          rw [isKit, Program.prints]
          exact List.isPrefixOf_iff_prefix.mpr ⟨rest, by rw [← eq]; simp⟩
        simp only [runLink, prints, if_true] at none
        cases none
  refine ⟨queue, reader, ?_⟩
  have read := (flows g l link).read
  by_cases short : l.linesRead < l.stdout.length
  · have none := idle .readLine trivial
    simp only [runLink, working.reading, reader, Option.isNone_none, Bool.and_self, if_true,
      List.getElem?_eq_getElem short] at none
    cases none
  · omega

/-- There is an id that no request has. -/
theorem exists_unused (ids : s.requests.size < uuidSize) :
    ∃ reqId, reqId < uuidSize ∧ s.unused reqId = true := by
  have used : (s.requests.values.filterMap fun q => q.ticket.map Prod.snd).toFinset.card <
      (Finset.range uuidSize).card := by
    have length : s.requests.values.length = s.requests.size := List.length_map _
    have some := List.length_filterMap_le (fun q : Request => q.ticket.map Prod.snd) s.requests.values
    have card := List.toFinset_card_le (s.requests.values.filterMap fun q => q.ticket.map Prod.snd)
    rw [Finset.card_range]
    omega
  obtain ⟨reqId, small, fresh⟩ := Finset.exists_mem_notMem_of_card_lt_card used
  refine ⟨reqId, Finset.mem_range.mp small, List.all_eq_true.mpr fun q inside => ?_⟩
  cases ticket : q.ticket with
  | none => rfl
  | some pair =>
    have apart : pair.2 ≠ reqId := by
      rintro rfl
      apply fresh
      rw [List.mem_toFinset, List.mem_filterMap]
      exact ⟨q, inside, by rw [ticket]; rfl⟩
    simpa using apart

/-- All that holds while the daemon works on. -/
structure Going (setup : Setup) (s t : State) : Prop where
  valid : Valid setup t
  flows : Flows t
  healthy : Healthy t
  kept : Kept s t
  within : Within s t

theorem step_going {a : Action} (correct : ∀ j : Json, j.Fits → setup.read j.render = some j)
    (kits : AllKit setup) (going : Going setup s t) (inner : Inner a)
    (hs : step setup t a = some u) : Going setup s u ∧ u.work < t.work := by
  obtain ⟨valid, flows, healthy, kept, within⟩ := going
  have valid' := step_valid valid hs
  have flows' := step_flows flows valid correct kits hs
  cases a with
  | request n a =>
    obtain ⟨q, found, hs⟩ := Option.bind_eq_some_iff.mp hs
    exact ⟨⟨valid', flows', advance_healthy inner healthy valid found hs,
      advance_kept inner kept healthy valid found hs, advance_within inner within found hs⟩,
      advance_work inner found hs⟩
  | link g a =>
    obtain ⟨l, link, hs⟩ := Option.bind_eq_some_iff.mp hs
    exact ⟨⟨valid', flows', runLink_healthy inner healthy valid correct kits link hs,
      runLink_kept inner kept hs, runLink_within within valid link hs⟩,
      runLink_work inner valid flows kits link hs⟩
  | arrive | start | setTables | reload => exact inner.elim

/-- A child that is up now was up, and the requests there are for it are those there were. -/
theorem going_replies {child : Kit} (going : Going setup s t) (up : Healthy s)
    (steady : Steady setup s) (isKit : setup.programs g = .kit child)
    (link : t.links.get? g = some l) (working : Working t.tables g l) (n : Nat) (q : Request)
    (reqId : Uuid) (found : t.requests.get? n = some q) (ticket : q.ticket = some (g, reqId)) :
    RepliesTo setup t child l q.http := by
  obtain ⟨valid, -, -, -, within⟩ := going
  obtain ⟨l₀, link₀, handle⟩ := within.links g l link
  obtain ⟨l₁, link₁, working₀⟩ := up.listed l.handle.id g (within.tables ▸ working.listed)
  rw [link₀] at link₁
  cases link₁
  obtain ⟨q₀, found₀, http, origin, -⟩ := within.requests n q found
  have bound : Bound s q₀ g := by
    obtain same | early := origin
    · exact .inl ⟨reqId, same.trans ticket⟩
    · refine .inr ⟨early, ?_⟩
      have routed := ((valid.requests n q found).routed g reqId ticket).1
      unfold Routed at routed ⊢
      rw [http, ← within.tabled]
      exact routed
  intro r config inForce
  have replies := steady.replies g child l₀ n q₀ isKit link₀ working₀ found₀ bound r config
    (within.configs ▸ inForce)
  rwa [http, handle] at replies

theorem stuck_idle (going : Going setup s t) (up : Healthy s) (steady : Steady setup s)
    (correct : ∀ j : Json, j.Fits → setup.read j.render = some j)
    (stuck : Stuck (step setup) (fun _ a => Inner a) t) (link : t.links.get? g = some l)
    (working : Working t.tables g l) :
    l.queue = [] ∧ l.reader = none ∧ l.linesRead = l.stdin.length := by
  obtain ⟨child, isKit⟩ := steady.kits g
  exact stuck_link going.valid going.flows correct isKit
    (going_replies going up steady isKit link working) stuck link working

/-- A waiting request is not left alone. -/
theorem stuck_waiting (going : Going setup s t) (up : Healthy s) (steady : Steady setup s)
    (correct : ∀ j : Json, j.Fits → setup.read j.render = some j)
    (stuck : Stuck (step setup) (fun _ a => Inner a) t) (found : t.requests.get? n = some q)
    (stage : q.stage = .waiting) (slot : q.slot = none) : False := by
  have ⟨_, flows, healthy, _, _⟩ := going
  have alive := healthy.awaited n q found (by rw [stage]; rfl) slot
  obtain ⟨g, reqId, l, ticket, link, reserves⟩ := senderAlive_iff.mp alive
  have owes : q.generation = some g := by
    rw [Request.generation, stage, ticket]
    rfl
  obtain ⟨l', link', working⟩ := healthy.owing n q g found owes
  rw [link] at link'
  cases link'
  obtain ⟨queue, reader, read⟩ := stuck_idle going up steady correct stuck link working
  obtain entry | ⟨_, held⟩ := reserves
  · obtain ⟨m, _, queued | written⟩ | ⟨p, msg, foundP, sending⟩ :=
      (flows g l link).pending working.reading reqId n entry
    · rw [queue] at queued
      cases queued
    · rw [read, List.drop_length] at written
      cases written
    · rw [found] at foundP
      cases foundP
      rw [stage] at sending
      cases sending
  · rw [reader] at held
    cases held

theorem stuck_sending {msg : SrvMsg} (going : Going setup s t) (up : Healthy s)
    (steady : Steady setup s)
    (correct : ∀ j : Json, j.Fits → setup.read j.render = some j)
    (stuck : Stuck (step setup) (fun _ a => Inner a) t) (found : t.requests.get? n = some q)
    (stage : q.stage = .sending msg) : False := by
  have ⟨valid, flows, healthy, _, _⟩ := going
  have told := (valid.requests n q found).told
  simp only [Told, stage] at told
  obtain ⟨_, g, reqId, l, ticket, link, _⟩ := told
  have owes : q.generation = some g := by
    rw [Request.generation, stage, ticket]
    rfl
  obtain ⟨l', link', working⟩ := healthy.owing n q g found owes
  rw [link] at link'
  cases link'
  obtain ⟨queue, -, -⟩ := stuck_idle going up steady correct stuck link working
  -- there is room in the channel
  have room : l.queue.length < l.capacity := by
    rw [queue]
    exact (flows g l link).room
  have some : (step setup t (.request n .send)).isSome = true := by
    simp only [step, found, Option.bind_some, advance, stage, send, ticket, link, room, if_true,
      Option.isSome_some]
  obtain ⟨u, hs⟩ := Option.isSome_iff_exists.mp some
  exact stuck (.request n .send) u trivial hs

theorem stuck_cloned {config : Config} (going : Going setup s t)
    (stuck : Stuck (step setup) (fun _ a => Inner a) t) (found : t.requests.get? n = some q)
    (stage : q.stage = .cloned g config) : False := by
  obtain ⟨l, link, -⟩ := going.healthy.owing n q g found (by rw [Request.generation, stage])
  obtain ⟨reqId, small, unused⟩ := exists_unused going.healthy.ids
  have some : (step setup t (.request n (.reserve reqId))).isSome = true := by
    simp only [step, found, Option.bind_some, advance, stage, reserve, unused, small, link,
      decide_true, Bool.and_self, Bool.not_true, Bool.false_eq_true, if_false]
    split <;> rfl
  obtain ⟨u, hs⟩ := Option.isSome_iff_exists.mp some
  exact stuck (.request n (.reserve reqId)) u trivial hs

/-- Where no step is left, every request that was open is answered. -/
theorem stuck_served (going : Going setup s t) (up : Healthy s) (steady : Steady setup s)
    (correct : ∀ j : Json, j.Fits → setup.read j.render = some j)
    (stuck : Stuck (step setup) (fun _ a => Inner a) t) : Served setup s t := by
  intro n q₀ found₀ isOpen
  obtain ⟨q, found, http, fair⟩ := going.kept n q₀ found₀ isOpen
  have still : ∀ a, Inner (.request n a) → (advance setup t n q a).isSome = true → False := by
    intro a inner some
    obtain ⟨u, hs⟩ := Option.isSome_iff_exists.mp some
    exact stuck (.request n a) u inner (by simp [step, found, hs])
  have valid := going.valid
  cases stage : q.stage with
  | arrived =>
    refine (still .ingest trivial ?_).elim
    simp only [advance, stage]
    split
    · rfl
    · split <;> rfl
  | keyed routeKey =>
    refine (still .findRoute trivial ?_).elim
    simp only [advance, stage]
    split <;> rfl
  | routed extId =>
    refine (still .findHandle trivial ?_).elim
    simp only [advance, stage]
    split <;> rfl
  | handled g =>
    refine (still .cloneConfig trivial ?_).elim
    simp only [advance, stage, Option.isSome_some]
  | cloned g config => exact (stuck_cloned going stuck found stage).elim
  | sending msg => exact (stuck_sending going up steady correct stuck found stage).elim
  | waiting =>
    cases slot : q.slot with
    | none => exact (stuck_waiting going up steady correct stuck found stage slot).elim
    | some result =>
      refine (still .receive trivial ?_).elim
      obtain ⟨g, reqId, l, _, ticket, link, _⟩ := (valid.requests n q found).held result slot
      simp only [advance, stage, slot, receive, ticket, link, Option.isSome_some]
  | fanning reply =>
    refine (still .respond trivial ?_).elim
    simp only [advance, stage, Option.isSome_some]
  | timedOut | dropped =>
    rw [Fair, stage] at fair
    exact fair.elim
  | answered response =>
    refine ⟨q, response, found, http, stage, ?_⟩
    rw [Fair, stage] at fair
    have told := (valid.requests n q found).told
    simp only [Told, stage] at told
    obtain ⟨nothing, _⟩ | ⟨reply, replied, eq⟩ := told
    · obtain ⟨free, declined⟩ | some := fair
      · exact .inl ⟨free, nothing, http ▸ declined⟩
      · exact absurd nothing some
    · exact .inr ⟨reply, valid.emitted correct found replied, eq⟩

/-- Where every extension is up and replies to the requests there are for it, no webhook is left
to its timeout: in whatever order handlers, tasks and children go on, the steps run out after a
bounded number, and then every open request was declined or has the answer of its extension. -/
theorem webhooks_served (setup : Setup)
    (correct : ∀ j : Json, j.Fits → setup.read j.render = some j) (s : State)
    (run : Reaches Starts (step setup) (fun _ _ => True) s) (healthy : Healthy s)
    (steady : Steady setup s) :
    Settles (step setup) (fun _ a => Inner a) (Served setup s) s.work s := by
  have known : Valid setup s ∧ Flows s :=
    run.invariant (fun s => Valid setup s ∧ Flows s)
      (fun _ starts => ⟨starts_valid starts, starts_flows starts⟩)
      fun _ _ _ _ known _ hs =>
        ⟨step_valid known.1 hs, step_flows known.2 known.1 correct steady.kits hs⟩
  have lowers : ∀ t a u, Going setup s t → Inner a → step setup t a = some u →
      Going setup s u ∧ u.work < t.work :=
    fun _ _ _ going inner hs => step_going correct steady.kits going inner hs
  apply settles lowers
  · exact fun _ going stuck => stuck_served going healthy steady correct stuck
  · exact ⟨known.1, known.2, healthy, kept_refl s, within_refl s⟩

/-- The extension runs, and a request has arrived. -/
def posted : State :=
  let tables : Tables :=
    ⟨OrdMap.empty.insert "a" "a", OrdMap.empty.insert "a" 7, [], []⟩
  ⟨.default, [.default], tables, [tables, ⟨.empty, .empty, [], []⟩],
    OrdMap.empty.insert 7 (newLink ⟨"a", "a", 7, ["a"], []⟩ Config.default.limits.maxInFlight),
    OrdMap.empty.insert 0
      ⟨⟨"POST", "/a/x", none, [("user-agent", [99])], [1, 2]⟩, .arrived, none, none⟩, []⟩

theorem healthy_posted : Healthy posted where
  listed extId g listed := by
    simp only [posted, OrdMap.get?_insert, OrdMap.get?_empty] at listed
    split at listed
    · cases listed
      exact ⟨_, OrdMap.get?_insert_self _ _ _, rfl, OrdMap.get?_insert_self _ _ _,
        List.not_mem_nil, List.not_mem_nil⟩
    · cases listed
  owing n q g found owes := by
    simp only [posted, OrdMap.get?_insert, OrdMap.get?_empty] at found
    split at found
    · cases found
      cases owes
    · cases found
  awaited n q found awaits := by
    simp only [posted, OrdMap.get?_insert, OrdMap.get?_empty] at found
    split at found
    · cases found
      cases awaits
    · cases found
  ids := by
    change 1 < uuidSize
    decide

theorem webhooks_served_one_post :
    (∀ j : Json, j.Fits → pushing.read j.render = some j) ∧
      Reaches Starts (step pushing) (fun _ _ => True) posted ∧ Healthy posted ∧
      Steady pushing posted ∧
      (posted.requests.get? 0).map (fun q => q.stage.isOpen) = some true ∧
      Settles (step pushing) (fun _ a => Inner a) (Served pushing posted) 12 posted := by
  have steady : Steady pushing posted :=
    ⟨fun _ => ⟨pushed, rfl⟩, by rintro g child l n q ⟨⟩ _ _ _ _ reqId config _; rfl⟩
  have run : Reaches Starts (step pushing) (fun _ _ => True) posted :=
    reaches_of_exec [.start ⟨"a", "a", 7, ["a"], []⟩,
      .setTables ⟨OrdMap.empty.insert "a" "a", OrdMap.empty.insert "a" 7, [], []⟩,
      .arrive 0 ⟨"POST", "/a/x", none, [("user-agent", [99])], [1, 2]⟩]
      (.start (s := started) ⟨rfl, rfl, rfl, rfl, rfl⟩) rfl
  exact ⟨Json.read_render, run, healthy_posted, steady, rfl,
    webhooks_served pushing Json.read_render posted run healthy_posted steady⟩

end Whdr.Ingest
