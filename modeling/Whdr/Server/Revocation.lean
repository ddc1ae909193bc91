import Whdr.Lib.Runs
import Whdr.Server.TokenAtomicity
import Whdr.Server.TokenPlane

/-! Revocation reaches every connection, as long as no handshake registers behind a close,
no command fails after its edit and no reload overwrites what it did not see. -/
namespace Whdr.Revocation

open TokenStore TokenPlane
open DeliveryLog (StoredEvent)
open Runs (Reaches exec guarded reaches_of_exec)

section
variable (hashToken : String → String)

/-- A server without connections; its store and file may be any. -/
def Starts (s : State) : Prop :=
  s.registry.subscribers = .empty ∧ s.handshakes = [] ∧ s.reload = .idle ∧ s.closing = []

/-- Between store updates and their closes, whoever is connected was let in by a record
that the store still has, or has been told to close. -/
def Effective (s : State) : Prop :=
  s.closing.flatten = [] → ∀ id sub, s.registry.subscribers.get? id = some sub →
    ∃ record, s.admitted.get? id = some (sub.name, record) ∧
      (s.store.tokens.get? sub.name = some record ∨ sub.closeTx ≠ none)

/-- A handshake registers while its record stands or its name is still to be closed; a
rotation or revocation that edits the map also persists; the store a reload replaces has
lost no record that the reload did not see. -/
def NoGap (s : State) : Action → Prop
  | .insert i _ => ∀ entry, s.handshakes[i]? = some entry →
      s.store.tokens.get? entry.1 = some entry.2 ∨ entry.1 ∈ s.closing.flatten
  | .command (.add _ _) _ => True
  | .command m halt => NoStepFails halt ∨ ¬ m.Changes hashToken s.store.tokens
  | .replace =>
    match s.reload with
    | .compared replacement _ invalidated =>
      ∀ name ∈ s.store.invalidatedNames replacement, name ∈ invalidated
    | _ => True
  | _ => True

instance (s : State) (a : Action) : Decidable (NoGap hashToken s a) :=
  match a with
  | .insert i _ => inferInstanceAs (Decidable (∀ entry ∈ s.handshakes[i]?,
      s.store.tokens.get? entry.1 = some entry.2 ∨ entry.1 ∈ s.closing.flatten))
  | .command (.add _ _) _ => isTrue trivial
  | .command (.rotate _ _) _ | .command (.revoke _) _ => inferInstanceAs (Decidable (_ ∨ _))
  | .replace =>
    match h : s.reload with
    | .compared replacement _ invalidated =>
      decidable_of_iff (∀ name ∈ s.store.invalidatedNames replacement, name ∈ invalidated)
        (by simp only [NoGap, h])
    | .idle | .loaded _ _ => isTrue (by simp only [NoGap, h])
  | .authenticate _ | .abandon _ | .closeNext _ | .editFile _ | .load _ | .compare
  | .connection _ | .fanout _ => isTrue trivial

end

variable {toml : Toml} {hashToken : String → String} {valueLen : StoredEvent → Nat}
  {textLen : SubServerMsg → Nat} {s t : State} {a : Action}

/-! ## The invariant -/

/-- The record stands, or the connection is told to close, or will be. -/
def Settled (tokens : Tokens) (closing : List String) (sub : Subscriber) (record : TokenRecord) :
    Prop :=
  tokens.get? sub.name = some record ∨ sub.closeTx ≠ none ∨ sub.name ∈ closing

def Guarded (s : State) : Prop :=
  ∀ id sub, s.registry.subscribers.get? id = some sub →
    ∃ record, s.admitted.get? id = some (sub.name, record) ∧
      Settled s.store.tokens s.closing.flatten sub record

theorem effective_of_guarded (inv : Guarded s) : Effective s := by
  intro none id sub entry
  obtain ⟨record, admitted, stands | closed | pending⟩ := inv id sub entry
  · exact ⟨record, admitted, .inl stands⟩
  · exact ⟨record, admitted, .inr closed⟩
  · rw [none] at pending
    cases pending

/-- A store update keeps the invariant if it closes the names whose records it drops. -/
theorem Guarded.update (inv : Guarded s) (registry : t.registry = s.registry)
    (admitted : t.admitted = s.admitted)
    (pending : ∀ name ∈ s.closing.flatten, name ∈ t.closing.flatten)
    (kept : ∀ name record, s.store.tokens.get? name = some record →
      t.store.tokens.get? name = some record ∨ name ∈ t.closing.flatten) : Guarded t := by
  intro id sub entry
  rw [registry] at entry
  obtain ⟨record, letIn, settled⟩ := inv id sub entry
  refine ⟨record, admitted ▸ letIn, ?_⟩
  obtain stands | closed | waits := settled
  · obtain stands | waits := kept sub.name record stands
    · exact .inl stands
    · exact .inr (.inr waits)
  · exact .inr (.inl closed)
  · exact .inr (.inr (pending sub.name waits))

theorem Guarded.registry (inv : Guarded s) {r : SubscriberRegistry}
    (same : s.registry.SameNames r) : Guarded { s with registry := r } := by
  intro id sub' entry
  obtain ⟨sub, old, name, close⟩ := same id sub' entry
  obtain ⟨record, admitted, settled⟩ := inv id sub old
  refine ⟨record, name ▸ admitted, ?_⟩
  unfold Settled at settled ⊢
  rw [name, close]
  exact settled

/-! ## The steps that matter -/

theorem insert_guarded (inv : Guarded s) {i : Nat} {queue : OutboundQueue}
    (ok : NoGap hashToken s (.insert i queue))
    (hs : step toml hashToken valueLen textLen s (.insert i queue) = some t) : Guarded t := by
  simp only [step] at hs
  split at hs
  · cases hs
  · rename_i name record shake
    cases hs
    intro id sub entry
    simp only [SubscriberRegistry.insert, OrdMap.get?_insert] at entry ⊢
    split at entry
    · rename_i new
      cases entry
      refine ⟨record, if_pos new, ?_⟩
      obtain stands | waits := ok (name, record) shake
      · exact .inl stands
      · exact .inr (.inr waits)
    · rename_i old
      rw [if_neg old]
      exact inv id sub entry

theorem mem_flatten_set {closing : List (List String)} {i : Nat} {name other : String}
    {rest : List String} (task : closing[i]? = some (name :: rest))
    (mem : other ∈ closing.flatten) (ne : other ≠ name) :
    other ∈ (closing.set i rest).flatten := by
  obtain ⟨names, inClosing, inNames⟩ := List.mem_flatten.mp mem
  obtain ⟨j, at_j⟩ := List.mem_iff_getElem?.mp inClosing
  rw [List.mem_flatten]
  by_cases same : i = j
  · subst same
    rw [task] at at_j
    cases at_j
    have bound := (List.getElem?_eq_some_iff.mp task).1
    refine ⟨rest, List.mem_iff_getElem?.mpr ⟨i, ?_⟩, ?_⟩
    · rw [List.getElem?_set_self bound]
    · cases List.mem_cons.mp inNames with
      | inl eq => exact absurd eq ne
      | inr inRest => exact inRest
  · refine ⟨names, List.mem_iff_getElem?.mpr ⟨j, ?_⟩, inNames⟩
    rw [List.getElem?_set_ne same, at_j]

/-- Closing a name settles everyone who has it. -/
theorem closeNext_guarded (inv : Guarded s) {i : Nat}
    (hs : step toml hashToken valueLen textLen s (.closeNext i) = some t) : Guarded t := by
  simp only [step] at hs
  split at hs
  · rename_i name rest task
    cases hs
    intro id sub' entry
    rw [SubscriberRegistry.get?_closeNamed] at entry
    obtain ⟨sub, old, eq⟩ := Option.map_eq_some_iff.mp entry
    obtain ⟨record, admitted, settled⟩ := inv id sub old
    by_cases named : sub.name = name
    · rw [if_pos named] at eq
      subst eq
      exact ⟨record, admitted, .inr (.inl nofun)⟩
    · rw [if_neg named] at eq
      subst eq
      refine ⟨record, admitted, ?_⟩
      obtain stands | closed | waits := settled
      · exact .inl stands
      · exact .inr (.inl closed)
      · exact .inr (.inr (mem_flatten_set task waits named))
  · cases hs

/-- A mutation past its checks drops at most the record of its own name, and an add drops
none. -/
theorem edit_keeps {m : Mutation} {tokens new : Tokens} (edit : m.edit hashToken tokens = .ok new)
    {name : String} {record : TokenRecord} (old : tokens.get? name = some record) :
    new.get? name = some record ∨ name ∈ closes m := by
  obtain ⟨added, minted, rfl, _, absent, rfl⟩ | ⟨rotated, minted, _, rfl, _, _, rfl⟩ |
    ⟨revoked, _, rfl, _, rfl⟩ := edit_ok edit
  · left
    have ne : name ≠ added := by
      rintro rfl
      rw [absent] at old
      cases old
    rw [OrdMap.get?_insert_ne _ _ ne, old]
  · by_cases eq : name = rotated
    · exact .inr (List.mem_singleton.mpr eq)
    · left
      rw [OrdMap.get?_insert_ne _ _ eq, old]
  · by_cases eq : name = revoked
    · exact .inr (List.mem_singleton.mpr eq)
    · left
      rw [OrdMap.get?_erase, if_neg eq, old]

/-- A mutation that answers with an error, under the condition, dropped no record. -/
theorem failed_keeps {m : Mutation} {halt : Option Halt} {store : Store} {disk disk' : Disk}
    {msg : String} (ok : NoGap hashToken s (.command m halt))
    (failed : s.store.mutate toml hashToken m halt disk = (.err msg, store, disk'))
    {name : String} {record : TokenRecord} (old : s.store.tokens.get? name = some record) :
    store.tokens.get? name = some record := by
  cases edit : m.edit hashToken s.store.tokens with
  | error reason =>
    rw [mutate_refused edit] at failed
    cases failed
    exact old
  | ok new =>
    rw [mutate_edited edit, persist_outcome] at failed
    obtain ⟨outcome, rest⟩ := Prod.mk.inj failed
    obtain ⟨rfl, _⟩ := Prod.mk.inj rest
    have fails : ¬ NoStepFails halt := by
      intro fine
      cases halt with
      | none => cases outcome
      | some h => simp [fine h rfl, Outcome.map] at outcome
    have unchanged : ¬ m.Changes hashToken s.store.tokens → new.get? name = some record := by
      intro same
      rw [changes_iff edit, not_not] at same
      rw [same, old]
    cases m with
    | add added minted =>
      obtain stands | dropped := edit_keeps edit old
      · exact stands
      · cases dropped
    | rotate rotated minted =>
      obtain fine | same := ok
      · exact absurd fine fails
      · exact unchanged same
    | revoke revoked =>
      obtain fine | same := ok
      · exact absurd fine fails
      · exact unchanged same

theorem command_guarded (inv : Guarded s) {m : Mutation} {halt : Option Halt}
    (ok : NoGap hashToken s (.command m halt))
    (hs : step toml hashToken valueLen textLen s (.command m halt) = some t) : Guarded t := by
  simp only [step] at hs
  split at hs
  · rename_i value store disk done
    cases hs
    refine inv.update rfl rfl ?_ ?_
    · intro name mem
      rw [List.flatten_append, List.mem_append]
      exact .inl mem
    · intro name record old
      cases edit : m.edit hashToken s.store.tokens with
      | error reason =>
        rw [mutate_refused edit] at done
        cases done
      | ok new =>
        rw [mutate_edited edit] at done
        obtain ⟨_, rest⟩ := Prod.mk.inj done
        obtain ⟨rfl, _⟩ := Prod.mk.inj rest
        obtain stands | dropped := edit_keeps edit old
        · exact .inl stands
        · exact .inr (by simpa using .inr dropped)
  · rename_i msg store disk failed
    cases hs
    refine inv.update rfl rfl ?_ ?_
    · exact fun name mem => mem
    · exact fun name record old => .inl (failed_keeps ok failed old)
  · cases hs

theorem mem_invalidatedNames {store replacement : Store} {name : String} {record : TokenRecord}
    (old : store.tokens.get? name = some record) :
    replacement.tokens.get? name = some record ∨ name ∈ store.invalidatedNames replacement := by
  by_cases same : replacement.tokens.get? name = some record
  · exact .inl same
  · right
    have entry := (store.tokens.get?_eq_some_iff name record).mp old
    exact List.mem_filterMap.mpr ⟨(name, record), entry, if_neg same⟩

theorem replace_guarded (inv : Guarded s) (ok : NoGap hashToken s .replace)
    (hs : step toml hashToken valueLen textLen s .replace = some t) : Guarded t := by
  simp only [step] at hs
  split at hs
  · rename_i replacement moved invalidated reload
    cases hs
    simp only [NoGap, reload] at ok
    refine inv.update rfl rfl ?_ ?_
    · intro name mem
      rw [List.flatten_append, List.mem_append]
      exact .inl mem
    · intro name record old
      obtain stands | dropped := @mem_invalidatedNames s.store replacement name record old
      · exact .inl stands
      · exact .inr (by simpa using .inr (ok name dropped))
  · cases hs

theorem step_guarded (inv : Guarded s) (ok : NoGap hashToken s a)
    (hs : step toml hashToken valueLen textLen s a = some t) : Guarded t := by
  cases a with
  | insert i queue => exact insert_guarded inv ok hs
  | command m halt => exact command_guarded inv ok hs
  | closeNext i => exact closeNext_guarded inv hs
  | replace => exact replace_guarded inv ok hs
  | authenticate presented =>
    simp only [step, Option.bind_eq_some_iff, Option.map_eq_some_iff] at hs
    obtain ⟨_, _, _, _, rfl⟩ := hs
    exact inv
  | abandon i | editFile disk =>
    cases hs
    exact inv
  | load moved =>
    simp only [step] at hs
    split at hs
    · split at hs
      · cases hs
      · cases hs
        exact inv
    · cases hs
  | compare =>
    simp only [step] at hs
    split at hs
    · cases hs
      exact inv
    · cases hs
  | connection op =>
    simp only [step] at hs
    split at hs
    · cases hs
    · rename_i task
      cases hs
      exact inv.registry (s.registry.sameNames_apply op task)
  | fanout call =>
    cases hs
    exact inv.registry (s.registry.sameNames_fanout call)

/-- Along every run without a gap, revocation is effective in every state reached. -/
theorem revocation_effective (toml : Toml) (hashToken : String → String)
    (valueLen : StoredEvent → Nat) (textLen : SubServerMsg → Nat)
    (run : Reaches Starts (step toml hashToken valueLen textLen) (NoGap hashToken) s) :
    Effective s := by
  apply effective_of_guarded
  apply run.invariant Guarded
  · intro s starts id sub entry
    rw [starts.1] at entry
    cases entry
  · intro s a t _ inv ok hs
    exact step_guarded inv ok hs

/-! ## A server with one token -/

def oneTokenServer : State :=
  ⟨⟨oneTokenPath, oneToken⟩, ⟨some ⟨oneTable "ci" (recordFor ciHash ciMinted), 0o600⟩, none⟩,
    .new, [], .empty, .idle, []⟩

theorem oneTokenServer_starts : Starts oneTokenServer := ⟨rfl, rfl, rfl, rfl⟩

def smallQueue : OutboundQueue := OutboundQueue.new 64 65536

/-- The token is revoked while a connection that it let in is registered. -/
theorem revocation_effective_connected :
    ∃ s, exec (guarded (NoGap ciHash) (step oneTokenToml ciHash (fun _ => 90) (fun _ => 120)))
        oneTokenServer [.authenticate ciMinted.token, .insert 0 smallQueue,
          .command (.revoke "ci") none, .closeNext 0] = some s ∧
      s.registry.subscribers.keys = [1] ∧ Effective s := by
  have run : (exec (guarded (NoGap ciHash)
      (step oneTokenToml ciHash (fun _ => 90) (fun _ => 120))) oneTokenServer
      [.authenticate ciMinted.token, .insert 0 smallQueue, .command (.revoke "ci") none,
        .closeNext 0]).map (fun s => s.registry.subscribers.keys) = some [1] := by decide +kernel
  obtain ⟨s, hs, keys⟩ := Option.map_eq_some_iff.mp run
  exact ⟨s, hs, keys, revocation_effective oneTokenToml ciHash (fun _ => 90) (fun _ => 120)
    (reaches_of_exec _ (.start oneTokenServer_starts) hs)⟩

/-- The same, but the token is revoked between the handshake's authentication and its
registration: the close finds nobody, and the connection stays. -/
theorem revoked_handshake_stays_open :
    ¬ ∀ (toml : Toml) (hashToken : String → String) (valueLen : StoredEvent → Nat)
      (textLen : SubServerMsg → Nat) (s : State),
      Reaches Starts (step toml hashToken valueLen textLen) (fun _ _ => True) s → Effective s := by
  intro claim
  have run : (exec (guarded (fun _ _ => True)
      (step oneTokenToml ciHash (fun _ => 90) (fun _ => 120))) oneTokenServer
      [.authenticate ciMinted.token, .command (.revoke "ci") none, .closeNext 0,
        .insert 0 smallQueue]).map (fun s => (s.closing.flatten, s.store.tokens,
          (s.registry.subscribers.get? 1).map fun sub => (sub.name, sub.closeTx))) =
      some ([], .empty, some ("ci", none)) := by decide +kernel
  obtain ⟨s, hs, seen⟩ := Option.map_eq_some_iff.mp run
  obtain ⟨closing, rest⟩ := Prod.mk.inj seen
  obtain ⟨tokens, entry⟩ := Prod.mk.inj rest
  obtain ⟨sub, found, eq⟩ := Option.map_eq_some_iff.mp entry
  obtain ⟨_, closeTx⟩ := Prod.mk.inj eq
  have effective := claim _ _ _ _ s (reaches_of_exec _ (.start oneTokenServer_starts) hs)
  obtain ⟨record, _, stands | closed⟩ := effective closing 1 sub found
  · rw [tokens] at stands
    cases stands
  · exact closed closeTx

end Whdr.Revocation
