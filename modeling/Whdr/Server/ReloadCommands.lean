import Whdr.Lib.Runs
import Whdr.Server.TokenAtomicity
import Whdr.Server.TokenPlane

/-! Reloads against token commands. A reload puts a snapshot of the file in place of the
store, so it undoes whatever was committed since the snapshot. -/
namespace Whdr.ReloadCommands

open TokenStore
open DeliveryLog (StoredEvent)
open Runs (Reaches exec guarded reaches_of_exec)

/-- `issued`: the token last returned for a name, unless the name was revoked since.
`retired`: the records that successful rotations and revocations took away. -/
structure State where
  plane : TokenPlane.State
  issued : OrdMap String String
  retired : List (String × TokenRecord)
  deriving DecidableEq

/-- The books after a mutation that returned success. -/
def State.note (s : State) (old : Tokens) : Mutation → State
  | .add name minted => { s with issued := s.issued.insert name minted.token }
  | .rotate name minted => { s with
      issued := s.issued.insert name minted.token
      retired := s.retired ++ ((old.get? name).map fun record => (name, record)).toList }
  | .revoke name => { s with
      issued := s.issued.erase name
      retired := s.retired ++ ((old.get? name).map fun record => (name, record)).toList }

def returnsOk : Outcome (Option String) → Bool
  | .ok _ => true
  | .err _ | .crashed => false

section
variable (toml : Toml) (hashToken : String → String) (valueLen : StoredEvent → Nat)
  (textLen : SubServerMsg → Nat)

def step (s : State) (a : TokenPlane.Action) : Option State :=
  (TokenPlane.step toml hashToken valueLen textLen s.plane a).map fun plane =>
    match a with
    | .command m halt =>
      if returnsOk (s.plane.store.mutate toml hashToken m halt s.plane.disk).1 then
        { s with plane := plane }.note s.plane.store.tokens m
      else { s with plane := plane }
    | _ => { s with plane := plane }

/-! ## The property and its condition -/

/-- The store is the file's, no reload is under way, and no token has two names. -/
structure Starts (s : State) : Prop where
  file : Holds toml s.plane.store.path s.plane.disk s.plane.store.tokens
  idle : s.plane.reload = .idle
  oneName : ∀ n m r r', s.plane.store.tokens.get? n = some r →
    s.plane.store.tokens.get? m = some r' → r.hash = r'.hash → n = m
  books : s.issued = .empty ∧ s.retired = []

/-- No reload and no command is under way. -/
def Finished (s : State) : Prop := s.plane.reload = .idle ∧ s.plane.closing.flatten = []

/-- Memory and file agree, no retired token lets anyone in, and every token issued and not
revoked since lets its name in. -/
structure Kept (s : State) : Prop where
  file : Holds toml s.plane.store.path s.plane.disk s.plane.store.tokens
  retired : ∀ name record, (name, record) ∈ s.retired → ∀ token,
    hashToken token = record.hash → s.plane.store.authenticate hashToken token = none
  issued : ∀ name token, s.issued.get? name = some token →
    s.plane.store.authenticate hashToken token = some name

/-- A minted token hashes to nothing the store has or had. -/
def Fresh (s : State) (minted : Minted) : Prop :=
  (∀ e ∈ s.plane.store.tokens.entries, e.2.hash ≠ hashToken minted.token) ∧
    ∀ e ∈ s.retired, e.2.hash ≠ hashToken minted.token

def MintsFresh (s : State) : Mutation → Prop
  | .add _ minted | .rotate _ minted => Fresh hashToken s minted
  | .revoke _ => True

/-- Every persist succeeds and its text reads back, tokens are minted fresh, and nobody
else writes the file or moves it. -/
def Calm (s : State) : TokenPlane.Action → Prop
  | .command m halt => halt = none ∧ MintsFresh hashToken s m ∧
      toml.RoundTrips (m.target hashToken s.plane.store.tokens)
  | .editFile _ => False
  | .load moved => moved = none
  | _ => True

/-- When a reload replaces the store, the file still has the map the reload read. -/
def Current (s : State) : TokenPlane.Action → Prop
  | .replace =>
    match s.plane.reload with
    | .compared replacement _ _ =>
      Holds toml s.plane.store.path s.plane.disk replacement.tokens
    | _ => True
  | _ => True

end

instance (toml : Toml) (tokens : Tokens) : Decidable (toml.RoundTrips tokens) :=
  decidable_of_iff (toml.fromStr (toml.toStringPretty tokens) = some tokens ∧
      (isBlank (toml.toStringPretty tokens) = true → tokens = .empty))
    ⟨fun h => ⟨h.1, h.2⟩, fun h => ⟨h.read, h.blank⟩⟩

instance (hashToken : String → String) (s : State) :
    (m : Mutation) → Decidable (MintsFresh hashToken s m)
  | .add _ _ | .rotate _ _ => inferInstanceAs (Decidable (_ ∧ _))
  | .revoke _ => isTrue trivial

instance (toml : Toml) (hashToken : String → String) (s : State) (a : TokenPlane.Action) :
    Decidable (Calm toml hashToken s a) :=
  match a with
  | .command _ _ => inferInstanceAs (Decidable (_ ∧ _ ∧ _))
  | .editFile _ => isFalse id
  | .load _ => inferInstanceAs (Decidable (_ = _))
  | .authenticate _ | .insert _ _ | .abandon _ | .closeNext _ | .compare | .replace
  | .connection _ | .fanout _ => isTrue trivial

instance (toml : Toml) (s : State) (a : TokenPlane.Action) : Decidable (Current toml s a) :=
  match a with
  | .replace =>
    match h : s.plane.reload with
    | .compared replacement _ _ =>
      decidable_of_iff (Holds toml s.plane.store.path s.plane.disk replacement.tokens)
        (by simp only [Current, h])
    | .idle | .loaded _ _ => isTrue (by simp only [Current, h])
  | .authenticate _ | .insert _ _ | .abandon _ | .command _ _ | .closeNext _ | .editFile _
  | .load _ | .compare | .connection _ | .fanout _ => isTrue trivial

/-! ## The invariant -/

/-- A reload under way has read the store's own file. -/
def ownFile (path : StorePath) : TokenPlane.Reload → Prop
  | .idle => True
  | .loaded replacement moved | .compared replacement moved _ =>
    replacement.path = path ∧ moved = none

/-- What the books say about the tokens in force. -/
structure Books (hashToken : String → String) (tokens : Tokens) (issued : OrdMap String String)
    (retired : List (String × TokenRecord)) : Prop where
  oneName : ∀ n m r r', tokens.get? n = some r → tokens.get? m = some r' → r.hash = r'.hash → n = m
  retired : ∀ e ∈ retired, ∀ name record, tokens.get? name = some record → record.hash ≠ e.2.hash
  issued : ∀ name token, issued.get? name = some token →
    ∃ record, tokens.get? name = some record ∧ record.hash = hashToken token

structure Valid (toml : Toml) (hashToken : String → String) (s : State) : Prop where
  file : Holds toml s.plane.store.path s.plane.disk s.plane.store.tokens
  reload : ownFile s.plane.store.path s.plane.reload
  books : Books hashToken s.plane.store.tokens s.issued s.retired

variable {toml : Toml} {hashToken : String → String} {valueLen : StoredEvent → Nat}
  {textLen : SubServerMsg → Nat} {s t : State} {a : TokenPlane.Action} {store : Store}
  {name token : String} {record : TokenRecord}

theorem authenticate_none
    (foreign : ∀ name record, store.tokens.get? name = some record → record.hash ≠ hashToken token) :
    store.authenticate hashToken token = none := by
  rw [Store.authenticate, Option.map_eq_none_iff, List.find?_eq_none]
  rintro ⟨name, record⟩ mem
  have := foreign name record ((store.tokens.get?_eq_some_iff name record).mpr mem)
  simpa using this

theorem authenticate_some (found : store.tokens.get? name = some record)
    (hash : record.hash = hashToken token)
    (oneName : ∀ n r, store.tokens.get? n = some r → r.hash = hashToken token → n = name) :
    store.authenticate hashToken token = some name := by
  rw [Store.authenticate, Option.map_eq_some_iff]
  cases first : store.tokens.entries.find? fun e => e.2.hash == hashToken token with
  | none =>
    have none := List.find?_eq_none.mp first (name, record)
      ((store.tokens.get?_eq_some_iff name record).mp found)
    simp [hash] at none
  | some e =>
    obtain ⟨n, r⟩ := e
    have mem := (store.tokens.get?_eq_some_iff n r).mpr (List.mem_of_find?_eq_some first)
    have hit := List.find?_some first
    exact ⟨(n, r), rfl, oneName n r mem (by simpa using hit)⟩

theorem Valid.kept (inv : Valid toml hashToken s) : Kept toml hashToken s := by
  constructor
  · exact inv.file
  · intro name record mem token hash
    apply authenticate_none
    intro n r found
    rw [hash]
    exact inv.books.retired (name, record) mem n r found
  · intro name token issued
    obtain ⟨record, found, hash⟩ := inv.books.issued name token issued
    apply authenticate_some found hash
    intro n r found' hash'
    exact inv.books.oneName n name r record found' found (hash'.trans hash.symm)

/-! ## Commands -/

section
variable {tokens : Tokens} {issued : OrdMap String String}
  {retired more : List (String × TokenRecord)} {minted : Minted}

/-- A fresh token under a name, old or new; `more` is what it takes the place of. -/
theorem Books.insert (books : Books hashToken tokens issued retired)
    (new : ∀ e ∈ tokens.entries, e.2.hash ≠ hashToken minted.token)
    (never : ∀ e ∈ retired, e.2.hash ≠ hashToken minted.token)
    (old : ∀ e ∈ more, tokens.get? name = some e.2) :
    Books hashToken (tokens.insert name (recordFor hashToken minted))
      (issued.insert name minted.token) (retired ++ more) := by
  have absent : ∀ n r, tokens.get? n = some r → r.hash ≠ (recordFor hashToken minted).hash :=
    fun n r found => new (n, r) ((tokens.get?_eq_some_iff n r).mp found)
  constructor
  · intro n m r r' hn hm hash
    rw [OrdMap.get?_insert] at hn hm
    by_cases en : n = name
    · by_cases em : m = name
      · rw [en, em]
      · rw [if_pos en] at hn
        rw [if_neg em] at hm
        cases hn
        exact absurd hash.symm (absent m r' hm)
    · rw [if_neg en] at hn
      by_cases em : m = name
      · rw [if_pos em] at hm
        cases hm
        exact absurd hash (absent n r hn)
      · rw [if_neg em] at hm
        exact books.oneName n m r r' hn hm hash
  · intro e mem n r hn
    rw [OrdMap.get?_insert] at hn
    by_cases en : n = name
    · rw [if_pos en] at hn
      cases hn
      obtain mem | mem := List.mem_append.mp mem
      · exact (never e mem).symm
      · exact (absent name e.2 (old e mem)).symm
    · rw [if_neg en] at hn
      obtain mem | mem := List.mem_append.mp mem
      · exact books.retired e mem n r hn
      · intro hash
        exact en (books.oneName n name r e.2 hn (old e mem) hash)
  · intro n token hn
    rw [OrdMap.get?_insert] at hn ⊢
    by_cases en : n = name
    · rw [if_pos en] at hn ⊢
      cases hn
      exact ⟨_, rfl, rfl⟩
    · rw [if_neg en] at hn ⊢
      exact books.issued n token hn

theorem Books.erase (books : Books hashToken tokens issued retired)
    (old : ∀ e ∈ more, tokens.get? name = some e.2) :
    Books hashToken (tokens.erase name) (issued.erase name) (retired ++ more) := by
  have left : ∀ n r, (tokens.erase name).get? n = some r → n ≠ name ∧ tokens.get? n = some r := by
    intro n r hn
    rw [OrdMap.get?_erase] at hn
    by_cases en : n = name
    · rw [if_pos en] at hn
      cases hn
    · rw [if_neg en] at hn
      exact ⟨en, hn⟩
  constructor
  · intro n m r r' hn hm
    exact books.oneName n m r r' (left n r hn).2 (left m r' hm).2
  · intro e mem n r hn
    obtain ⟨en, hn⟩ := left n r hn
    obtain mem | mem := List.mem_append.mp mem
    · exact books.retired e mem n r hn
    · intro hash
      exact en (books.oneName n name r e.2 hn (old e mem) hash)
  · intro n token hn
    rw [OrdMap.get?_erase] at hn ⊢
    by_cases en : n = name
    · rw [if_pos en] at hn
      cases hn
    · rw [if_neg en] at hn ⊢
      exact books.issued n token hn

end

/-- A mutation that succeeds leaves the books true. -/
theorem note_books {plane : TokenPlane.State} {m : Mutation} {new : Tokens}
    (books : Books hashToken s.plane.store.tokens s.issued s.retired)
    (edit : m.edit hashToken s.plane.store.tokens = .ok new) (fresh : MintsFresh hashToken s m) :
    Books hashToken new ({ s with plane := plane }.note s.plane.store.tokens m).issued
      ({ s with plane := plane }.note s.plane.store.tokens m).retired := by
  have old (name : String) : ∀ e ∈ ((s.plane.store.tokens.get? name).map
      fun record => (name, record)).toList, s.plane.store.tokens.get? name = some e.2 := by
    intro e mem
    obtain ⟨record, found, rfl⟩ := Option.map_eq_some_iff.mp (Option.mem_toList.mp mem)
    exact found
  obtain ⟨name, minted, rfl, valid, absent, rfl⟩ |
    ⟨name, minted, record, rfl, valid, found, rfl⟩ | ⟨name, record, rfl, found, rfl⟩ :=
    edit_ok edit
  · have added := @Books.insert hashToken name _ _ _ [] minted books fresh.1 fresh.2 (by simp)
    rw [List.append_nil] at added
    exact added
  · exact books.insert fresh.1 fresh.2 (old name)
  · exact books.erase (old name)

theorem note_plane (s : State) (old : Tokens) (m : Mutation) : (s.note old m).plane = s.plane := by
  cases m with
  | add name minted => rfl
  | rotate name minted => rfl
  | revoke name => rfl

theorem command_valid {m : Mutation} (inv : Valid toml hashToken s)
    (fresh : MintsFresh hashToken s m)
    (rt : toml.RoundTrips (m.target hashToken s.plane.store.tokens))
    (hs : step toml hashToken valueLen textLen s (.command m none) = some t) :
    Valid toml hashToken t := by
  obtain ⟨plane, moved, rfl⟩ := Option.map_eq_some_iff.mp hs
  dsimp only
  cases edit : m.edit hashToken s.plane.store.tokens with
  | error msg =>
    have refused := @mutate_refused toml hashToken s.plane.store m none s.plane.disk msg edit
    simp only [TokenPlane.step, refused] at moved
    cases moved
    rw [refused]
    exact inv
  | ok new =>
    have target : m.target hashToken s.plane.store.tokens = new := by simp [Mutation.target, edit]
    rw [target] at rt
    have edited := @mutate_edited toml hashToken s.plane.store m none s.plane.disk new edit
    have outcome := @persist_outcome toml { s.plane.store with tokens := new } none s.plane.disk
    have file := @persist_file toml { s.plane.store with tokens := new } none s.plane.disk
    rw [outcome] at edited
    simp only [TokenPlane.step, edited, Outcome.map] at moved
    cases moved
    rw [edited]
    simp only [Outcome.map, returnsOk, if_true]
    constructor
    · rw [note_plane]
      exact holds_of_written rt file
    · rw [note_plane]
      exact inv.reload
    · rw [note_plane]
      exact note_books inv.books edit fresh

/-! ## Runs -/

/-- A reload whose snapshot is still the file's puts the store in place of itself. -/
theorem replace_valid (inv : Valid toml hashToken s) (current : Current toml s .replace)
    (hs : step toml hashToken valueLen textLen s .replace = some t) :
    Valid toml hashToken t := by
  obtain ⟨plane, moved, rfl⟩ := Option.map_eq_some_iff.mp hs
  simp only [TokenPlane.step] at moved
  split at moved
  · rename_i replacement other invalidated under
    cases moved
    obtain ⟨path, rfl⟩ : replacement.path = s.plane.store.path ∧ other = none := by
      simpa only [ownFile, under] using inv.reload
    have holds : Holds toml s.plane.store.path s.plane.disk replacement.tokens := by
      simpa only [Current, under] using current
    have same : replacement = s.plane.store := by
      have eq := holds.symm.trans inv.file
      simp only [Except.ok.injEq, Store.mk.injEq, true_and] at eq
      cases replacement
      cases store : s.plane.store
      simp_all
    subst same
    exact ⟨inv.file, trivial, inv.books⟩
  · cases moved

theorem step_valid (inv : Valid toml hashToken s) (calm : Calm toml hashToken s a)
    (current : Current toml s a) (hs : step toml hashToken valueLen textLen s a = some t) :
    Valid toml hashToken t := by
  cases a with
  | command m halt =>
    obtain ⟨rfl, fresh, rt⟩ := calm
    exact command_valid inv fresh rt hs
  | replace => exact replace_valid inv current hs
  | editFile disk => exact calm.elim
  | load moved =>
    obtain ⟨plane, moved', rfl⟩ := Option.map_eq_some_iff.mp hs
    cases calm
    simp only [TokenPlane.step] at moved'
    split at moved'
    · split at moved'
      · cases moved'
      · rename_i replacement loaded
        cases moved'
        have same : replacement = ⟨s.plane.store.path, s.plane.store.tokens⟩ :=
          Except.ok.inj (loaded.symm.trans inv.file)
        exact ⟨inv.file, ⟨by rw [same], rfl⟩, inv.books⟩
    · cases moved'
  | compare =>
    obtain ⟨plane, moved, rfl⟩ := Option.map_eq_some_iff.mp hs
    simp only [TokenPlane.step] at moved
    split at moved
    · rename_i replacement other under
      cases moved
      have reload := inv.reload
      rw [under] at reload
      exact ⟨inv.file, reload, inv.books⟩
    · cases moved
  | authenticate presented =>
    obtain ⟨plane, moved, rfl⟩ := Option.map_eq_some_iff.mp hs
    simp only [TokenPlane.step, Option.bind_eq_some_iff, Option.map_eq_some_iff] at moved
    obtain ⟨_, _, _, _, rfl⟩ := moved
    exact ⟨inv.file, inv.reload, inv.books⟩
  | insert i queue | closeNext i | connection op =>
    obtain ⟨plane, moved, rfl⟩ := Option.map_eq_some_iff.mp hs
    simp only [TokenPlane.step] at moved
    split at moved
    all_goals cases moved
    all_goals exact ⟨inv.file, inv.reload, inv.books⟩
  | abandon i | fanout call =>
    cases hs
    exact ⟨inv.file, inv.reload, inv.books⟩

/-- Along every run in which no reload replaces the store with a map that the file no longer
has, no reload undoes a command. -/
theorem reload_keeps_commands (toml : Toml) (hashToken : String → String)
    (valueLen : StoredEvent → Nat) (textLen : SubServerMsg → Nat)
    (run : Reaches (Starts toml) (step toml hashToken valueLen textLen)
      (fun s a => Calm toml hashToken s a ∧ Current toml s a) s) :
    Finished s → Kept toml hashToken s := by
  intro _
  apply Valid.kept
  apply run.invariant (Valid toml hashToken)
  · intro s starts
    obtain ⟨issued, retired⟩ := starts.books
    constructor
    · exact starts.file
    · rw [starts.idle]
      trivial
    · exact ⟨starts.oneName, by simp [retired], by simp [issued]⟩
  · intro s a t _ inv ok hs
    exact step_valid inv ok.1 ok.2 hs

/-! ## A server with one token -/

def oneTokenServer : State :=
  ⟨⟨⟨oneTokenPath, oneToken⟩, ⟨some ⟨oneTable "ci" (recordFor ciHash ciMinted), 0o600⟩, none⟩,
    .new, [], .empty, .idle, []⟩, .empty, []⟩

theorem oneTokenServer_starts : Starts oneTokenToml oneTokenServer := by
  constructor
  · decide +kernel
  · rfl
  · intro n m r r' hn hm _
    have only : ∀ n r, oneToken.get? n = some r → n = "ci" := by
      intro n r found
      have mem := (oneToken.get?_eq_some_iff n r).mp found
      simpa [oneToken, OrdMap.insert, OrdMap.insertEntry, OrdMap.empty] using
        congrArg Prod.fst (List.mem_singleton.mp mem)
    rw [only n r hn, only m r' hm]
  · exact ⟨rfl, rfl⟩

/-- A reload is over when the token is revoked. -/
theorem reload_keeps_commands_revoked :
    ∃ s, exec (guarded (fun s a => Calm oneTokenToml ciHash s a ∧ Current oneTokenToml s a)
        (step oneTokenToml ciHash (fun _ => 90) (fun _ => 120))) oneTokenServer
        [.load none, .compare, .replace, .command (.revoke "ci") none, .closeNext 1] = some s ∧
      s.retired.map Prod.fst = ["ci"] ∧ Finished s ∧ Kept oneTokenToml ciHash s := by
  have run : (exec (guarded (fun s a => Calm oneTokenToml ciHash s a ∧ Current oneTokenToml s a)
      (step oneTokenToml ciHash (fun _ => 90) (fun _ => 120))) oneTokenServer
      [.load none, .compare, .replace, .command (.revoke "ci") none, .closeNext 1]).map
      (fun s => (s.retired.map Prod.fst, s.plane.reload, s.plane.closing.flatten)) =
      some (["ci"], .idle, []) := by decide +kernel
  obtain ⟨s, hs, seen⟩ := Option.map_eq_some_iff.mp run
  obtain ⟨retired, rest⟩ := Prod.mk.inj seen
  have finished : Finished s := Prod.mk.inj rest
  exact ⟨s, hs, retired, finished, reload_keeps_commands oneTokenToml ciHash (fun _ => 90)
    (fun _ => 120) (reaches_of_exec _ (.start oneTokenServer_starts) hs) finished⟩

/-- The same, but the token is revoked after the reload read the file: the reload puts the
token back, in memory only. -/
theorem reload_revives_revoked_token :
    ¬ ∀ (toml : Toml) (hashToken : String → String) (valueLen : StoredEvent → Nat)
      (textLen : SubServerMsg → Nat) (s : State),
      Reaches (Starts toml) (step toml hashToken valueLen textLen) (Calm toml hashToken) s →
      Finished s → Kept toml hashToken s := by
  intro claim
  have run : (exec (guarded (Calm oneTokenToml ciHash)
      (step oneTokenToml ciHash (fun _ => 90) (fun _ => 120))) oneTokenServer
      [.load none, .command (.revoke "ci") none, .compare, .replace, .closeNext 0]).map
      (fun s => (s.retired.contains ("ci", recordFor ciHash ciMinted), s.plane.reload,
        s.plane.closing.flatten, s.plane.store.authenticate ciHash ciMinted.token)) =
      some (true, .idle, [], some "ci") := by decide +kernel
  obtain ⟨s, hs, seen⟩ := Option.map_eq_some_iff.mp run
  simp only [Prod.mk.injEq, List.contains_iff_mem] at seen
  obtain ⟨retired, idle, closed, lets⟩ := seen
  have kept := claim _ _ _ _ s (reaches_of_exec _ (.start oneTokenServer_starts) hs) ⟨idle, closed⟩
  have refused := kept.retired "ci" _ retired ciMinted.token rfl
  rw [lets] at refused
  cases refused

end Whdr.ReloadCommands
