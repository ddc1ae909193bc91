import Whdr.Server.TokenStore

/-! A token mutation against the I/O errors and crashes inside its persist. The rename
makes the file safe; the map in memory is edited before the first step that can fail. -/
namespace Whdr.TokenStore

/-- A later `load_or_empty` yields these tokens. -/
def Holds (toml : Toml) (path : StorePath) (disk : Disk) (tokens : Tokens) : Prop :=
  loadOrEmpty toml path disk = .ok ⟨path, tokens⟩

instance (toml : Toml) (path : StorePath) (disk : Disk) (tokens : Tokens) :
    Decidable (Holds toml path disk tokens) := inferInstanceAs (Decidable (_ = _))

/-- The toml crate reads back what it printed for this map; blank text is no table. -/
structure Toml.RoundTrips (toml : Toml) (tokens : Tokens) : Prop where
  read : toml.fromStr (toml.toStringPretty tokens) = some tokens
  blank : isBlank (toml.toStringPretty tokens) = true → tokens = .empty

/-- What a call from `old` towards `new` leaves behind: either map on disk, both places
new if it says Ok, both old if it says Err. -/
structure Atomic (toml : Toml) (path : StorePath) (old new : Tokens)
    (result : Outcome (Option String) × Store × Disk) : Prop where
  either : Holds toml path result.2.2 old ∨ Holds toml path result.2.2 new
  ok : ∀ value, result.1 = .ok value →
    result.2.1.tokens = new ∧ Holds toml path result.2.2 new
  err : ∀ msg, result.1 = .err msg →
    result.2.1.tokens = old ∧ Holds toml path result.2.2 old

/-- No step of persist returns an error: they all succeed, or the process dies. -/
def NoStepFails (halt : Option Halt) : Prop := ∀ h, halt = some h → h.crash = true

instance : (halt : Option Halt) → Decidable (NoStepFails halt)
  | none => isTrue nofun
  | some h => decidable_of_iff (h.crash = true)
      ⟨fun crash _ eq => Option.some.inj eq ▸ crash, fun fine => fine h rfl⟩

/-- The mutation passes its checks and the record it writes is a new one. -/
def Mutation.Changes (hashToken : String → String) (tokens : Tokens) : Mutation → Prop
  | .add name _ => validateName name = .ok () ∧ tokens.get? name = none
  | .rotate name minted => validateName name = .ok () ∧
      ∃ record, tokens.get? name = some record ∧ record ≠ recordFor hashToken minted
  | .revoke name => ∃ record, tokens.get? name = some record

instance (hashToken : String → String) (tokens : Tokens) :
    (m : Mutation) → Decidable (m.Changes hashToken tokens)
  | .add _ _ => inferInstanceAs (Decidable (_ ∧ _))
  | .rotate name minted =>
    have : Decidable (∃ record, tokens.get? name = some record ∧
        record ≠ recordFor hashToken minted) :=
      decidable_of_iff ((tokens.get? name).any (· ≠ recordFor hashToken minted) = true)
        (by simp [Option.any_eq_true])
    inferInstanceAs (Decidable (_ ∧ _))
  | .revoke _ => decidable_of_iff _ Option.isSome_iff_exists

/-- The map a mutation asks for; a refused one asks for no change. -/
def Mutation.target (hashToken : String → String) (tokens : Tokens) (m : Mutation) : Tokens :=
  match m.edit hashToken tokens with
  | .ok new => new
  | .error _ => tokens

variable {toml : Toml} {hashToken : String → String} {s : Store} {m : Mutation}
  {halt : Option Halt} {disk disk' : Disk} {tokens new : Tokens} {path : StorePath}

/-! ## Persist -/

/-- The rename has been made when this step runs. -/
def PersistStep.afterRename : PersistStep → Bool
  | .openDir | .fsyncDir => true
  | _ => false

theorem persist_outcome (s : Store) (halt : Option Halt) (disk : Disk) :
    (s.persist toml halt disk).1 = match halt with
      | none => .ok ()
      | some h => if h.crash then .crashed else .err (h.step.context s.path) := by
  cases halt with
  | none => rfl
  | some h =>
    obtain ⟨step, crash, tmp⟩ := h
    cases step <;> rfl

/-- The file is replaced as a whole, or not at all. -/
theorem persist_file (s : Store) (halt : Option Halt) (disk : Disk) :
    (s.persist toml halt disk).2.file =
      if halt.all (·.step.afterRename) then some ⟨toml.toStringPretty s.tokens, 0o600⟩
      else disk.file := by
  cases halt with
  | none => rfl
  | some h =>
    obtain ⟨step, crash, tmp⟩ := h
    cases step <;> rfl

theorem holds_of_same_file (same : disk'.file = disk.file) (holds : Holds toml path disk tokens) :
    Holds toml path disk' tokens := by
  unfold Holds loadOrEmpty at holds ⊢
  rw [same]
  exact holds

theorem holds_of_written (rt : toml.RoundTrips tokens)
    (file : disk.file = some ⟨toml.toStringPretty tokens, 0o600⟩) :
    Holds toml path disk tokens := by
  have mode : enforce0600 path.file ⟨toml.toStringPretty tokens, 0o600⟩ = .ok () := rfl
  unfold Holds loadOrEmpty
  simp only [file, mode, rt.read]
  split
  · rename_i blank
    rw [rt.blank blank]
  · rfl

/-! ## Edit -/

theorem insert_ne {name : String} {record : TokenRecord} (ne : tokens.get? name ≠ some record) :
    tokens.insert name record ≠ tokens := by
  intro same
  apply ne
  rw [← same, OrdMap.get?_insert_self]

/-- A mutation that passes its checks changes the map, or rotates a record into itself. -/
theorem changes_iff (edit : m.edit hashToken tokens = .ok new) :
    m.Changes hashToken tokens ↔ new ≠ tokens := by
  obtain ⟨name, minted, rfl, valid, absent, rfl⟩ |
    ⟨name, minted, record, rfl, valid, found, rfl⟩ | ⟨name, record, rfl, found, rfl⟩ := edit_ok edit
  · constructor
    · intro _
      exact insert_ne (by rw [absent]; exact nofun)
    · intro _
      exact ⟨valid, absent⟩
  · constructor
    · rintro ⟨_, record', found', ne⟩
      exact insert_ne (by rw [found']; simpa using ne)
    · intro changed
      refine ⟨valid, record, found, ?_⟩
      rintro rfl
      exact changed (OrdMap.insert_same found)
  · constructor
    · intro _ same
      rw [← same, OrdMap.get?_erase, if_pos rfl] at found
      cases found
    · intro _
      exact ⟨record, found⟩

theorem not_changes_of_refused {msg : String} (edit : m.edit hashToken tokens = .error msg) :
    ¬ m.Changes hashToken tokens := by
  cases m with
  | add name minted =>
    rintro ⟨valid, absent⟩
    simp [Mutation.edit, valid, absent] at edit
  | rotate name minted =>
    rintro ⟨valid, record, found, _⟩
    simp [Mutation.edit, valid, found] at edit
  | revoke name =>
    rintro ⟨record, found⟩
    simp [Mutation.edit, found] at edit

/-! ## Mutate -/

theorem mutate_refused {msg : String} (edit : m.edit hashToken s.tokens = .error msg) :
    s.mutate toml hashToken m halt disk = (.err msg, s, disk) := by
  simp only [Store.mutate, edit]

/-- A mutation past its checks has the new map in memory, whatever persist returns. -/
theorem mutate_edited (edit : m.edit hashToken s.tokens = .ok new) :
    s.mutate toml hashToken m halt disk =
      (({ s with tokens := new }.persist toml halt disk).1.map fun _ => m.token,
        { s with tokens := new }, ({ s with tokens := new }.persist toml halt disk).2) := by
  simp only [Store.mutate, edit]

/-- Of the steps that can fail some come before the rename and some after: the file has
the old map or the new one. -/
theorem persist_holds_either (rt : toml.RoundTrips new) (loaded : Holds toml s.path disk s.tokens) :
    Holds toml s.path ({ s with tokens := new }.persist toml halt disk).2 s.tokens ∨
      Holds toml s.path ({ s with tokens := new }.persist toml halt disk).2 new := by
  have file := @persist_file toml { s with tokens := new } halt disk
  split at file
  · exact .inr (holds_of_written rt file)
  · exact .inl (holds_of_same_file file loaded)

theorem atomic_of_noStepFails (rt : toml.RoundTrips new)
    (loaded : Holds toml s.path disk s.tokens) (edit : m.edit hashToken s.tokens = .ok new)
    (fine : NoStepFails halt) :
    Atomic toml s.path s.tokens new (s.mutate toml hashToken m halt disk) := by
  have either := @persist_holds_either toml s halt disk new rt loaded
  have outcome := @persist_outcome toml { s with tokens := new } halt disk
  rw [mutate_edited edit]
  cases halt with
  | none =>
    have holds := @holds_of_written toml _ new s.path rt
      (@persist_file toml { s with tokens := new } none disk)
    constructor
    · exact .inr holds
    · intro value _
      exact ⟨rfl, holds⟩
    · intro msg isErr
      cases isErr
  | some h =>
    simp only [fine h rfl, ↓reduceIte] at outcome
    rw [outcome]
    constructor
    · exact either
    · intro value isOk
      cases isOk
    · intro msg isErr
      cases isErr

/-- Where nothing changes, an error leaves nothing behind either. -/
theorem atomic_of_same (rt : toml.RoundTrips s.tokens) (loaded : Holds toml s.path disk s.tokens)
    (edit : m.edit hashToken s.tokens = .ok s.tokens) :
    Atomic toml s.path s.tokens s.tokens (s.mutate toml hashToken m halt disk) := by
  have holds : Holds toml s.path (s.persist toml halt disk).2 s.tokens := by
    obtain old | new := persist_holds_either rt loaded
    · exact old
    · exact new
  rw [mutate_edited edit]
  constructor
  · exact .inl holds
  · intro value _
    exact ⟨rfl, holds⟩
  · intro msg _
    exact ⟨rfl, holds⟩

/-- A mutation is atomic across memory, disk and reply exactly when no step of its persist
returns an error, or when it has nothing to change. -/
theorem mutate_atomic_iff (toml : Toml) (hashToken : String → String) (s : Store)
    (m : Mutation) (halt : Option Halt) (disk : Disk)
    (loaded : Holds toml s.path disk s.tokens)
    (rt : toml.RoundTrips (m.target hashToken s.tokens)) :
    Atomic toml s.path s.tokens (m.target hashToken s.tokens)
        (s.mutate toml hashToken m halt disk) ↔
      NoStepFails halt ∨ ¬ m.Changes hashToken s.tokens := by
  cases edit : m.edit hashToken s.tokens with
  | error msg =>
    have refused := not_changes_of_refused edit
    rw [mutate_refused edit]
    constructor
    · intro _
      exact .inr refused
    · intro _
      have target : m.target hashToken s.tokens = s.tokens := by simp [Mutation.target, edit]
      rw [target]
      exact ⟨.inl loaded, nofun, fun _ _ => ⟨rfl, loaded⟩⟩
  | ok new =>
    have target : m.target hashToken s.tokens = new := by simp [Mutation.target, edit]
    rw [target] at rt ⊢
    rw [changes_iff edit]
    constructor
    · intro atomic
      by_cases fine : NoStepFails halt
      · exact .inl fine
      · right
        -- some step returned an error, so the reply is Err and memory must be as before
        obtain ⟨h, some, fails⟩ : ∃ h, halt = some h ∧ h.crash = false := by
          simpa [NoStepFails] using fine
        have outcome := @persist_outcome toml { s with tokens := new } halt disk
        simp only [some, fails] at outcome
        rw [mutate_edited edit, some] at atomic
        have memory := (atomic.err (h.step.context s.path) (by rw [outcome]; rfl)).1
        exact not_not_intro memory
    · intro condition
      cases condition with
      | inl fine => exact atomic_of_noStepFails rt loaded edit fine
      | inr same =>
        have eq := not_not.mp same
        subst eq
        exact atomic_of_same rt loaded edit

/-! ## A store with one token -/

/-- The table the crate prints for one token. -/
def oneTable (name : String) (record : TokenRecord) : String :=
  "[" ++ name ++ "]\nhash = \"" ++ record.hash ++ "\"\ncreated = \"" ++ record.created ++ "\"\n"

/-- The token minted from the bytes 0 to 31, its hash and a time. -/
def ciMinted : Minted :=
  ⟨"tok_AAECAwQFBgcICQoLDA0ODxAREhMUFRYXGBkaGxwdHh8", "2026-07-05T04:00:00+00:00"⟩

def ciHash : String → String := fun _ =>
  "sha256:8cf489e8d3fd2b1fd9ed3df0938f37ecf135bbf374bb8b39d21530cad0679b65"

def oneToken : Tokens := OrdMap.empty.insert "ci" (recordFor ciHash ciMinted)

/-- The crate on the empty map and on a map of one token. -/
def oneTokenToml : Toml where
  toStringPretty tokens := "\n".intercalate (tokens.entries.map fun (name, r) => oneTable name r)
  fromStr text :=
    if text = oneTable "ci" (recordFor ciHash ciMinted) then some oneToken
    else if isBlank text then some .empty
    else none

def oneTokenPath : StorePath :=
  ⟨"/var/lib/whdr/tokens.toml", "/var/lib/whdr", "/var/lib/whdr/tokens.toml.tmp"⟩

theorem oneToken_roundTrips : oneTokenToml.RoundTrips oneToken :=
  ⟨by decide +kernel, by decide +kernel⟩

theorem mutate_atomic_iff_add :
    Atomic oneTokenToml oneTokenPath .empty oneToken
      (Store.mutate oneTokenToml ciHash ⟨oneTokenPath, .empty⟩ (.add "ci" ciMinted) none
        ⟨none, none⟩) :=
  (mutate_atomic_iff oneTokenToml ciHash ⟨oneTokenPath, .empty⟩ (.add "ci" ciMinted) none
    ⟨none, none⟩ rfl oneToken_roundTrips).mpr (.inl nofun)

/-- The last fsync of an add fails: the reply is an error, and both the map and the file
have the new token. -/
theorem failed_sync_keeps_token :
    ¬ ∀ (toml : Toml) (hashToken : String → String) (s : Store) (m : Mutation)
      (halt : Option Halt) (disk : Disk), Holds toml s.path disk s.tokens →
      toml.RoundTrips (m.target hashToken s.tokens) →
      Atomic toml s.path s.tokens (m.target hashToken s.tokens)
        (s.mutate toml hashToken m halt disk) := by
  intro claim
  have atomic := claim oneTokenToml ciHash ⟨oneTokenPath, .empty⟩ (.add "ci" ciMinted)
    (some ⟨.fsyncDir, false, none⟩) ⟨none, none⟩ rfl oneToken_roundTrips
  have memory := (atomic.err "fsync dir /var/lib/whdr" (by decide)).1
  exact absurd memory (by decide)

end Whdr.TokenStore
