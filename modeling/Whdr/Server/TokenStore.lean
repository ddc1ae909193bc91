import Whdr.Lib.OrdMap
import Whdr.Proto.Messages

/-! The subscriber tokens in memory and on disk (token_store.rs). The text of the file is
the toml crate's, the hash of a token the sha2 crate's: both are parameters. -/
namespace Whdr.TokenStore

structure TokenRecord where
  hash : String
  created : String
  deriving DecidableEq, Repr

abbrev Tokens := OrdMap String TokenRecord

/-- The store's path as the source prints it, its directory and its temporary file. -/
structure StorePath where
  file : String
  parent : String
  tmp : String
  deriving DecidableEq, Repr

structure Store where
  path : StorePath
  tokens : Tokens
  deriving DecidableEq

/-- A file: its text and its permission bits. -/
structure DiskFile where
  text : String
  mode : Nat
  deriving DecidableEq, Repr

structure Disk where
  file : Option DiskFile
  tmp : Option DiskFile
  deriving DecidableEq, Repr

/-- `to_string_pretty` and `from_str` on the token map. -/
structure Toml where
  toStringPretty : Tokens → String
  fromStr : String → Option Tokens

/-! ## Load -/

def enforce0600 (path : String) (f : DiskFile) : Except String Unit :=
  if f.mode % 0o1000 ≠ 0o600 then
    .error ("token store " ++ path ++ " must have mode 0600, got " ++
      String.ofList (Nat.toDigits 8 (f.mode % 0o1000)))
  else .ok ()

/-- The White_Space property, which `trim` goes by. -/
def whiteSpace (c : Char) : Bool :=
  let n := c.toNat
  (9 ≤ n && n ≤ 13) || n == 0x20 || n == 0x85 || n == 0xA0 || n == 0x1680 ||
    (0x2000 ≤ n && n ≤ 0x200A) || n == 0x2028 || n == 0x2029 || n == 0x202F || n == 0x205F ||
    n == 0x3000

/-- `text.trim().is_empty()`. -/
def isBlank (text : String) : Bool := text.toList.all whiteSpace

def loadOrEmpty (toml : Toml) (path : StorePath) (disk : Disk) : Except String Store :=
  match disk.file with
  | none => .ok ⟨path, .empty⟩
  | some f =>
    match enforce0600 path.file f with
    | .error msg => .error msg
    | .ok () =>
      if isBlank f.text then .ok ⟨path, .empty⟩
      else match toml.fromStr f.text with
      | none => .error "parse token store toml"
      | some tokens => .ok ⟨path, tokens⟩

/-! ## Persist -/

inductive PersistStep
  | createDir
  | createTmp
  | chmod
  | write
  | fsync
  | rename
  | openDir
  | fsyncDir
  deriving DecidableEq, Repr

def persistSteps : List PersistStep :=
  [.createDir, .createTmp, .chmod, .write, .fsync, .rename, .openDir, .fsyncDir]

def PersistStep.context (path : StorePath) : PersistStep → String
  | .createDir => "create token store dir " ++ path.parent
  | .createTmp => "create " ++ path.tmp
  | .chmod => "chmod " ++ path.tmp
  | .write => "write " ++ path.tmp
  | .fsync => "fsync " ++ path.tmp
  | .rename => "rename " ++ path.tmp ++ " to " ++ path.file
  | .openDir => "open dir " ++ path.parent
  | .fsyncDir => "fsync dir " ++ path.parent

/-- A step that succeeds. A temporary file left by an earlier attempt is truncated and
keeps its mode until the chmod; a new one has the mode of umask 022. -/
def PersistStep.apply (text : String) (disk : Disk) : PersistStep → Disk
  | .createTmp => { disk with tmp := some ⟨"", (disk.tmp.map DiskFile.mode).getD 0o644⟩ }
  | .chmod => { disk with tmp := disk.tmp.map fun f => { f with mode := 0o600 } }
  | .write => { disk with tmp := disk.tmp.map fun f => { f with text := text } }
  | .rename => ⟨disk.tmp, none⟩
  | .createDir | .fsync | .openDir | .fsyncDir => disk

/-- Where persist stops short: the step returns an error, or the process dies there.
The step may leave anything in the temporary file. A rename that did not succeed left
both files alone. -/
structure Halt where
  step : PersistStep
  crash : Bool
  tmp : Option DiskFile
  deriving DecidableEq, Repr

def Halt.leaves (h : Halt) (disk : Disk) : Disk :=
  match h.step with
  | .createTmp | .chmod | .write => { disk with tmp := h.tmp }
  | .createDir | .fsync | .rename | .openDir | .fsyncDir => disk

/-- How a call ended for its caller. -/
inductive Outcome (α : Type)
  | ok (value : α)
  | err (msg : String)
  | crashed
  deriving DecidableEq, Repr

def Outcome.map {α β : Type} (f : α → β) : Outcome α → Outcome β
  | .ok value => .ok (f value)
  | .err msg => .err msg
  | .crashed => .crashed

def runPersist (path : StorePath) (text : String) (halt : Option Halt) :
    List PersistStep → Disk → Outcome Unit × Disk
  | [], disk => (.ok (), disk)
  | step :: rest, disk =>
    match halt.filter (·.step = step) with
    | some h => (if h.crash then .crashed else .err (step.context path), h.leaves disk)
    | none => runPersist path text halt rest (step.apply text disk)

def Store.persist (toml : Toml) (s : Store) (halt : Option Halt) (disk : Disk) :
    Outcome Unit × Disk :=
  runPersist s.path (toml.toStringPretty s.tokens) halt persistSteps disk

/-! ## Mutations -/

def nameChar (c : Char) : Bool :=
  c.isLower || c.isUpper || c.isDigit || c == '-' || c == '_'

def validateName (name : String) : Except String Unit :=
  if name.toList.isEmpty || !name.toList.all nameChar then
    .error ("invalid token name: " ++ name)
  else .ok ()

/-- A minted token with the time of minting. -/
structure Minted where
  token : String
  created : String
  deriving DecidableEq, Repr

inductive Mutation
  | add (name : String) (minted : Minted)
  | rotate (name : String) (minted : Minted)
  | revoke (name : String)
  deriving DecidableEq, Repr

def Mutation.name : Mutation → String
  | .add name _ | .rotate name _ | .revoke name => name

/-- The token a mutation hands back when it succeeds. -/
def Mutation.token : Mutation → Option String
  | .add _ minted | .rotate _ minted => some minted.token
  | .revoke _ => none

section
variable (toml : Toml) (hashToken : String → String)

def recordFor (minted : Minted) : TokenRecord := ⟨hashToken minted.token, minted.created⟩

/-- The checks of a mutation, then its edit of the map. -/
def Mutation.edit (tokens : Tokens) : Mutation → Except String Tokens
  | .add name minted =>
    match validateName name with
    | .error msg => .error msg
    | .ok () =>
      if (tokens.get? name).isSome then .error ("token name already exists: " ++ name)
      else .ok (tokens.insert name (recordFor hashToken minted))
  | .rotate name minted =>
    match validateName name with
    | .error msg => .error msg
    | .ok () =>
      if (tokens.get? name).isNone then .error ("unknown token name: " ++ name)
      else .ok (tokens.insert name (recordFor hashToken minted))
  | .revoke name =>
    if (tokens.get? name).isNone then .error ("unknown token name: " ++ name)
    else .ok (tokens.erase name)

/-- `add`, `rotate` and `revoke`: the map is edited first and stays edited. -/
def Store.mutate (s : Store) (m : Mutation) (halt : Option Halt) (disk : Disk) :
    Outcome (Option String) × Store × Disk :=
  match m.edit hashToken s.tokens with
  | .error msg => (.err msg, s, disk)
  | .ok tokens =>
    let s := { s with tokens := tokens }
    let (outcome, disk) := s.persist toml halt disk
    (outcome.map fun _ => m.token, s, disk)

def Store.authenticate (s : Store) (presented : String) : Option String :=
  (s.tokens.entries.find? fun (_, record) => record.hash == hashToken presented).map Prod.fst

def Store.invalidatedNames (s replacement : Store) : List String :=
  s.tokens.entries.filterMap fun (name, record) =>
    if replacement.tokens.get? name = some record then none else some name

end

/-- What a mutation that passes its checks does to the map. -/
theorem edit_ok {hashToken : String → String} {m : Mutation} {tokens new : Tokens}
    (edit : m.edit hashToken tokens = .ok new) :
    (∃ name minted, m = .add name minted ∧ validateName name = .ok () ∧
      tokens.get? name = none ∧ new = tokens.insert name (recordFor hashToken minted)) ∨
    (∃ name minted record, m = .rotate name minted ∧ validateName name = .ok () ∧
      tokens.get? name = some record ∧ new = tokens.insert name (recordFor hashToken minted)) ∨
    ∃ name record, m = .revoke name ∧ tokens.get? name = some record ∧
      new = tokens.erase name := by
  cases m with
  | add name minted =>
    simp only [Mutation.edit] at edit
    split at edit
    · cases edit
    · rename_i valid
      split at edit
      · cases edit
      · rename_i absent
        cases edit
        exact .inl ⟨name, minted, rfl, valid, by simpa using absent, rfl⟩
  | rotate name minted =>
    simp only [Mutation.edit] at edit
    split at edit
    · cases edit
    · rename_i valid
      split at edit
      · cases edit
      · rename_i present
        cases edit
        obtain ⟨record, found⟩ := Option.ne_none_iff_exists'.mp (by simpa using present)
        exact .inr (.inl ⟨name, minted, record, rfl, valid, found, rfl⟩)
  | revoke name =>
    simp only [Mutation.edit] at edit
    split at edit
    · cases edit
    · rename_i present
      cases edit
      obtain ⟨record, found⟩ := Option.ne_none_iff_exists'.mp (by simpa using present)
      exact .inr (.inr ⟨name, record, rfl, found, rfl⟩)

end Whdr.TokenStore
