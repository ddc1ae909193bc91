import Mathlib.Data.List.Induction
import Whdr.Lib.Json
import Whdr.Lib.OrdMap

/-! What derived encoders and decoders make of an object: a tag, and fields that are
required, optional or defaulted. Unknown fields are skipped and a known field given twice is
an error. -/
namespace Serde

variable {α : Type*}

abbrev Fields := List (String × Json)

/-- The value of a field, if it is given; `none` if it is given twice. -/
def once : Fields → String → Option (Option Json)
  | [], _ => some none
  | (name, j) :: rest, key =>
    if name = key then
      match once rest key with
      | some none => some (some j)
      | _ => none
    else once rest key

def required (fields : Fields) (key : String) (decode : Json → Option α) : Option α :=
  match once fields key with
  | some (some j) => decode j
  | _ => none

def defaulted (fields : Fields) (key : String) (decode : Json → Option α) (value : α) : Option α :=
  match once fields key with
  | some (some j) => decode j
  | some none => some value
  | none => none

def nullable (decode : Json → Option α) : Json → Option (Option α)
  | .null => some none
  | j => (decode j).map some

/-- A field of an option type may be left out. -/
def omittable (fields : Fields) (key : String) (decode : Json → Option α) : Option (Option α) :=
  defaulted fields key (nullable decode) none

/-- The tag of an object and its other fields. -/
def tagged (key : String) : Json → Option (String × Fields)
  | .obj fields =>
    match once fields key with
    | some (some (.str tag)) => some (tag, fields.filter fun field => field.1 ≠ key)
    | _ => none
  | _ => none

def struct (decode : Fields → Option α) : Json → Option α
  | .obj fields => decode fields
  | _ => none

def string : Json → Option String
  | .str s => some s
  | _ => none

/-- An unsigned integer below `bound`. -/
def nat (bound : Nat) : Json → Option Nat
  | .num (.ofNat n) => if n < bound then some n else none
  | _ => none

def list (decode : Json → Option α) : Json → Option (List α)
  | .arr items => items.mapM decode
  | _ => none

def ofOption (encode : α → Json) : Option α → Json
  | none => .null
  | some a => encode a

/-! ## Maps -/

variable {V : Type*}

/-- Insert the entries in order, so that the last one of a key stays. -/
def ofEntries (entries : List (String × V)) : OrdMap String V :=
  entries.foldl (fun m entry => m.insert entry.1 entry.2) .empty

def map (decode : Json → Option V) : Json → Option (OrdMap String V)
  | .obj fields => (fields.mapM fun field => (decode field.2).map (field.1, ·)).map ofEntries
  | _ => none

def ofMap (encode : V → Json) (m : OrdMap String V) : Json :=
  .obj (m.entries.map fun entry => (entry.1, encode entry.2))

/-! ## Free values -/

mutual

/-- Every object lists its keys in ascending order. -/
def Canonical : Json → Prop
  | .arr items => CanonicalItems items
  | .obj fields => fields.Pairwise (fun a b => a.1 < b.1) ∧ CanonicalFields fields
  | _ => True

def CanonicalItems : List Json → Prop
  | [] => True
  | j :: rest => Canonical j ∧ CanonicalItems rest

def CanonicalFields : Fields → Prop
  | [] => True
  | (_, j) :: rest => Canonical j ∧ CanonicalFields rest

end

mutual

/-- Every object goes through a sorted map. -/
def normalize : Json → Json
  | .arr items => .arr (normalizeItems items)
  | .obj fields => .obj (ofEntries (normalizeFields fields)).entries
  | j => j

def normalizeItems : List Json → List Json
  | [] => []
  | j :: rest => normalize j :: normalizeItems rest

def normalizeFields : Fields → Fields
  | [] => []
  | (key, j) :: rest => (key, normalize j) :: normalizeFields rest

end

/-- A value whose objects are sorted maps. -/
structure Value where
  json : Json
  canonical : Canonical json

/-! ## Fields among others -/

section
variable (keep : String × Json → Bool) {name : String}

/-- Fields of other names may be left out. -/
theorem once_filter (kept : ∀ j, keep (name, j) = true) (fields : Fields) :
    once (fields.filter keep) name = once fields name := by
  induction fields with
  | nil => rfl
  | cons field rest ih =>
    obtain ⟨key, j⟩ := field
    by_cases same : key = name
    · subst same
      rw [List.filter_cons_of_pos (kept j)]
      simp only [once, if_true, ih]
    · by_cases stays : keep (key, j) = true
      · rw [List.filter_cons_of_pos stays]
        simp only [once, same, if_false, ih]
      · rw [List.filter_cons_of_neg stays, ih]
        simp only [once, same, if_false]

theorem lookup_filter (kept : ∀ j, keep (name, j) = true) (fields : Fields) :
    (fields.filter keep).lookup name = fields.lookup name := by
  induction fields with
  | nil => rfl
  | cons field rest ih =>
    obtain ⟨key, j⟩ := field
    by_cases stays : keep (key, j) = true
    · rw [List.filter_cons_of_pos stays, List.lookup_cons, List.lookup_cons, ih]
    · have other : (name == key) = false := by
        rw [beq_eq_false_iff_ne]
        rintro rfl
        exact stays (kept j)
      rw [List.filter_cons_of_neg stays, List.lookup_cons, other, ih]

end

/-! ## What is written is read back -/

@[simp] theorem string_str (s : String) : string (.str s) = some s := rfl

theorem nat_num {bound n : Nat} (small : n < bound) : nat bound (.num n) = some n := if_pos small

theorem mapM_map {β : Type*} (encode : α → β) (decode : β → Option α) (as : List α)
    (back : ∀ a ∈ as, decode (encode a) = some a) : (as.map encode).mapM decode = some as := by
  induction as with
  | nil => rfl
  | cons a as ih =>
    have first := back a List.mem_cons_self
    have others := ih fun b mem => back b (List.mem_cons_of_mem _ mem)
    rw [List.map_cons, List.mapM_cons, first, others]
    rfl

theorem list_arr {encode : α → Json} {decode : Json → Option α} (as : List α)
    (back : ∀ a ∈ as, decode (encode a) = some a) : list decode (.arr (as.map encode)) = some as :=
  mapM_map encode decode as back

@[simp] theorem list_strings (as : List String) : list string (.arr (as.map .str)) = some as :=
  list_arr as fun _ _ => rfl

@[simp] theorem nullable_string (a : Option String) :
    nullable string (ofOption .str a) = some a := by
  cases a <;> rfl

/-- Inserting the entries of a map again gives the map. -/
theorem ofEntries_entries (m : OrdMap String V) : ofEntries m.entries = m := by
  obtain ⟨entries, ascending⟩ := m
  dsimp only
  induction entries using List.reverseRecOn with
  | nil => rfl
  | append_singleton entries entry ih =>
    have front := (List.pairwise_append.mp ascending).1
    have below := (List.pairwise_append.mp ascending).2.2
    have same : ofEntries (entries ++ [entry]) = (ofEntries entries).insert entry.1 entry.2 := by
      simp [ofEntries]
    have added := OrdMap.insert_above ⟨entries, front⟩ entry.2 fun e mem =>
      below e mem entry List.mem_cons_self
    rw [same, ih front]
    cases inserted : OrdMap.insert ⟨entries, front⟩ entry.1 entry.2
    rw [inserted] at added
    dsimp only at added
    subst added
    rfl

theorem map_ofMap {encode : V → Json} {decode : Json → Option V} (m : OrdMap String V)
    (back : ∀ v, decode (encode v) = some v) : map decode (ofMap encode m) = some m := by
  simp only [map, ofMap]
  rw [mapM_map (fun entry : String × V => (entry.1, encode entry.2)) _ m.entries
    (fun entry _ => by rw [back]; rfl), Option.map_some, ofEntries_entries]

mutual

theorem normalize_canonical (j : Json) (canonical : Canonical j) : normalize j = j := by
  match j with
  | .null => simp [normalize]
  | .bool _ => simp [normalize]
  | .num _ => simp [normalize]
  | .float _ => simp [normalize]
  | .str _ => simp [normalize]
  | .arr items =>
    rw [Canonical] at canonical
    rw [normalize, normalizeItems_canonical items canonical]
  | .obj fields =>
    rw [Canonical] at canonical
    rw [normalize, normalizeFields_canonical fields canonical.2,
      ofEntries_entries ⟨fields, canonical.1⟩]

theorem normalizeItems_canonical (items : List Json) (canonical : CanonicalItems items) :
    normalizeItems items = items := by
  match items with
  | [] => rw [normalizeItems]
  | j :: rest =>
    rw [CanonicalItems] at canonical
    rw [normalizeItems, normalize_canonical j canonical.1, normalizeItems_canonical rest canonical.2]

theorem normalizeFields_canonical (fields : Fields) (canonical : CanonicalFields fields) :
    normalizeFields fields = fields := by
  match fields with
  | [] => rw [normalizeFields]
  | (key, j) :: rest =>
    rw [CanonicalFields] at canonical
    rw [normalizeFields, normalize_canonical j canonical.1,
      normalizeFields_canonical rest canonical.2]

end

theorem canonicalFields_iff (fields : Fields) :
    CanonicalFields fields ↔ ∀ field ∈ fields, Canonical field.2 := by
  induction fields with
  | nil => simp [CanonicalFields]
  | cons field fields ih =>
    rw [CanonicalFields, ih, List.forall_mem_cons]

/-- What is in the map came from the list. -/
theorem mem_ofEntries {entries : List (String × V)} {entry : String × V}
    (mem : entry ∈ (ofEntries entries).entries) : entry ∈ entries := by
  induction entries using List.reverseRecOn with
  | nil => exact mem
  | append_singleton entries last ih =>
    rw [ofEntries, List.foldl_append] at mem
    obtain ⟨key, val⟩ | ⟨_, old⟩ :=
      (OrdMap.mem_insertEntry (ofEntries entries).ascending entry.1 entry.2).mp mem
    · rw [Prod.ext key val]
      exact List.mem_append_right _ List.mem_cons_self
    · exact List.mem_append_left _ (ih old)

mutual

theorem canonical_normalize (j : Json) : Canonical (normalize j) := by
  match j with
  | .null => simp [normalize, Canonical]
  | .bool _ => simp [normalize, Canonical]
  | .num _ => simp [normalize, Canonical]
  | .float _ => simp [normalize, Canonical]
  | .str _ => simp [normalize, Canonical]
  | .arr items =>
    rw [normalize, Canonical]
    exact canonical_normalizeItems items
  | .obj fields =>
    rw [normalize, Canonical, canonicalFields_iff]
    refine ⟨(ofEntries _).ascending, fun field mem => ?_⟩
    exact (canonicalFields_iff _).mp (canonical_normalizeFields fields) field (mem_ofEntries mem)

theorem canonical_normalizeItems (items : List Json) : CanonicalItems (normalizeItems items) := by
  match items with
  | [] => rw [normalizeItems, CanonicalItems]; trivial
  | j :: rest =>
    rw [normalizeItems, CanonicalItems]
    exact ⟨canonical_normalize j, canonical_normalizeItems rest⟩

theorem canonical_normalizeFields (fields : Fields) : CanonicalFields (normalizeFields fields) := by
  match fields with
  | [] => rw [normalizeFields, CanonicalFields]; trivial
  | (key, j) :: rest =>
    rw [normalizeFields, CanonicalFields]
    exact ⟨canonical_normalize j, canonical_normalizeFields rest⟩

end

def value (j : Json) : Option Value := some ⟨normalize j, canonical_normalize j⟩

@[simp] theorem value_json (v : Value) : value v.json = some v := by
  obtain ⟨j, canonical⟩ := v
  simp only [value, normalize_canonical j canonical]

end Serde
