import Mathlib.Algebra.GroupWithZero.Nat
import Mathlib.Order.Lattice
import Mathlib.Data.List.Basic
import Mathlib.Data.Option.Basic

/-! Finite maps kept in strictly ascending key order, so that two maps with the
same bindings are equal and iteration goes up the keys. -/

/-- Bindings with strictly ascending keys. -/
structure OrdMap (K V : Type*) [LinearOrder K] where
  entries : List (K × V)
  ascending : entries.Pairwise (fun a b => a.1 < b.1)

namespace OrdMap

variable {K V W : Type*} [LinearOrder K]

def empty : OrdMap K V := ⟨[], .nil⟩

def get? (m : OrdMap K V) (k : K) : Option V :=
  (m.entries.find? fun e => e.1 = k).map Prod.snd

def keys (m : OrdMap K V) : List K := m.entries.map Prod.fst

def values (m : OrdMap K V) : List V := m.entries.map Prod.snd

def size (m : OrdMap K V) : Nat := m.entries.length

/-- The binding of the least key. -/
def first? (m : OrdMap K V) : Option (K × V) := m.entries.head?

/-- The bindings whose key is at least `k`, in key order. -/
def startingAt (m : OrdMap K V) (k : K) : List (K × V) := m.entries.filter fun e => k ≤ e.1

def insertEntry (k : K) (v : V) : List (K × V) → List (K × V)
  | [] => [(k, v)]
  | (j, w) :: rest =>
    if k < j then (k, v) :: (j, w) :: rest
    else if k = j then (k, v) :: rest
    else (j, w) :: insertEntry k v rest

theorem mem_insertEntry {k : K} {v : V} {es : List (K × V)}
    (asc : es.Pairwise (fun a b => a.1 < b.1)) (j : K) (w : V) :
    (j, w) ∈ insertEntry k v es ↔ (j = k ∧ w = v) ∨ (j ≠ k ∧ (j, w) ∈ es) := by
  induction es with
  | nil => simp [insertEntry]
  | cons e rest ih =>
    obtain ⟨i, u⟩ := e
    obtain ⟨below, asc⟩ := List.pairwise_cons.mp asc
    simp only [insertEntry]
    split
    · rename_i lt
      have fresh : (j, w) ∈ (i, u) :: rest → j ≠ k := by
        rintro hm rfl
        obtain he | hm := List.mem_cons.mp hm
        · cases he; exact lt_irrefl _ lt
        · exact lt_asymm lt (below _ hm)
      grind
    · rename_i nlt
      split
      · rename_i eq
        subst eq
        have fresh : (j, w) ∈ rest → j ≠ k := by
          rintro hm rfl
          exact lt_irrefl _ (below (j, w) hm)
        grind
      · rename_i ne
        have := ih asc
        grind

theorem insertEntry_ascending {k : K} {v : V} {es : List (K × V)}
    (asc : es.Pairwise (fun a b => a.1 < b.1)) :
    (insertEntry k v es).Pairwise (fun a b => a.1 < b.1) := by
  induction es with
  | nil => simp [insertEntry]
  | cons e rest ih =>
    obtain ⟨i, u⟩ := e
    obtain ⟨below, asc'⟩ := List.pairwise_cons.mp asc
    simp only [insertEntry]
    split
    · rename_i lt
      refine List.pairwise_cons.mpr ⟨?_, asc⟩
      intro b hb
      obtain rfl | hb := List.mem_cons.mp hb
      · exact lt
      · exact lt_trans lt (below b hb)
    · rename_i nlt
      split
      · rename_i eq
        subst eq
        exact List.pairwise_cons.mpr ⟨below, asc'⟩
      · rename_i ne
        refine List.pairwise_cons.mpr ⟨?_, ih asc'⟩
        rintro ⟨j, w⟩ hb
        obtain ⟨rfl, _⟩ | ⟨_, hb⟩ := (mem_insertEntry asc' j w).mp hb
        · exact lt_of_le_of_ne (not_lt.mp nlt) (Ne.symm ne)
        · exact below _ hb

def insert (m : OrdMap K V) (k : K) (v : V) : OrdMap K V :=
  ⟨insertEntry k v m.entries, insertEntry_ascending m.ascending⟩

/-- Keep the bindings `p` accepts. -/
def retain (m : OrdMap K V) (p : K → V → Bool) : OrdMap K V :=
  ⟨m.entries.filter fun e => p e.1 e.2, m.ascending.filter _⟩

def erase (m : OrdMap K V) (k : K) : OrdMap K V := m.retain fun j _ => j ≠ k

def mapValues (f : K → V → W) (m : OrdMap K V) : OrdMap K W :=
  ⟨m.entries.map fun e => (e.1, f e.1 e.2), by
    rw [List.pairwise_map]; exact m.ascending⟩

instance [DecidableEq V] : DecidableEq (OrdMap K V) := fun m n =>
  decidable_of_iff (m.entries = n.entries) <| by
    cases m; cases n; simp

theorem get?_eq_some_iff (m : OrdMap K V) (k : K) (v : V) :
    m.get? k = some v ↔ (k, v) ∈ m.entries := by
  obtain ⟨es, asc⟩ := m
  simp only [get?, Option.map_eq_some_iff]
  induction es with
  | nil => simp
  | cons e rest ih =>
    obtain ⟨i, u⟩ := e
    obtain ⟨below, asc⟩ := List.pairwise_cons.mp asc
    by_cases eq : i = k
    · subst eq
      have fresh : (i, v) ∉ rest := fun hm => lt_irrefl i (below (i, v) hm)
      simp [fresh, eq_comm]
    · have := ih asc
      simp only [List.find?_cons, eq, decide_false, List.mem_cons, Prod.mk.injEq, Ne.symm eq,
        false_and, false_or]
      exact this

/-- Equal lookups make equal maps. -/
theorem ext_get? {m n : OrdMap K V} (h : ∀ k, m.get? k = n.get? k) : m = n := by
  have mem : ∀ e, e ∈ m.entries ↔ e ∈ n.entries := by
    rintro ⟨k, v⟩
    rw [← get?_eq_some_iff, ← get?_eq_some_iff, h k]
  obtain ⟨es, ascE⟩ := m
  obtain ⟨fs, ascF⟩ := n
  have irr : ∀ (l : List (K × V)), l.Pairwise (fun a b => a.1 < b.1) → l.Nodup := by
    intro l asc
    refine asc.imp ?_
    rintro a b lt rfl
    exact lt_irrefl _ lt
  have perm : es.Perm fs := (List.perm_ext_iff_of_nodup (irr es ascE) (irr fs ascF)).mpr mem
  congr
  exact perm.eq_of_pairwise (fun a b _ _ ab ba => absurd ba (lt_asymm ab)) ascE ascF

@[simp] theorem get?_empty (k : K) : (empty : OrdMap K V).get? k = none := rfl

theorem get?_insert (m : OrdMap K V) (k j : K) (v : V) :
    (m.insert k v).get? j = if j = k then some v else m.get? j := by
  apply Option.ext
  intro w
  rw [get?_eq_some_iff]
  change (j, w) ∈ insertEntry k v m.entries ↔ _
  rw [mem_insertEntry m.ascending]
  split
  · rename_i eq
    simp [eq, eq_comm]
  · rename_i ne
    simp [ne, get?_eq_some_iff]

@[simp] theorem get?_insert_self (m : OrdMap K V) (k : K) (v : V) :
    (m.insert k v).get? k = some v := by simp [get?_insert]

theorem get?_insert_ne (m : OrdMap K V) {k j : K} (v : V) (ne : j ≠ k) :
    (m.insert k v).get? j = m.get? j := by simp [get?_insert, ne]

/-- Binding a key to what it is bound to changes nothing. -/
theorem insert_same {m : OrdMap K V} {k : K} {v : V} (h : m.get? k = some v) :
    m.insert k v = m := by
  apply ext_get?
  intro j
  rw [get?_insert]
  split
  · rename_i eq
    rw [eq, h]
  · rfl

theorem get?_retain (m : OrdMap K V) (p : K → V → Bool) (k : K) :
    (m.retain p).get? k = (m.get? k).filter (p k) := by
  apply Option.ext
  intro v
  rw [get?_eq_some_iff, Option.filter_eq_some_iff, get?_eq_some_iff]
  simp [retain]

theorem get?_retain_eq_some (m : OrdMap K V) (p : K → V → Bool) (k : K) (v : V) :
    (m.retain p).get? k = some v ↔ m.get? k = some v ∧ p k v = true := by
  rw [get?_retain, Option.filter_eq_some_iff]

theorem get?_erase (m : OrdMap K V) (k j : K) :
    (m.erase k).get? j = if j = k then none else m.get? j := by
  simp only [erase, get?_retain]
  split
  · rename_i eq; subst eq; cases m.get? j <;> simp [Option.filter]
  · rename_i ne; cases m.get? j <;> simp [Option.filter, ne]

theorem get?_mapValues (f : K → V → W) (m : OrdMap K V) (k : K) :
    (mapValues f m).get? k = (m.get? k).map (f k) := by
  apply Option.ext
  intro w
  simp only [get?_eq_some_iff, mapValues, List.mem_map, Prod.mk.injEq, Option.map_eq_some_iff]
  constructor
  · rintro ⟨⟨j, v⟩, hm, rfl, rfl⟩
    exact ⟨v, hm, rfl⟩
  · rintro ⟨v, hm, rfl⟩
    exact ⟨(k, v), hm, rfl, rfl⟩

theorem mem_values_iff (m : OrdMap K V) (v : V) : v ∈ m.values ↔ ∃ k, m.get? k = some v := by
  simp [values, get?_eq_some_iff]

theorem mem_keys_iff (m : OrdMap K V) (k : K) : k ∈ m.keys ↔ (m.get? k).isSome = true := by
  simp [keys, Option.isSome_iff_exists, get?_eq_some_iff]

theorem nodup_keys (m : OrdMap K V) : m.keys.Nodup := by
  apply List.pairwise_map.mpr
  exact m.ascending.imp fun lt => ne_of_lt lt

theorem first?_eq_none (m : OrdMap K V) (h : m.first? = none) (k : K) : m.get? k = none := by
  have nil : m.entries = [] := List.head?_eq_none_iff.mp h
  simp [get?, nil]

/-- The first binding is a binding, and no key is below its key. -/
theorem first?_eq_some (m : OrdMap K V) {k : K} {v : V} (h : m.first? = some (k, v)) :
    m.get? k = some v ∧ ∀ j w, m.get? j = some w → k ≤ j := by
  obtain ⟨rest, he⟩ := List.head?_eq_some_iff.mp h
  refine ⟨(m.get?_eq_some_iff k v).mpr (by simp [he]), ?_⟩
  intro j w hj
  have mem : (j, w) ∈ (k, v) :: rest := he ▸ (m.get?_eq_some_iff j w).mp hj
  obtain eq | mem := List.mem_cons.mp mem
  · cases eq; exact le_refl _
  · exact ((List.pairwise_cons.mp (he ▸ m.ascending)).1 _ mem).le

/-- A key above all others goes to the end. -/
theorem insert_above (m : OrdMap K V) {k : K} (v : V) (above : ∀ e ∈ m.entries, e.1 < k) :
    (m.insert k v).entries = m.entries ++ [(k, v)] := by
  change insertEntry k v m.entries = _
  obtain ⟨es, _⟩ := m
  dsimp only at above ⊢
  induction es with
  | nil => rfl
  | cons e rest ih =>
    obtain ⟨j, w⟩ := e
    have lt : j < k := above (j, w) List.mem_cons_self
    have rest := ih (List.pairwise_cons.mp ‹_›).2 fun e he => above e (List.mem_cons_of_mem _ he)
    rw [insertEntry, if_neg (lt_asymm lt), if_neg (ne_of_gt lt), rest, List.cons_append]

/-- Erasing the least key leaves the other bindings. -/
theorem erase_first (m : OrdMap K V) {k : K} {v : V} {rest : List (K × V)}
    (first : m.entries = (k, v) :: rest) : (m.erase k).entries = rest := by
  have below := (List.pairwise_cons.mp (first ▸ m.ascending)).1
  simp only [erase, retain, first, List.filter_cons, ne_eq, not_true_eq_false, decide_false,
    Bool.false_eq_true, if_false]
  rw [List.filter_eq_self]
  intro e he
  simpa using (below e he).ne'

theorem insertEntry_length {k : K} {v : V} {es : List (K × V)} (fresh : ∀ w, (k, w) ∉ es) :
    (insertEntry k v es).length = es.length + 1 := by
  induction es with
  | nil => rfl
  | cons e rest ih =>
    obtain ⟨j, w⟩ := e
    have ne : k ≠ j := by
      rintro rfl
      exact fresh w List.mem_cons_self
    have rest := ih fun w mem => fresh w (List.mem_cons_of_mem _ mem)
    by_cases lt : k < j
    · simp [insertEntry, lt]
    · simp [insertEntry, lt, ne, rest]

theorem size_insert_new (m : OrdMap K V) {k : K} (v : V) (fresh : m.get? k = none) :
    (m.insert k v).size = m.size + 1 := by
  apply insertEntry_length
  intro w mem
  rw [← get?_eq_some_iff, fresh] at mem
  cases mem

theorem size_erase (m : OrdMap K V) {k : K} {v : V} (bound : m.get? k = some v) :
    (m.erase k).size + 1 = m.size := by
  have fresh : (m.erase k).get? k = none := by rw [get?_erase, if_pos rfl]
  have back : (m.erase k).insert k v = m := by
    apply ext_get?
    intro j
    rw [get?_insert, get?_erase]
    by_cases eq : j = k
    · rw [if_pos eq, eq, bound]
    · rw [if_neg eq, if_neg eq]
  rw [← size_insert_new _ v fresh, back]

theorem size_insert_old (m : OrdMap K V) {k : K} {v : V} (w : V) (bound : m.get? k = some v) :
    (m.insert k w).size = m.size := by
  have fresh : (m.erase k).get? k = none := by rw [get?_erase, if_pos rfl]
  have same : (m.erase k).insert k w = m.insert k w := by
    apply ext_get?
    intro j
    rw [get?_insert, get?_insert, get?_erase]
    by_cases eq : j = k
    · rw [if_pos eq, if_pos eq]
    · rw [if_neg eq, if_neg eq, if_neg eq]
  rw [← same, size_insert_new _ w fresh, size_erase m bound]

/-- The last binding is a binding, and no key is above its key. -/
theorem last_eq_some (m : OrdMap K V) {k : K} {v : V} (h : m.entries.getLast? = some (k, v)) :
    m.get? k = some v ∧ ∀ j w, m.get? j = some w → j ≤ k := by
  obtain ⟨init, he⟩ := List.getLast?_eq_some_iff.mp h
  refine ⟨(m.get?_eq_some_iff k v).mpr (by simp [he]), ?_⟩
  intro j w hj
  have mem : (j, w) ∈ init ++ [(k, v)] := he ▸ (m.get?_eq_some_iff j w).mp hj
  have below := (List.pairwise_append.mp (he ▸ m.ascending)).2.2
  obtain mem | eq := List.mem_append.mp mem
  · exact (below _ mem _ List.mem_cons_self).le
  · cases List.mem_singleton.mp eq; exact le_refl _

/-- The sum of a number for each value. -/
def total (f : V → Nat) (m : OrdMap K V) : Nat := (m.values.map f).sum

theorem insertEntry_total (f : V → Nat) {k : K} {v w : V} {es : List (K × V)}
    (asc : es.Pairwise (fun a b => a.1 < b.1)) (bound : (k, v) ∈ es) :
    (((insertEntry k w es).map Prod.snd).map f).sum + f v =
      ((es.map Prod.snd).map f).sum + f w := by
  induction es with
  | nil => cases bound
  | cons e rest ih =>
    obtain ⟨j, u⟩ := e
    obtain ⟨below, asc⟩ := List.pairwise_cons.mp asc
    by_cases same : k = j
    · subst same
      obtain eq | later := List.mem_cons.mp bound
      · cases eq
        simp only [insertEntry, lt_irrefl, if_false, if_true, List.map_cons, List.sum_cons]
        omega
      · exact absurd (below _ later) (lt_irrefl k)
    · obtain eq | later := List.mem_cons.mp bound
      · cases eq
        exact absurd rfl same
      · have rest := ih asc later
        have up : ¬ k < j := lt_asymm (below _ later)
        simp only [insertEntry, up, same, if_false, List.map_cons, List.sum_cons]
        omega

theorem total_insert_old (f : V → Nat) (m : OrdMap K V) {k : K} {v : V} (w : V)
    (bound : m.get? k = some v) : (m.insert k w).total f + f v = m.total f + f w :=
  insertEntry_total f m.ascending ((m.get?_eq_some_iff k v).mp bound)

end OrdMap
