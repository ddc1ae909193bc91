import Mathlib.Data.List.Basic

/-! A consumer that reads numbered items and remembers the highest number it took.
It ignores numbers at or below its cursor, so an item that arrives after a higher one
is lost. A cut makes it stop and start over from the cursor. -/
namespace CursorStream

inductive Mark
  | item (n : Nat)
  | cut
  deriving DecidableEq, Repr

/-- The cursor once everything is read. -/
def reach (c : Nat) : List Mark → Nat
  | [] => c
  | .item n :: rest => reach (max c n) rest
  | .cut :: rest => reach c rest

/-- Up to the first cut, no item takes the cursor past a wanted number. -/
def Gapless (wanted : Nat → Prop) : Nat → List Mark → Prop
  | _, [] => True
  | _, .cut :: _ => True
  | c, .item n :: rest => (∀ k, wanted k → c < k → n ≤ k) ∧ Gapless wanted (max c n) rest

/-- Every wanted number is reached, or owed by someone else, or behind a cut. -/
def Complete (wanted owed : Nat → Prop) (c : Nat) (marks : List Mark) : Prop :=
  ∀ k, wanted k → k ≤ reach c marks ∨ owed k ∨ .cut ∈ marks

variable {wanted wanted' owed : Nat → Prop} {b c k n : Nat} {xs ys : List Mark}

theorem reach_append : reach c (xs ++ ys) = reach (reach c xs) ys := by
  induction xs generalizing c with
  | nil => rfl
  | cons x rest ih => cases x <;> exact ih

theorem le_reach : c ≤ reach c xs := by
  induction xs generalizing c with
  | nil => exact Nat.le_refl _
  | cons x rest ih =>
    cases x with
    | item n => exact Nat.le_trans (Nat.le_max_left c n) ih
    | cut => exact ih

theorem item_le_reach (h : .item n ∈ xs) : n ≤ reach c xs := by
  induction xs generalizing c with
  | nil => cases h
  | cons x rest ih =>
    obtain rfl | mem := List.mem_cons.mp h
    · exact Nat.le_trans (Nat.le_max_right c n) le_reach
    · cases x <;> exact ih mem

/-- What is reached was reached before, or by an item. -/
theorem le_reach_cases (h : k ≤ reach c xs) : k ≤ c ∨ ∃ n, .item n ∈ xs ∧ k ≤ n := by
  induction xs generalizing c with
  | nil => exact .inl h
  | cons x rest ih =>
    cases x with
    | cut =>
      obtain le | ⟨n, mem, le⟩ := ih h
      · exact .inl le
      · exact .inr ⟨n, List.mem_cons_of_mem _ mem, le⟩
    | item m =>
      obtain le | ⟨n, mem, le⟩ := ih h
      · by_cases old : k ≤ c
        · exact .inl old
        · exact .inr ⟨m, List.mem_cons_self, by omega⟩
      · exact .inr ⟨n, List.mem_cons_of_mem _ mem, le⟩

theorem gapless_append : Gapless wanted c (xs ++ ys) ↔
    Gapless wanted c xs ∧ (.cut ∈ xs ∨ Gapless wanted (reach c xs) ys) := by
  induction xs generalizing c with
  | nil => simp [Gapless, reach]
  | cons x rest ih =>
    cases x with
    | cut => simp [Gapless]
    | item n => simp [Gapless, reach, ih, and_assoc]

/-- A cursor with nothing wanted in between will do as well. -/
theorem Gapless.move (h : Gapless wanted c xs) (none : ∀ k, wanted k → b < k → c < k) :
    Gapless wanted b xs := by
  induction xs generalizing b c with
  | nil => trivial
  | cons x rest ih =>
    cases x with
    | cut => trivial
    | item n =>
      refine ⟨fun k hk lt => h.1 k hk (none k hk lt), ih h.2 fun k hk lt => ?_⟩
      have := none k hk (by omega)
      omega

/-- Numbers at or above every item may become wanted. -/
theorem Gapless.grow (h : Gapless wanted c xs)
    (new : ∀ k, wanted' k → wanted k ∨ ∀ n, .item n ∈ xs → n ≤ k) : Gapless wanted' c xs := by
  induction xs generalizing c with
  | nil => trivial
  | cons x rest ih =>
    cases x with
    | cut => trivial
    | item n =>
      refine ⟨fun k hk lt => ?_, ih h.2 fun k hk => ?_⟩
      · obtain old | above := new k hk
        · exact h.1 k old lt
        · exact above n List.mem_cons_self
      · obtain old | above := new k hk
        · exact .inl old
        · exact .inr fun m mem => above m (List.mem_cons_of_mem _ mem)

/-- Items the cursor is already past take it nowhere. -/
theorem gapless_of_le (h : ∀ n, .item n ∈ xs → n ≤ c) : Gapless wanted c xs := by
  induction xs generalizing c with
  | nil => trivial
  | cons x rest ih =>
    cases x with
    | cut => trivial
    | item n =>
      have le := h n List.mem_cons_self
      refine ⟨fun k _ lt => by omega, ih fun m mem => ?_⟩
      have := h m (List.mem_cons_of_mem _ mem)
      omega

/-- An ascending run of items skips nothing that it does not contain. -/
theorem gapless_items {ns : List Nat} (asc : ns.Pairwise (· < ·))
    (all : ∀ k, wanted k → c < k → k ∈ ns ∨ ∀ n ∈ ns, n ≤ k) :
    Gapless wanted c (ns.map .item) := by
  induction ns generalizing c with
  | nil => trivial
  | cons n rest ih =>
    obtain ⟨first, asc⟩ := List.pairwise_cons.mp asc
    refine ⟨fun k hk lt => ?_, ih asc fun k hk lt => ?_⟩
    · obtain mem | above := all k hk lt
      · obtain rfl | mem := List.mem_cons.mp mem
        · exact Nat.le_refl _
        · exact Nat.le_of_lt (first k mem)
      · exact above n List.mem_cons_self
    · obtain mem | above := all k hk (by omega)
      · obtain rfl | mem := List.mem_cons.mp mem
        · omega
        · exact .inl mem
      · exact .inr fun m mem => above m (List.mem_cons_of_mem _ mem)

end CursorStream
