import Whdr.Lib.Runs

/-! Runs that come to an end: every allowed step takes from the work that is left, and
where no step is possible the goal is met. -/
namespace Runs

variable {S A : Type*}

/-- So many allowed steps lead from one state to the other. -/
inductive Path (step : S → A → Option S) (ok : S → A → Prop) : Nat → S → S → Prop
  | done (s : S) : Path step ok 0 s s
  | next {n : Nat} {s t u : S} (a : A) :
      ok s a → step s a = some t → Path step ok n t u → Path step ok (n + 1) s u

/-- No allowed step is possible. -/
def Stuck (step : S → A → Option S) (ok : S → A → Prop) (s : S) : Prop :=
  ∀ a t, ok s a → step s a ≠ some t

/-- However the steps are chosen, after at most so many there is none, and then the goal
is met. -/
structure Settles (step : S → A → Option S) (ok : S → A → Prop) (goal : S → Prop) (bound : Nat)
    (s : S) : Prop where
  bounded : ∀ n t, Path step ok n s t → n ≤ bound
  meets : ∀ n t, Path step ok n s t → Stuck step ok t → goal t
  settled : ∃ n t, Path step ok n s t ∧ Stuck step ok t

variable {step : S → A → Option S} {ok : S → A → Prop} {s t u : S} {n : Nat}

section
variable {Inv : S → Prop} {work : S → Nat}
  (lowers : ∀ s a t, Inv s → ok s a → step s a = some t → Inv t ∧ work t < work s)

include lowers

theorem Path.spends (path : Path step ok n s t) (inv : Inv s) : Inv t ∧ n + work t ≤ work s := by
  induction path with
  | done s => exact ⟨inv, by omega⟩
  | next a allowed hs _ ih =>
    obtain ⟨kept, less⟩ := lowers _ a _ inv allowed hs
    obtain ⟨last, bound⟩ := ih kept
    exact ⟨last, by omega⟩

/-- The steps run out. -/
theorem exists_stuck (inv : Inv s) : ∃ n t, Path step ok n s t ∧ Stuck step ok t := by
  generalize left : work s = k
  induction k using Nat.strongRecOn generalizing s with
  | ind k ih =>
    by_cases stuck : Stuck step ok s
    · exact ⟨0, s, .done s, stuck⟩
    · simp only [Stuck, not_forall, not_not] at stuck
      obtain ⟨a, t, allowed, hs⟩ := stuck
      obtain ⟨kept, less⟩ := lowers s a t inv allowed hs
      obtain ⟨n, u, path, last⟩ := ih (work t) (by omega) kept rfl
      exact ⟨n + 1, u, .next a allowed hs path, last⟩

/-- The rule: an invariant, a measure that each step lowers, and the goal where the
steps run out. -/
theorem settles {goal : S → Prop} (meets : ∀ s, Inv s → Stuck step ok s → goal s) (inv : Inv s) :
    Settles step ok goal (work s) s where
  bounded n t path := by
    have bound := (path.spends lowers inv).2
    omega
  meets n t path stuck := meets t (path.spends lowers inv).1 stuck
  settled := exists_stuck lowers inv

end

end Runs
