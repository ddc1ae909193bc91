import Mathlib.Data.List.Basic

/-! Runs of partial step functions. A run starts in a state of `init`; every
step is an action the step function accepts and the side condition `ok` allows.
Restricting `ok` restricts the runs, never the step function. -/
namespace Runs

variable {S A : Type*}

/-- The states reached by runs all of whose steps satisfy `ok`. -/
inductive Reaches (init : S → Prop) (step : S → A → Option S) (ok : S → A → Prop) : S → Prop
  | start {s : S} : init s → Reaches init step ok s
  | next {s t : S} (a : A) :
      Reaches init step ok s → ok s a → step s a = some t → Reaches init step ok t

variable {init : S → Prop} {step : S → A → Option S} {ok : S → A → Prop} {s t : S}

/-- The invariant rule. The step obligation may use that its source is reached. -/
theorem Reaches.invariant (Inv : S → Prop) (start : ∀ s, init s → Inv s)
    (next : ∀ s a t, Reaches init step ok s → Inv s → ok s a → step s a = some t → Inv t)
    (h : Reaches init step ok s) : Inv s := by
  induction h with
  | start hi => exact start _ hi
  | next a hr ha hs ih => exact next _ a _ hr ih ha hs

/-- A run may be entered one step earlier. -/
theorem Reaches.after {u : S} (a : A) (ha : ok s a) (hs : step s a = some t)
    (h : Reaches (· = t) step ok u) : Reaches (· = s) step ok u := by
  induction h with
  | start eq =>
    subst eq
    exact .next a (.start rfl) ha hs
  | next b _ hb hu ih => exact .next b ih hb hu

/-- The step function that refuses what `ok` does not allow. -/
def guarded (ok : S → A → Prop) [∀ s a, Decidable (ok s a)] (step : S → A → Option S)
    (s : S) (a : A) : Option S :=
  if ok s a then step s a else none

/-- Execute a list of actions, stopping at the first one refused. -/
def exec (step : S → A → Option S) (s : S) (actions : List A) : Option S :=
  actions.foldlM step s

theorem exec_cons (step : S → A → Option S) (s : S) (a : A) (as : List A) :
    exec step s (a :: as) = (step s a).bind fun t => exec step t as := by
  simp only [exec, List.foldlM_cons, Option.bind_eq_bind]

/-- An execution that the guards let through is a run. -/
theorem reaches_of_exec [∀ s a, Decidable (ok s a)] (actions : List A)
    (hr : Reaches init step ok s) (he : exec (guarded ok step) s actions = some t) :
    Reaches init step ok t := by
  induction actions generalizing s with
  | nil =>
    have eq : s = t := by simpa [exec] using he
    exact eq ▸ hr
  | cons a as ih =>
    rw [exec_cons] at he
    obtain ⟨u, hu, hrest⟩ := Option.bind_eq_some_iff.mp he
    unfold guarded at hu
    split at hu
    · rename_i allowed
      exact ih (.next a hr allowed hu) hrest
    · cases hu

end Runs
