import Whdr.Server.Subscribers

/-! The seqs of event frames under a mixed history of good and failed appends. The
log's head and the in-process counter feed the same field, so the numbers ascend
only when the two never meet. -/
namespace Whdr

open DeliveryLog (Shared StoredEvent AppendFault stampRows_seq append_ok)

def FanoutCall.persists (c : FanoutCall) : Prop := c.events ≠ [] ∧ c.appendFails = false

def FanoutCall.fallsBack (c : FanoutCall) : Prop := c.events ≠ [] ∧ c.appendFails = true

/-- How many events the failed appends stamp from the in-process counter. -/
def fallbackEvents (calls : List FanoutCall) : Nat :=
  ((calls.filter FanoutCall.appendFails).map fun c => c.events.length).sum

/-- Every failed append comes before every successful one, and the failed ones
stamp no more events than the log had already numbered when it was opened. -/
structure Orderly (head : Nat) (calls : List FanoutCall) : Prop where
  fallbackFirst : calls.Pairwise fun a b => ¬ (a.persists ∧ b.fallsBack)
  belowHead : (∃ c ∈ calls, c.persists) → fallbackEvents calls ≤ head

namespace SubscriberRegistry

variable (valueLen : StoredEvent → Nat) (textLen : SubServerMsg → Nat)

/-- Fan-outs one after another, with all frames stamped, in stamping order. -/
def fanoutAll (r : SubscriberRegistry) : List FanoutCall → List StampedEvent × SubscriberRegistry
  | [] => ([], r)
  | c :: cs =>
    let (frames, r) := r.fanout valueLen textLen c
    let (rest, r) := r.fanoutAll cs
    (frames ++ rest, r)

def stampedSeqs (r : SubscriberRegistry) (calls : List FanoutCall) : List Nat :=
  (r.fanoutAll valueLen textLen calls).1.map StampedEvent.seq

/-- The same numbers from the two counters alone. -/
def counted (head seq : Nat) : List FanoutCall → List Nat
  | [] => []
  | c :: cs =>
    let n := c.events.length
    if c.appendFails then List.range' (seq + 1) n ++ counted head (seq + n) cs
    else List.range' (head + 1) n ++ counted (head + n) seq cs

variable {valueLen} {textLen}

theorem append_outcome (log : Shared) (c : FanoutCall) (nonempty : c.events ≠ []) :
    (c.appendFails = true ∧ ∃ f, log.append valueLen c.fault c.mint c.events c.tsMs =
      (.error f, log)) ∨
    (c.appendFails = false ∧ ∃ rows log',
      log.append valueLen c.fault c.mint c.events c.tsMs = (.ok rows, log')) := by
  unfold Shared.append Shared.appendBlocking FanoutCall.appendFails
  cases c.fault.filter (AppendFault.reached c.events.length) with
  | some f => exact .inl ⟨rfl, f, by simp [nonempty]⟩
  | none => exact .inr ⟨rfl, _, _, by simp only [nonempty, ↓reduceIte]; rfl⟩

/-- One fan-out takes its numbers from one of the two counters. -/
theorem fanout_counters (r : SubscriberRegistry) {log : Shared} (hd : r.delivery = some log)
    (c : FanoutCall) :
    ∃ log', (r.fanout valueLen textLen c).2.delivery = some log' ∧
      (r.fanout valueLen textLen c).1.map StampedEvent.seq =
        (if c.appendFails then List.range' (r.seq + 1) c.events.length
          else List.range' (log.head + 1) c.events.length) ∧
      log'.head = (if c.appendFails then log.head else log.head + c.events.length) ∧
      (r.fanout valueLen textLen c).2.seq =
        (if c.appendFails then r.seq + c.events.length else r.seq) := by
  unfold fanout
  by_cases empty : c.events = []
  · refine ⟨log, ?_⟩
    simp [empty, hd]
  · rcases @append_outcome valueLen log c empty with
      ⟨fails, f, ha⟩ | ⟨holds, rows, log', ha⟩
    · refine ⟨log, ?_⟩
      simp only [empty, ↓reduceIte, stamp, hd, ha, deliver, fails]
      refine ⟨rfl, ?_, trivial, rfl⟩
      rw [stampInMemory_rows, stampRows_seq]
    · obtain ⟨rfl, _, head⟩ := append_ok ha
      refine ⟨log', ?_⟩
      simp only [empty, ↓reduceIte, stamp, hd, ha, deliver, holds, Bool.false_eq_true]
      exact ⟨trivial, stampRows_seq _ _ _ _, head, trivial⟩

theorem stampedSeqs_counted (r : SubscriberRegistry) {log : Shared} (hd : r.delivery = some log)
    (calls : List FanoutCall) :
    stampedSeqs valueLen textLen r calls = counted log.head r.seq calls := by
  induction calls generalizing r log with
  | nil => rfl
  | cons c cs ih =>
    obtain ⟨log', hd', seqs, head, seq⟩ := @fanout_counters valueLen textLen r log hd c
    have rest := ih (r.fanout valueLen textLen c).2 hd'
    simp only [stampedSeqs, fanoutAll, List.map_append] at rest ⊢
    rw [rest, seqs, head, seq]
    simp only [counted]
    split <;> rfl

/-- Without a failed append the log's head numbers everything. -/
theorem counted_persisted (head seq : Nat) (calls : List FanoutCall)
    (h : ∀ c ∈ calls, ¬ c.fallsBack) :
    counted head seq calls = List.range' (head + 1) (calls.map fun c => c.events.length).sum := by
  induction calls generalizing head with
  | nil => rfl
  | cons c cs ih =>
    have rest := ih (head + c.events.length) fun d hd => h d (List.mem_cons_of_mem _ hd)
    simp only [counted, List.map_cons, List.sum_cons]
    split
    · rename_i fails
      have empty : c.events = [] := by
        by_contra nonempty
        exact h c List.mem_cons_self ⟨nonempty, fails⟩
      simpa [empty] using ih head fun d hd => h d (List.mem_cons_of_mem _ hd)
    · rw [rest, ← List.range'_append_1]
      congr 2
      omega

/-- A failed append stamps the number after the in-process counter. -/
theorem counted_fallback (head seq : Nat) (calls : List FanoutCall)
    (h : ∃ c ∈ calls, c.fallsBack) : seq + 1 ∈ counted head seq calls := by
  induction calls generalizing head with
  | nil => simp at h
  | cons c cs ih =>
    simp only [counted]
    split
    · rename_i fails
      by_cases empty : c.events = []
      · simp only [empty, List.length_nil, List.range'_zero, List.nil_append, Nat.add_zero]
        obtain ⟨d, hd, hf⟩ := h
        obtain rfl | hd := List.mem_cons.mp hd
        · exact absurd empty hf.1
        · exact ih head ⟨d, hd, hf⟩
      · have pos := List.length_pos_iff.mpr empty
        exact List.mem_append_left _ (List.mem_range'_1.mpr ⟨Nat.le_refl _, by omega⟩)
    · rename_i holds
      obtain ⟨d, hd, hf⟩ := h
      obtain rfl | hd := List.mem_cons.mp hd
      · exact absurd hf.2 holds
      · exact List.mem_append_right _ (ih _ ⟨d, hd, hf⟩)

theorem fallbackEvents_cons_fails {c : FanoutCall} (cs : List FanoutCall)
    (fails : c.appendFails = true) :
    fallbackEvents (c :: cs) = c.events.length + fallbackEvents cs := by
  simp [fallbackEvents, fails]

theorem fallbackEvents_cons_holds {c : FanoutCall} (cs : List FanoutCall)
    (holds : c.appendFails = false) : fallbackEvents (c :: cs) = fallbackEvents cs := by
  simp [fallbackEvents, holds]

theorem fallbackEvents_none (calls : List FanoutCall) (h : ∀ c ∈ calls, ¬ c.fallsBack) :
    fallbackEvents calls = 0 := by
  induction calls with
  | nil => rfl
  | cons c cs ih =>
    have rest := ih fun d hd => h d (List.mem_cons_of_mem _ hd)
    cases hf : c.appendFails with
    | false => rw [fallbackEvents_cons_holds cs hf, rest]
    | true =>
      have empty : c.events = [] := by
        by_contra nonempty
        exact h c List.mem_cons_self ⟨nonempty, hf⟩
      rw [fallbackEvents_cons_fails cs hf, rest, empty]
      rfl

/-- A successful append after `1..seq` were stamped in memory: nothing may fall back
any more, and the memory numbers must lie below the head. -/
theorem persisted_ascending_iff (head seq n : Nat) (pos : 0 < n) (calls : List FanoutCall) :
    (List.range' 1 seq ++ (List.range' (head + 1) n ++ counted (head + n) seq calls)).Pairwise
        (· < ·) ↔ (∀ c ∈ calls, ¬ c.fallsBack) ∧ seq ≤ head := by
  constructor
  · intro asc
    obtain ⟨_, asc', below⟩ := List.pairwise_append.mp asc
    have first : head + 1 ∈ List.range' (head + 1) n :=
      List.mem_range'_1.mpr ⟨Nat.le_refl _, by omega⟩
    have le : seq ≤ head := by
      by_contra gt
      have := below seq (List.mem_range'_1.mpr (by omega)) _ (List.mem_append_left _ first)
      omega
    refine ⟨fun c hc hf => ?_, le⟩
    have back := counted_fallback (head + n) seq calls ⟨c, hc, hf⟩
    have := (List.pairwise_append.mp asc').2.2 _ first _ back
    omega
  · rintro ⟨none, le⟩
    rw [counted_persisted _ _ _ none, show head + n + 1 = (head + 1) + n by omega,
      List.range'_append_1]
    refine List.pairwise_append.mpr ⟨List.pairwise_lt_range', List.pairwise_lt_range', ?_⟩
    intro a ha b hb
    have := List.mem_range'_1.mp ha
    have := List.mem_range'_1.mp hb
    omega

theorem counted_ascending_iff (head seq : Nat) (calls : List FanoutCall) :
    (List.range' 1 seq ++ counted head seq calls).Pairwise (· < ·) ↔
      (calls.Pairwise fun a b => ¬ (a.persists ∧ b.fallsBack)) ∧
      ((∃ c ∈ calls, c.persists) → seq + fallbackEvents calls ≤ head) := by
  induction calls generalizing seq with
  | nil => simpa [counted] using List.pairwise_lt_range'
  | cons c cs ih =>
    simp only [counted, List.pairwise_cons, List.mem_cons, exists_eq_or_imp]
    by_cases empty : c.events = []
    · have np : ¬ c.persists := fun h => h.1 empty
      have same : fallbackEvents (c :: cs) = fallbackEvents cs := by
        cases hf : c.appendFails
        · exact fallbackEvents_cons_holds cs hf
        · rw [fallbackEvents_cons_fails cs hf, empty]; exact Nat.zero_add _
      simp only [empty, List.length_nil, List.range'_zero, List.nil_append, Nat.add_zero, ite_self,
        ih, np, false_and, not_false_eq_true, implies_true, true_and, false_or, same]
    · have pos := List.length_pos_iff.mpr empty
      cases hf : c.appendFails with
      | true =>
        have np : ¬ c.persists := fun h => by simp [FanoutCall.persists, hf] at h
        rw [if_pos rfl, ← List.append_assoc, show seq + 1 = 1 + seq by omega,
          List.range'_append_1, ih, fallbackEvents_cons_fails cs hf]
        simp only [np, false_and, not_false_eq_true, implies_true, true_and, false_or,
          Nat.add_assoc]
      | false =>
        have hp : c.persists := ⟨empty, hf⟩
        rw [if_neg (by simp), persisted_ascending_iff head seq _ pos,
          fallbackEvents_cons_holds cs hf]
        simp only [hp, true_and, true_or, true_imp_iff]
        constructor
        · rintro ⟨none, le⟩
          have zero := fallbackEvents_none cs none
          refine ⟨⟨none, List.pairwise_of_forall_mem_list ?_⟩, by omega⟩
          rintro a _ b hb ⟨_, back⟩
          exact none b hb back
        · rintro ⟨⟨none, _⟩, le⟩
          exact ⟨none, by omega⟩

/-- The seqs stamped over a history ascend strictly exactly when no append fails
after one that succeeded and the earlier failures stay below the log's head. -/
theorem stampedSeqs_ascending_iff (valueLen : StoredEvent → Nat) (textLen : SubServerMsg → Nat)
    (log : Shared) (calls : List FanoutCall) :
    ((withDelivery log).stampedSeqs valueLen textLen calls).Pairwise (· < ·) ↔
      Orderly log.head calls := by
  rw [stampedSeqs_counted (withDelivery log) rfl]
  have h := counted_ascending_iff log.head 0 calls
  simp only [List.range'_zero, List.nil_append, Nat.zero_add] at h
  exact h.trans ⟨fun ⟨a, b⟩ => ⟨a, b⟩, fun ⟨a, b⟩ => ⟨a, b⟩⟩

/-- On a fresh log one append succeeds and the next fails: both events get seq 1. -/
theorem fallback_repeats_seq :
    ¬ ∀ (valueLen : StoredEvent → Nat) (textLen : SubServerMsg → Nat) (log : Shared)
      (calls : List FanoutCall),
      ((withDelivery log).stampedSeqs valueLen textLen calls).Pairwise (· < ·) := by
  intro claim
  have asc := claim (fun _ => 90) (fun _ => 120)
    (DeliveryLog.recover (fun _ => 90) ⟨86400, 2 ^ 30, 1000000⟩ .empty)
    [⟨[⟨"dev.one", "MQ=="⟩], id, 1000, none, 1000⟩,
      ⟨[⟨"dev.two", "Mg=="⟩], id, 2000, some .commit, 2000⟩]
  exact absurd asc (by decide)

end SubscriberRegistry

end Whdr
