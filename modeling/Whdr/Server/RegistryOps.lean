import Whdr.Server.Subscribers

/-! The registry under the tasks of its connections, and what they leave alone. -/
namespace Whdr

/-- What the tasks of connections do to the registry. -/
inductive RegistryOp
  | insert (reg : SubscriberRegistration)
  | remove (id : Nat)
  | subscribe (id : Nat) (patterns : List String)
  | unsubscribe (id : Nat) (patterns : List String)
  | popFrame (id : Nat)

/-- The connection whose task does this, once it is registered. -/
def RegistryOp.conn : RegistryOp → Option Nat
  | .insert _ => none
  | .remove id | .subscribe id _ | .unsubscribe id _ | .popFrame id => some id

def SubscriberRegistry.apply (r : SubscriberRegistry) : RegistryOp → SubscriberRegistry
  | .insert reg => (r.insert reg).2
  | .remove id => r.remove id
  | .subscribe id patterns => (r.subscribe id patterns).toOption.getD r
  | .unsubscribe id patterns => r.unsubscribe id patterns
  | .popFrame id => ((r.popFrame id).map Prod.snd).getD r

namespace SubscriberRegistry

theorem modify_self (r : SubscriberRegistry) (id : Nat) : r.modify id (fun sub => sub) = r := by
  unfold modify
  split
  · rfl
  · rename_i sub entry
    rw [OrdMap.insert_same entry]

/-- A connection comes, or goes, or changes its own patterns and queue. -/
theorem apply_cases (r : SubscriberRegistry) (op : RegistryOp) :
    (∃ reg, op = .insert reg) ∨ (∃ id, op = .remove id) ∨
      ∃ id f, op.conn = some id ∧ r.apply op = r.modify id f ∧
        ∀ sub, (f sub).name = sub.name ∧ (f sub).closeTx = sub.closeTx := by
  cases op with
  | insert reg => exact .inl ⟨reg, rfl⟩
  | remove id => exact .inr (.inl ⟨id, rfl⟩)
  | subscribe id patterns =>
    simp only [apply, subscribe]
    split
    · exact .inr (.inr ⟨id, _, rfl, (r.modify_self id).symm, fun _ => ⟨rfl, rfl⟩⟩)
    · exact .inr (.inr ⟨id, _, rfl, rfl, fun _ => ⟨rfl, rfl⟩⟩)
  | unsubscribe id patterns => exact .inr (.inr ⟨id, _, rfl, rfl, fun _ => ⟨rfl, rfl⟩⟩)
  | popFrame id =>
    simp only [apply, popFrame]
    split
    · exact .inr (.inr ⟨id, _, rfl, (r.modify_self id).symm, fun _ => ⟨rfl, rfl⟩⟩)
    · rename_i sub entry
      cases sub.queue.pop with
      | none => exact .inr (.inr ⟨id, _, rfl, (r.modify_self id).symm, fun _ => ⟨rfl, rfl⟩⟩)
      | some popped =>
        refine .inr (.inr ⟨id, fun sub => { sub with queue := popped.2 }, rfl, ?_,
          fun _ => ⟨rfl, rfl⟩⟩)
        simp only [modify, entry, Option.map_some, Option.getD_some]

/-- No connection's task touches the log or the in-process counter. -/
theorem apply_same (r : SubscriberRegistry) (op : RegistryOp) :
    (r.apply op).delivery = r.delivery ∧ (r.apply op).seq = r.seq := by
  obtain ⟨reg, rfl⟩ | ⟨id, rfl⟩ | ⟨id, f, _, eq, _⟩ := r.apply_cases op
  · exact ⟨rfl, rfl⟩
  · exact ⟨rfl, rfl⟩
  · rw [eq]
    exact ⟨(r.modify_same id f).1, r.modify_seq id f⟩

/-- A connection's task touches only its own entry. -/
theorem apply_other (r : SubscriberRegistry) (op : RegistryOp) {conn : Nat}
    (other : op.conn ≠ some conn) (old : conn < r.nextId) :
    (r.apply op).subscribers.get? conn = r.subscribers.get? conn ∧
      r.nextId ≤ (r.apply op).nextId := by
  obtain ⟨reg, rfl⟩ | ⟨id, rfl⟩ | ⟨id, f, isConn, eq, _⟩ := r.apply_cases op
  · exact ⟨OrdMap.get?_insert_ne _ _ (Nat.ne_of_lt old), Nat.le_succ _⟩
  · have ne : conn ≠ id := fun eq => other (by rw [eq]; rfl)
    exact ⟨by simp only [apply, remove, OrdMap.get?_erase, if_neg ne], Nat.le_refl _⟩
  · have ne : conn ≠ id := fun eq => other (by rw [isConn, eq])
    rw [eq, get?_modify, if_neg ne]
    exact ⟨rfl, Nat.le_of_eq (r.modify_same id f).2.symm⟩

/-! ## Names and close signals -/

/-- Every entry was there before, with the same name and close signal. -/
def SameNames (r r' : SubscriberRegistry) : Prop :=
  ∀ id sub', r'.subscribers.get? id = some sub' → ∃ sub, r.subscribers.get? id = some sub ∧
    sub'.name = sub.name ∧ sub'.closeTx = sub.closeTx

theorem sameNames_apply (r : SubscriberRegistry) (op : RegistryOp) (task : op.conn ≠ none) :
    SameNames r (r.apply op) := by
  intro other sub' entry
  obtain ⟨reg, rfl⟩ | ⟨id, rfl⟩ | ⟨id, f, _, eq, same⟩ := r.apply_cases op
  · exact absurd rfl task
  · simp only [apply, remove, OrdMap.get?_erase] at entry
    split at entry
    · cases entry
    · exact ⟨sub', entry, rfl, rfl⟩
  · rw [eq, get?_modify] at entry
    split at entry
    · rename_i self
      obtain ⟨sub, old, rfl⟩ := Option.map_eq_some_iff.mp entry
      exact ⟨sub, self ▸ old, (same sub).1, (same sub).2⟩
    · exact ⟨sub', entry, rfl, rfl⟩

section
variable {valueLen : DeliveryLog.StoredEvent → Nat} {textLen : SubServerMsg → Nat}

theorem stamp_subscribers (r : SubscriberRegistry) (c : FanoutCall) :
    (r.stamp valueLen c).2.subscribers = r.subscribers := by
  unfold stamp
  split
  · split <;> rfl
  · rfl

theorem sameNames_fanout (r : SubscriberRegistry) (c : FanoutCall) :
    SameNames r (r.fanout valueLen textLen c).2 := by
  unfold fanout
  split
  · exact fun _ sub entry => ⟨sub, entry, rfl, rfl⟩
  · intro id sub' entry
    rw [get?_deliver, stamp_subscribers] at entry
    obtain ⟨sub, old, rfl⟩ := Option.map_eq_some_iff.mp entry
    rw [foldl_offer]
    exact ⟨sub, old, rfl, rfl⟩

theorem fanout_delivery (r : SubscriberRegistry) (c : FanoutCall) :
    (r.fanout valueLen textLen c).2.delivery.isSome = r.delivery.isSome := by
  unfold fanout
  split
  · rfl
  · simp only [deliver, stamp]
    split
    · rename_i log isLog
      split <;> simp [stampInMemory, isLog]
    · rfl

end

end SubscriberRegistry

end Whdr
