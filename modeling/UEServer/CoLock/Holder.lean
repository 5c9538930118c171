import Mathlib.Data.List.Nodup
import UEServer.CoLock.Timeout

/-!
# Holders of locks with timeouts

The owners and the waiting coroutines, whatever the timeouts do; and the bodies of a coroutine, of which
the outer ones may have lost their lock.
-/

namespace UEServer.CoLock

variable {κ τ ε : Type*} [DecidableEq κ] [DecidableEq τ]

/-- The owners and the waiting coroutines. -/
structure Owners (locks : State κ τ ε) : Prop where
  free_ref : ∀ key, (locks.lock key).currentThread = none → (locks.lock key).ref = 0
  ref_nonneg : ∀ key, 0 ≤ (locks.lock key).ref
  handed : ∀ key thread, (locks.lock key).currentThread = some thread →
    (locks.lock key).ref = 0 → locks.waiting thread = some key
  /-- A coroutine that has been woken owns the lock that it waits for, and has not entered it. -/
  woken : ∀ thread, thread ∈ locks.wakeupQueue → ∃ key, locks.waiting thread = some key ∧
    (locks.lock key).currentThread = some thread ∧ (locks.lock key).ref = 0
  woken_nodup : locks.wakeupQueue.Nodup
  queued_waits : ∀ key thread, thread ∈ (locks.lock key).queue → locks.waiting thread = some key ∧
    (locks.lock key).currentThread ≠ some thread ∧ thread ∉ locks.wakeupQueue
  queue_nodup : ∀ key, (locks.lock key).queue.Nodup

section
variable {locks : State κ τ ε} {thread : τ} {key : κ}

section
variable (owners : Owners locks)
include owners

theorem Owners.wait {owner : τ} (running : locks.waiting thread = none)
    (owned : (locks.lock key).currentThread = some owner) (other : owner ≠ thread) :
    Owners (locks.wait thread key) := by
  cases owners
  constructor <;> simp only [State.wait, Lock.queue, Function.update_apply] at *
  all_goals grind

theorem Owners.enter (running : locks.waiting thread = none)
    (own : ∀ owner, (locks.lock key).currentThread = some owner → owner = thread) :
    Owners (locks.enter thread key) := by
  cases owners
  constructor <;> simp only [State.enter, Lock.queue, Function.update_apply] at *
  all_goals grind

theorem Owners.resume (queued : thread ∈ locks.wakeupQueue)
    (waits : locks.waiting thread = some key) :
    Owners (State.enter
      { locks with
        wakeupQueue := locks.wakeupQueue.erase thread
        waiting := Function.update locks.waiting thread none } thread key) := by
  obtain ⟨free_ref, ref_nonneg, handed, woken, woken_nodup, queued_waits, queue_nodup⟩ := owners
  constructor <;> simp only [State.enter, Lock.queue, Function.update_apply] at *
  all_goals grind [List.Nodup.mem_erase_iff]

omit [DecidableEq τ] in
theorem Owners.release (entered : (locks.lock key).ref ≠ 0) (err : Option ε) :
    Owners ((locks.setLock key
      { locks.lock key with ref := 0, currentThread := none, err }).wakeNext key) := by
  cases owners
  unfold State.wakeNext State.setLock
  dsimp only
  split <;> constructor <;> simp only [Lock.queue, Function.update_apply] at *
  case isTrue.woken_nodup | isFalse.woken_nodup => assumption
  all_goals grind

omit [DecidableEq τ] in
theorem Owners.lower {ref : Int} (positive : 0 < ref) (entered : (locks.lock key).ref ≠ 0)
    (err : Option ε) : Owners (locks.setLock key { locks.lock key with ref, err }) := by
  cases owners
  unfold State.setLock
  constructor <;> simp only [Lock.queue, Function.update_apply] at *
  case woken_nodup => assumption
  all_goals grind

theorem Owners.wakeLock : Owners (locks.wakeLock key) := by
  obtain ⟨free_ref, ref_nonneg, handed, woken, woken_nodup, queued_waits, queue_nodup⟩ := owners
  unfold State.wakeLock
  split
  · constructor <;> assumption
  · constructor <;> assumption
  · next thread rest free queue =>
      have waits : locks.waiting thread = some key :=
        (queued_waits key thread (by simp [queue])).1
      simp only [State.wakeup, waits, Option.isSome_some, if_true]
      constructor <;> simp only [Lock.queue, Function.update_apply] at *
      case woken_nodup =>
        exact List.nodup_append.mpr ⟨woken_nodup, List.nodup_singleton _, by grind⟩
      all_goals grind

end

omit [DecidableEq τ] in
theorem wakeLock_ref (owners : Owners locks) (other : κ) :
    ((locks.wakeLock key).lock other).ref = (locks.lock other).ref ∧
      ((locks.lock other).ref ≠ 0 →
        ((locks.wakeLock key).lock other).currentThread = (locks.lock other).currentThread) ∧
      (locks.wakeLock key).bodies = locks.bodies := by
  obtain ⟨free_ref, ref_nonneg, handed, woken, woken_nodup, queued_waits, queue_nodup⟩ := owners
  unfold State.wakeLock
  split
  · exact ⟨rfl, fun _ => rfl, rfl⟩
  · exact ⟨rfl, fun _ => rfl, rfl⟩
  · next thread rest free queue =>
      have zero := free_ref key free
      unfold State.wakeup
      split <;> simp only [Function.update_apply] <;> grind

end

theorem wakeLocks_ref {locks : State κ τ ε} (keys : List κ) (owners : Owners locks) :
    Owners (locks.wakeLocks keys) ∧ (locks.wakeLocks keys).bodies = locks.bodies ∧
      ∀ other, ((locks.wakeLocks keys).lock other).ref = (locks.lock other).ref ∧
        ((locks.lock other).ref ≠ 0 →
          ((locks.wakeLocks keys).lock other).currentThread = (locks.lock other).currentThread) := by
  induction keys generalizing locks with
  | nil => exact ⟨owners, rfl, fun _ => ⟨rfl, fun _ => rfl⟩⟩
  | cons key keys ih =>
      unfold State.wakeLocks
      split
      · exact ⟨owners, rfl, fun _ => ⟨rfl, fun _ => rfl⟩⟩
      · obtain ⟨kept, bodies, same⟩ := ih (@Owners.wakeLock _ _ _ _ _ _ key owners)
        have first := @wakeLock_ref _ _ _ _ _ key owners
        refine ⟨kept, bodies.trans (first key).2.2, fun other => ?_⟩
        obtain ⟨ref, owner, -⟩ := first other
        refine ⟨(same other).1.trans ref, fun entered => ?_⟩
        exact ((same other).2 (by rwa [ref])).trans (owner entered)

end UEServer.CoLock
