import UEServer.CoLock.Basic

/-!
# The invariant of the coroutine lock

`Inv pending` relates the owner, the depth and the queue of every lock to the bodies being
executed, the suspended coroutines, the global wake list and the wake thread.  The list `pending`
holds the locks that a running `_wake_waiting` has still to visit; between two stretches of
execution it is empty.
-/

namespace UEServer.CoLock

variable {κ τ ε : Type*} [DecidableEq κ] [DecidableEq τ]

/-- Owner of a lock. -/
abbrev State.owner (state : State κ τ ε) (key : κ) : Option τ := (state.lock key).currentThread

/-- Queue of a lock. -/
abbrev State.queue (state : State κ τ ε) (key : κ) : List τ := (state.lock key).queue

/-- The invariant, with the locks a running `_wake_waiting` has still to visit. -/
structure Inv (pending : List κ) (state : State κ τ ε) : Prop where
  inside : ∀ key thread, key ∈ state.bodies thread → state.owner key = some thread
  free_ref : ∀ key, state.owner key = none → (state.lock key).ref = 0
  owner_ref : ∀ key thread, state.owner key = some thread →
    (state.lock key).ref = (state.bodies thread).count key
  /-- An owner outside every body has been handed the lock and has a wake queued. -/
  handed : ∀ key thread, state.owner key = some thread → key ∉ state.bodies thread →
    state.waiting thread = some key ∧ thread ∈ state.wakeupQueue
  /-- A suspended coroutine is queued, or has been handed the lock. -/
  suspended : ∀ key thread, state.waiting thread = some key →
    key ∉ state.bodies thread ∧ (thread ∈ state.queue key ∨ state.owner key = some thread)
  queued_waits : ∀ key thread, thread ∈ state.queue key →
    state.waiting thread = some key ∧ state.owner key ≠ some thread ∧
      thread ∉ state.wakeupQueue
  queue_nodup : ∀ key, (state.queue key).Nodup
  /-- A queued wake belongs to a coroutine that has been handed its lock. -/
  woken : ∀ thread, thread ∈ state.wakeupQueue →
    ∃ key, state.waiting thread = some key ∧ state.owner key = some thread
  woken_nodup : state.wakeupQueue.Nodup
  listed : ∀ key, state.owner key = none → state.queue key ≠ [] →
    key ∈ state.waitingWakeList ++ pending
  listed_queue : ∀ key, key ∈ state.waitingWakeList ++ pending →
    (state.lock key).threadQueue ≠ none
  wake_thread : state.waitingWakeList ≠ [] → state.wakeThread = true
  /-- The wake thread is the one forked coroutine that has not run yet. -/
  forked : state.forkedWakes = if state.wakeThread then 1 else 0
  /-- Coroutines leave the queue in the order they entered it. -/
  fifo : ∀ key, state.queued key = state.granted key ++ state.queue key

omit [DecidableEq τ] in
theorem initial_inv (cbFree : κ → Bool) : Inv [] (initial cbFree : State κ τ ε) := by
  constructor <;> simp [initial, Lock.queue, State.owner, State.queue]

section
variable {state : State κ τ ε} {thread : τ} {key : κ}

section
variable (inv : Inv [] state) (running : state.waiting thread = none)
include inv running

theorem wait_inv {owner : τ} (owned : state.owner key = some owner) (other : owner ≠ thread) :
    Inv [] (state.wait thread key) := by
  cases inv
  constructor <;>
    simp only [State.wait, State.owner, State.queue, Lock.queue, Function.update_apply] at *
  all_goals grind

theorem enter_free_inv (free : state.owner key = none) : Inv [] (state.enter thread key) := by
  cases inv
  constructor <;>
    simp only [State.enter, State.owner, State.queue, Lock.queue, Function.update_apply] at *
  all_goals grind

theorem enter_owned_inv (owned : state.owner key = some thread) :
    Inv [] (state.enter thread key) := by
  cases inv
  constructor <;>
    simp only [State.enter, State.owner, State.queue, Lock.queue, Function.update_apply] at *
  all_goals grind

end

omit [DecidableEq τ] in
/-- The assertion at the end of `_wait` holds for every wake the lock queues. -/
theorem resume_ref (inv : Inv [] state) (queued : thread ∈ state.wakeupQueue)
    (suspended : state.waiting thread = some key) :
    state.owner key = some thread ∧ (state.lock key).ref = 0 := by
  obtain ⟨other, waits, owned⟩ := inv.woken thread queued
  obtain rfl : key = other := Option.some.inj (suspended.symm.trans waits)
  have outside := (inv.suspended key thread suspended).1
  refine ⟨owned, ?_⟩
  rw [inv.owner_ref key thread owned, List.count_eq_zero_of_not_mem outside]
  rfl

theorem resume_inv (inv : Inv [] state) (queued : thread ∈ state.wakeupQueue)
    (waits : state.waiting thread = some key) :
    Inv [] (State.enter
      { state with
        wakeupQueue := state.wakeupQueue.erase thread
        waiting := Function.update state.waiting thread none } thread key) := by
  obtain ⟨inside, free_ref, owner_ref, handed, suspended, queued_waits, queue_nodup, woken,
    woken_nodup, listed, listed_queue, wake_thread, forked, fifo⟩ := inv
  constructor <;>
    simp only [State.enter, State.owner, State.queue, Lock.queue, Function.update_apply] at *
  all_goals grind [List.Nodup.mem_erase_iff]

omit [DecidableEq τ] in
theorem deliver_inv {pending : List κ} (inv : Inv pending state) (result : RunResult ε) :
    Inv pending (state.deliver thread result) := by
  cases inv
  constructor <;> assumption

section
variable (inv : Inv [] state) {rest : List κ} (err : Option ε)
  (top : state.bodies thread = key :: rest)
include inv err top

/-- The innermost body of the owner ends below another body on the same lock. -/
theorem lower_inner_inv (inner : key ∈ rest) :
    Inv [] (State.setLock { state with bodies := Function.update state.bodies thread rest } key
      { state.lock key with ref := (state.lock key).ref - 1, err := err }) := by
  cases inv
  constructor <;>
    simp only [State.setLock, State.owner, State.queue, Lock.queue, Function.update_apply] at *
  all_goals grind

theorem lower_last_inv (outer : key ∉ rest) (nobody : state.queue key = []) (freed : List κ) :
    Inv [] { state with
      bodies := Function.update state.bodies thread rest
      lock := Function.update state.lock key
        { state.lock key with currentThread := none, ref := 0, err := err }
      freed := freed } := by
  cases inv
  constructor <;>
    simp only [State.owner, State.queue, Lock.queue, Function.update_apply] at *
  all_goals grind

/-- The outermost body of the owner ends, and the lock goes to the wake list. -/
theorem lower_next_inv (outer : key ∉ rest) (somebody : state.queue key ≠ []) :
    Inv [] { state with
      bodies := Function.update state.bodies thread rest
      lock := Function.update state.lock key
        { state.lock key with currentThread := none, ref := 0, err := err }
      waitingWakeList := state.waitingWakeList ++ [key]
      wakeThread := true
      forkedWakes := if state.wakeThread then state.forkedWakes else state.forkedWakes + 1 } := by
  cases inv
  constructor <;>
    simp only [State.owner, State.queue, Lock.queue, Function.update_apply] at *
  all_goals grind

end

theorem wakeLock_inv {keys : List κ} (inv : Inv (key :: keys) state) :
    Inv keys (state.wakeLock key) := by
  obtain ⟨inside, free_ref, owner_ref, handed, suspended, queued_waits, queue_nodup, woken,
    woken_nodup, listed, listed_queue, wake_thread, forked, fifo⟩ := inv
  unfold State.wakeLock
  split
  · constructor <;> first | assumption | grind
  · constructor <;> first | assumption | grind
  · rename_i thread rest owned queue
    have suspendedHead : state.waiting thread = some key :=
      (queued_waits key thread (by simp [State.queue, queue])).1
    simp only [State.wakeup, suspendedHead, Option.isSome_some, if_true]
    constructor <;>
      simp only [State.owner, State.queue, Lock.queue, Function.update_apply] at *
    all_goals grind

end

theorem wakeLocks_inv {state : State κ τ ε} {keys : List κ} (inv : Inv keys state) :
    Inv [] (state.wakeLocks keys) := by
  induction keys generalizing state with
  | nil => exact inv
  | cons key keys ih =>
      unfold State.wakeLocks
      split
      · rename_i free queueless
        exact absurd queueless (inv.listed_queue key (by simp))
      · exact ih (wakeLock_inv inv)

theorem wakeWaiting_inv {state : State κ τ ε} (inv : Inv [] state)
    (forkedOne : state.forkedWakes ≠ 0) : Inv [] state.wakeWaiting := by
  apply wakeLocks_inv
  obtain ⟨inside, free_ref, owner_ref, handed, suspended, queued_waits, queue_nodup, woken,
    woken_nodup, listed, listed_queue, wake_thread, forked, fifo⟩ := inv
  constructor
  case wake_thread => simp
  case forked => grind
  case listed => simpa using listed
  case listed_queue => simpa using listed_queue
  all_goals assumption

end UEServer.CoLock
