import UEServer.CoQueue.Deque
import UEServer.Library.Execution

/-!
# The coroutine queue

`CoQueue` of `co_lock.lua`.  A consumer that finds nothing registers itself and waits.  A producer
wakes the consumer that registered first, which is resumed later, and may find that its value has been
taken by another one; it then registers itself again.
-/

namespace UEServer.CoQueue

open Execution

/-- The queue, the coroutines that wait for it, and what has been pushed and popped. -/
structure State (θ α : Type*) where
  list : Deque α
  readThreads : List θ
  /-- `sleep_session`: the coroutine waits. -/
  sleepSession : θ → Bool
  /-- `wakeup_queue`: the coroutines that are to be resumed. -/
  wakeupQueue : List θ
  pushed : List (Option α)
  /-- What has been popped, and by which coroutine. -/
  popped : List (θ × Option α)

def initial (θ α : Type*) : State θ α := ⟨.new, [], fun _ => false, [], [], []⟩

variable {θ α : Type*} [DecidableEq θ] {state after : State θ α}

namespace State

def wakeup (state : State θ α) (thread : θ) : State θ α :=
  if state.sleepSession thread then { state with wakeupQueue := state.wakeupQueue ++ [thread] }
  else state

/-- `push`: without a reader `table.remove` gives `nil`, which no session belongs to. -/
def push (state : State θ α) (obj : Option α) : State θ α :=
  let state := { state with list := state.list.append obj, pushed := state.pushed ++ [obj] }
  match state.readThreads with
  | [] => state
  | thread :: rest => { state with readThreads := rest }.wakeup thread

/-- One turn of the loop of `pop`. -/
def turn (state : State θ α) (thread : θ) : State θ α :=
  if 0 < state.list.len then
    { state with
      list := state.list.popleft.2
      popped := state.popped ++ [(thread, state.list.popleft.1)] }
  else
    { state with
      readThreads := state.readThreads ++ [thread]
      sleepSession := Function.update state.sleepSession thread true }

/-- `dispatch_wakeup`: the coroutine goes on after `skynet.wait`. -/
def dispatchWakeup (state : State θ α) : Option (State θ α) :=
  match state.wakeupQueue with
  | [] => none
  | thread :: rest =>
      let state := { state with wakeupQueue := rest }
      if state.sleepSession thread then
        some ({ state with
          sleepSession := Function.update state.sleepSession thread false }.turn thread)
      else some state

/-- The coroutine waits, and has not been woken. -/
def Waiting (state : State θ α) (thread : θ) : Prop :=
  state.sleepSession thread = true ∧ thread ∉ state.wakeupQueue

end State

inductive Op (θ α : Type*) where
  | push (obj : Option α)
  /-- `pop`, by a coroutine that is running. -/
  | pop (thread : θ)
  | resume

def step (state : State θ α) : Op θ α → Option (State θ α)
  | .push obj => some (state.push obj)
  | .pop thread => if state.sleepSession thread then none else some (state.turn thread)
  | .resume => state.dispatchWakeup

structure Inv (state : State θ α) : Prop where
  /-- What has been popped was pushed first, and the rest is in the queue. -/
  order : state.popped.map Prod.snd ++ state.list.toList = state.pushed
  /-- The coroutines that wait are those that are registered or have been woken, each once. -/
  nodup : (state.readThreads ++ state.wakeupQueue).Nodup
  /-- The coroutines that wait are those that are registered or have been woken. -/
  sleeping : ∀ thread, state.sleepSession thread = true ↔
    thread ∈ state.readThreads ++ state.wakeupQueue
  woken : state.readThreads ≠ [] → state.list.len ≤ state.wakeupQueue.length

/-- Every value that has been pushed is in the queue or was popped once, in the order in which the values
were pushed; if a coroutine waits, there are at least as many woken ones as values; and once all of these
have been resumed, no coroutine waits while there are values. -/
structure Good (state : State θ α) : Prop where
  /-- The values that have been popped, and those in the queue, are those that have been pushed. -/
  order : state.popped.map Prod.snd ++ state.list.toList = state.pushed
  /-- The coroutines that have been woken are different ones, which still wait to be resumed. -/
  distinct : state.wakeupQueue.Nodup ∧
    ∀ thread ∈ state.wakeupQueue, state.sleepSession thread = true
  woken : ∀ thread, state.Waiting thread → state.list.len ≤ state.wakeupQueue.length
  /-- All coroutines that have been woken can be resumed, and then none waits while there are values. -/
  served : ∃ final,
    run step state (List.replicate state.wakeupQueue.length .resume) = some final ∧
      ∀ thread, final.sleepSession thread = true → final.list.len = 0

omit [DecidableEq θ] in
theorem initial_inv : Inv (initial θ α) :=
  ⟨rfl, List.nodup_nil, fun _ => ⟨nofun, nofun⟩, fun some => absurd rfl some⟩

omit [DecidableEq θ] in
theorem push_inv (inv : Inv state) (obj : Option α) : Inv (state.push obj) := by
  obtain ⟨order, nodup, sleeping, woken⟩ := inv
  have longer : (state.list.append obj).len = state.list.len + 1 := by
    rw [← Deque.length_toList, Deque.toList_append, List.length_append, Deque.length_toList]
    rfl
  have in_order : state.popped.map Prod.snd ++ (state.list.append obj).toList =
      state.pushed ++ [obj] := by
    rw [Deque.toList_append, ← List.append_assoc, order]
  unfold State.push
  dsimp only
  split
  · next none =>
      rw [none] at nodup sleeping
      exact ⟨in_order, by rwa [none], by rwa [none], fun some => absurd none some⟩
  · next thread rest readers =>
      rw [readers] at nodup sleeping woken
      have asleep : state.sleepSession thread = true := (sleeping thread).mpr List.mem_cons_self
      rw [State.wakeup, if_pos asleep]
      have moved : (rest ++ (state.wakeupQueue ++ [thread])).Perm
          (thread :: rest ++ state.wakeupQueue) := by
        rw [← List.append_assoc]
        exact List.perm_append_singleton ..
      refine ⟨in_order, moved.nodup_iff.mpr nodup, fun other => ?_, fun _ => ?_⟩
      · exact (sleeping other).trans moved.mem_iff.symm
      · dsimp only
        rw [longer, List.length_append]
        exact Nat.succ_le_succ (woken (List.cons_ne_nil _ _))

theorem turn_inv {thread : θ} (order : state.popped.map Prod.snd ++ state.list.toList = state.pushed)
    (nodup : (state.readThreads ++ state.wakeupQueue).Nodup)
    (sleeping : ∀ thread, state.sleepSession thread = true ↔
      thread ∈ state.readThreads ++ state.wakeupQueue)
    (awake : state.sleepSession thread = false)
    (woken : state.readThreads ≠ [] → state.list.len ≤ state.wakeupQueue.length + 1) :
    Inv (state.turn thread) := by
  unfold State.turn
  split
  · next some =>
      have first := Deque.toList_popleft some
      have shorter : state.list.len = state.list.popleft.2.len + 1 := by
        rw [← Deque.length_toList, first, List.length_cons, Deque.length_toList]
      refine ⟨?_, nodup, sleeping, fun readers => ?_⟩
      · rw [List.map_append, List.append_assoc, ← order, first]
        rfl
      · have := woken readers
        dsimp only
        omega
  · next none =>
      have absent : thread ∉ state.readThreads ++ state.wakeupQueue := by
        rw [← sleeping, awake]
        exact Bool.false_ne_true
      have moved : ((state.readThreads ++ [thread]) ++ state.wakeupQueue).Perm
          (thread :: (state.readThreads ++ state.wakeupQueue)) := by
        rw [List.append_assoc]
        exact List.perm_middle
      refine ⟨order, ?_, fun other => ?_, fun _ => ?_⟩
      · exact moved.nodup_iff.mpr (List.nodup_cons.mpr ⟨absent, nodup⟩)
      · rw [moved.mem_iff, List.mem_cons, ← sleeping]
        by_cases own : other = thread
        · subst own
          simp
        · simp [own]
      · exact Nat.le_trans (Nat.le_of_not_lt none) (Nat.zero_le _)

theorem dispatchWakeup_inv {thread : θ} {rest : List θ} (inv : Inv state)
    (queue : state.wakeupQueue = thread :: rest) :
    ∃ after, state.dispatchWakeup = some after ∧ Inv after ∧ after.wakeupQueue = rest := by
  obtain ⟨order, nodup, sleeping, woken⟩ := inv
  have asleep : state.sleepSession thread = true :=
    (sleeping thread).mpr (by simp [queue])
  rw [queue] at nodup sleeping woken
  have apart := nodup
  rw [List.perm_middle.nodup_iff, List.nodup_cons] at apart
  refine ⟨_, by rw [State.dispatchWakeup, queue]; exact if_pos asleep, ?_, ?_⟩
  · refine turn_inv order apart.2 (fun other => ?_) (Function.update_self ..) fun readers => ?_
    · dsimp only
      by_cases own : other = thread
      · subst own
        rw [Function.update_self]
        exact iff_of_false Bool.false_ne_true apart.1
      · rw [Function.update_of_ne own, sleeping, List.mem_append, List.mem_append, List.mem_cons]
        simp [own]
    · exact woken readers
  · unfold State.turn
    split <;> rfl

theorem step_inv {op : Op θ α} (inv : Inv state) (taken : step state op = some after) :
    Inv after := by
  cases op with
  | push obj =>
      cases taken
      exact push_inv inv obj
  | pop thread =>
      obtain ⟨awake, taken⟩ := Option.ite_none_left_eq_some.mp taken
      cases taken
      exact turn_inv inv.order inv.nodup inv.sleeping (Bool.eq_false_iff.mpr awake) fun readers =>
        Nat.le_succ_of_le (inv.woken readers)
  | resume =>
      cases queue : state.wakeupQueue with
      | nil =>
          change state.dispatchWakeup = some after at taken
          rw [State.dispatchWakeup, queue] at taken
          cases taken
      | cons thread rest =>
          obtain ⟨next, dispatched, next_inv, -⟩ := dispatchWakeup_inv inv queue
          cases dispatched.symm.trans taken
          exact next_inv

theorem run_resume {count : ℕ} (inv : Inv state) (length : state.wakeupQueue.length = count) :
    ∃ final, run step state (List.replicate count .resume) = some final ∧ Inv final ∧
      final.wakeupQueue = [] := by
  induction count generalizing state with
  | zero => exact ⟨state, rfl, inv, List.length_eq_zero_iff.mp length⟩
  | succ count ih =>
      obtain ⟨thread, rest, queue⟩ := List.exists_cons_of_length_eq_add_one length
      obtain ⟨next, dispatched, next_inv, left⟩ := dispatchWakeup_inv inv queue
      rw [queue, List.length_cons] at length
      obtain ⟨final, execution, final_inv, empty⟩ := ih next_inv (by rw [left]; omega)
      refine ⟨final, ?_, final_inv, empty⟩
      exact (congrArg (Option.bind · _) dispatched).trans execution

theorem Inv.good (inv : Inv state) : Good state := by
  obtain ⟨final, execution, final_inv, empty⟩ := run_resume inv rfl
  have apart := List.nodup_append.mp inv.nodup
  refine ⟨inv.order, ⟨apart.2.1, fun thread mem => ?_⟩, fun thread waiting => ?_, final, execution,
    fun thread asleep => ?_⟩
  · exact (inv.sleeping thread).mpr (List.mem_append_right _ mem)
  · have registered : thread ∈ state.readThreads :=
      (List.mem_append.mp ((inv.sleeping thread).mp waiting.1)).resolve_right waiting.2
    exact inv.woken (List.ne_nil_of_mem registered)
  · have registered := (final_inv.sleeping thread).mp asleep
    rw [empty, List.append_nil] at registered
    have few := final_inv.woken (List.ne_nil_of_mem registered)
    rw [empty] at few
    exact Nat.le_zero.mp few

/-- In every run, every value that has been pushed is popped at most once, in the order of the pushes,
and no wakeup is lost. -/
theorem no_wakeup_lost (ops : List (Op θ α)) : Always step Good (initial θ α) ops :=
  (always_invariant step_inv initial_inv).mono fun _ inv => inv.good

/-- A value is taken by a consumer that never waited, before the one that was woken for it is
resumed. -/
example : (run step (initial ℕ ℕ)
    [.pop 1, .push (some 7), .pop 2, .resume, .push (some 8), .resume]).map State.popped =
      some [(2, some 7), (1, some 8)] := by decide

end UEServer.CoQueue
