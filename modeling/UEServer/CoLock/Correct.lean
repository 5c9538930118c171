import UEServer.CoLock.Invariant

/-!
# What the coroutine lock guarantees

Every execution from the initial state keeps the invariant, and with it mutual exclusion, re-entry,
the release at the outermost end, the order of the queue and the pending wake.  The outcomes
delivered to the callers are, in order, the outcomes of their own bodies.
-/

namespace UEServer.CoLock

variable {κ τ ε : Type*} [DecidableEq κ] [DecidableEq τ]

/-- What `run` delivers when its body has this outcome. -/
def RunResult.ofBody : Option ε → RunResult ε
  | none => .returned
  | some err => .raised (some err)

section
variable {state : State κ τ ε} {thread : τ} {key : κ}

section
variable (inv : Inv [] state) {rest : List κ} (err : Option ε)
  (top : state.bodies thread = key :: rest)
include inv err top

theorem unlock_inner (inner : key ∈ rest) :
    (State.storeErr { state with bodies := Function.update state.bodies thread rest } key
        err).unlock thread key err =
      (State.setLock { state with bodies := Function.update state.bodies thread rest } key
        { state.lock key with
          ref := (state.lock key).ref - 1
          err := err.or (state.lock key).err }).deliver thread (.ofBody err) := by
  have owned := inv.inside key thread (by simp [top])
  have depth := inv.owner_ref key thread owned
  have positive : 0 < rest.count key := List.count_pos_iff.mpr inner
  have deep : (state.lock key).ref - 1 ≠ 0 := by
    rw [depth, top, List.count_cons_self]
    omega
  cases err with
  | none =>
      simp [State.storeErr, State.unlock, State.owner, State.setLock, State.finish, owned, deep,
        RunResult.ofBody] at *
  | some err =>
      simp [State.storeErr, State.unlock, State.owner, State.setLock, State.finish, owned, deep,
        RunResult.ofBody] at *

/-- The end of the outermost body frees the lock, which goes to the wake list if somebody is
queued. -/
theorem unlock_outer (outer : key ∉ rest) :
    (State.storeErr { state with bodies := Function.update state.bodies thread rest } key
        err).unlock thread key err =
      State.deliver
        (if state.queue key = [] then
          { state with
            bodies := Function.update state.bodies thread rest
            lock := Function.update state.lock key
              { state.lock key with
                currentThread := none, ref := 0, err := err.or (state.lock key).err }
            freed := if (state.lock key).cbFree then state.freed ++ [key] else state.freed }
        else
          { state with
            bodies := Function.update state.bodies thread rest
            lock := Function.update state.lock key
              { state.lock key with
                currentThread := none, ref := 0, err := err.or (state.lock key).err }
            waitingWakeList := state.waitingWakeList ++ [key]
            wakeThread := true
            forkedWakes :=
              if state.wakeThread then state.forkedWakes else state.forkedWakes + 1 })
        thread (.ofBody err) := by
  have owned := inv.inside key thread (by simp [top])
  have depth : (state.lock key).ref = 1 := by
    rw [inv.owner_ref key thread owned, top, List.count_cons_self,
      List.count_eq_zero_of_not_mem outer]
    rfl
  cases err with
  | none =>
      by_cases nobody : state.queue key = [] <;>
        simp_all [State.storeErr, State.unlock, State.wakeNext, State.setLock, State.finish,
          State.owner, State.queue, Lock.queue, RunResult.ofBody]
  | some err =>
      by_cases nobody : state.queue key = [] <;>
        simp_all [State.storeErr, State.unlock, State.wakeNext, State.setLock, State.finish,
          State.owner, State.queue, Lock.queue, RunResult.ofBody]

theorem unlock_inv :
    Inv [] ((State.storeErr { state with bodies := Function.update state.bodies thread rest } key
      err).unlock thread key err) := by
  by_cases inner : key ∈ rest
  · rw [unlock_inner inv err top inner]
    exact deliver_inv (lower_inner_inv inv _ top inner) _
  · rw [unlock_outer inv err top inner]
    apply deliver_inv
    split
    · rename_i nobody
      exact lower_last_inv inv _ top inner nobody _
    · rename_i somebody
      exact lower_next_inv inv _ top inner somebody

end

end

theorem step_inv {state after : State κ τ ε} {label : Label κ τ ε} (inv : Inv [] state)
    (taken : step state label = some after) : Inv [] after := by
  cases label with
  | run thread key =>
      simp only [step] at taken
      split at taken
      · cases taken
      · rename_i awake
        have running : state.waiting thread = none := by simpa using awake
        split at taken
        · rename_i free
          cases taken
          exact enter_free_inv inv running free
        · rename_i owner owned
          split at taken
          · rename_i same
            cases taken
            exact enter_owned_inv inv running (same ▸ owned)
          · rename_i other
            cases taken
            exact wait_inv inv running owned other
  | resume thread =>
      simp only [step] at taken
      split at taken
      · rename_i queued
        obtain ⟨key, waits, -⟩ := inv.woken thread queued
        rw [waits] at taken
        simp only [(resume_ref inv queued waits).2, if_true] at taken
        cases taken
        exact resume_inv inv queued waits
      · cases taken
  | leave thread err =>
      simp only [step] at taken
      split at taken
      · cases taken
      · split at taken
        · cases taken
        · rename_i key rest top
          cases taken
          exact unlock_inv inv err top
  | wakeWaiting =>
      simp only [step] at taken
      split at taken
      · cases taken
      · rename_i forked
        cases taken
        exact wakeWaiting_inv inv forked

theorem run_inv {cbFree : κ → Bool} {labels : List (Label κ τ ε)} {state : State κ τ ε}
    (execution : Execution.run step (initial cbFree) labels = some state) : Inv [] state :=
  Execution.run_invariant step_inv execution (initial_inv cbFree)

/-- The outcome that a label brings to the caller of the innermost `run`. -/
def Label.outcome : Label κ τ ε → Option (τ × RunResult ε)
  | .leave thread err => some (thread, .ofBody err)
  | _ => none

omit [DecidableEq τ] in
theorem wakeLock_frame (state : State κ τ ε) (key : κ) :
    (state.wakeLock key).results = state.results ∧
      (state.wakeLock key).bodies = state.bodies ∧
      ∀ other thread, state.owner other = some thread →
        (state.wakeLock key).owner other = some thread := by
  unfold State.wakeLock
  split
  · exact ⟨rfl, rfl, fun _ _ owned => owned⟩
  · exact ⟨rfl, rfl, fun _ _ owned => owned⟩
  · rename_i thread rest free queue
    refine ⟨?_, ?_, fun other owner owned => ?_⟩
    · unfold State.wakeup
      split <;> rfl
    · unfold State.wakeup
      split <;> rfl
    · have different : other ≠ key := by
        rintro rfl
        simp [State.owner, free] at owned
      unfold State.wakeup
      split <;> simpa [State.owner, Function.update_apply, different] using owned

omit [DecidableEq τ] in
/-- `_wake_waiting` delivers nothing, runs no body and takes no lock from its owner. -/
theorem wakeLocks_frame (state : State κ τ ε) (keys : List κ) :
    (state.wakeLocks keys).results = state.results ∧
      (state.wakeLocks keys).bodies = state.bodies ∧
      ∀ other thread, state.owner other = some thread →
        (state.wakeLocks keys).owner other = some thread := by
  induction keys generalizing state with
  | nil => exact ⟨rfl, rfl, fun _ _ owned => owned⟩
  | cons key keys ih =>
      unfold State.wakeLocks
      split
      · exact ⟨rfl, rfl, fun _ _ owned => owned⟩
      · obtain ⟨results, bodies, owners⟩ := wakeLock_frame state key
        obtain ⟨results', bodies', owners'⟩ := ih (state.wakeLock key)
        exact ⟨results'.trans results, bodies'.trans bodies,
          fun other thread owned => owners' other thread (owners other thread owned)⟩

/-- The label ends the outermost body of the coroutine on the lock. -/
def EndsOutermost (state : State κ τ ε) (label : Label κ τ ε) (thread : τ) (key : κ) : Prop :=
  ∃ err rest, label = .leave thread err ∧ state.bodies thread = key :: rest ∧ key ∉ rest

/-- What a stretch of execution does to the outcomes delivered so far and to a lock whose body
some coroutine is executing. -/
theorem step_effect {state after : State κ τ ε} {label : Label κ τ ε} (inv : Inv [] state)
    (taken : step state label = some after) :
    after.results = state.results ++ label.outcome.toList ∧
      ∀ key thread, key ∈ state.bodies thread →
        (after.owner key = none ∧ EndsOutermost state label thread key) ∨
          (after.owner key = some thread ∧ ¬ EndsOutermost state label thread key) := by
  have inside := inv.inside
  cases label with
  | run thread key =>
      simp only [step] at taken
      split at taken
      · cases taken
      · split at taken
        · cases taken
          simp only [State.enter, State.owner, Label.outcome, EndsOutermost,
            Function.update_apply] at *
          grind
        · split at taken <;> obtain rfl := Option.some.inj taken <;>
            simp only [State.enter, State.wait, State.owner, Label.outcome, EndsOutermost,
              Function.update_apply] at * <;> grind
  | resume thread =>
      simp only [step] at taken
      split at taken
      · rename_i queued
        obtain ⟨key, waits, owned⟩ := inv.woken thread queued
        rw [waits] at taken
        simp only [(resume_ref inv queued waits).2, if_true] at taken
        cases taken
        simp only [State.enter, State.owner, Label.outcome, EndsOutermost,
          Function.update_apply] at *
        grind
      · cases taken
  | leave leaver err =>
      simp only [step] at taken
      split at taken
      · cases taken
      · split at taken
        · cases taken
        · rename_i top rest bodies
          have owned := inside top leaver (by simp [bodies])
          by_cases inner : top ∈ rest
          · rw [unlock_inner inv err bodies inner] at taken
            cases taken
            refine ⟨rfl, fun key thread held => .inr ⟨?_, ?_⟩⟩
            · by_cases same : key = top
              · subst same
                have owner := inside key thread held
                simpa [State.setLock, State.deliver, State.owner] using owner
              · simpa [State.setLock, State.deliver, State.owner, Function.update_apply, same]
                  using inside key thread held
            · rintro ⟨_, below, same, bodies', outer⟩
              cases same
              cases bodies.symm.trans bodies'
              exact outer inner
          · rw [unlock_outer inv err bodies inner] at taken
            cases taken
            refine ⟨by split <;> rfl, fun key thread held => ?_⟩
            by_cases same : key = top
            · subst same
              obtain rfl : thread = leaver :=
                Option.some.inj ((inside key thread held).symm.trans owned)
              refine .inl ⟨?_, err, rest, rfl, bodies, inner⟩
              split <;> simp [State.deliver, State.owner]
            · refine .inr ⟨?_, ?_⟩
              · split <;> simpa [State.deliver, State.owner, Function.update_apply, same]
                  using inside key thread held
              · rintro ⟨_, below, label, bodies', -⟩
                cases label
                exact same (List.cons.inj (bodies.symm.trans bodies')).1.symm
  | wakeWaiting =>
      simp only [step] at taken
      split at taken
      · cases taken
      · cases taken
        obtain ⟨results, -, owners⟩ := wakeLocks_frame
          { state with
            wakeThread := false
            waitingWakeList := []
            forkedWakes := state.forkedWakes - 1 } state.waitingWakeList
        refine ⟨?_, fun key thread held => .inr ⟨?_, ?_⟩⟩
        · simpa [Label.outcome, State.wakeWaiting] using results
        · exact owners key thread (inside key thread held)
        · rintro ⟨_, _, label, -⟩
          cases label

/-- What the lock guarantees in one state. -/
structure Guarantee (state : State κ τ ε) (key : κ) : Prop where
  exclusive : ∀ first second, key ∈ state.bodies first → key ∈ state.bodies second →
    first = second
  /-- A coroutine inside the lock enters it again without waiting. -/
  reentrant : ∀ thread, key ∈ state.bodies thread → state.waiting thread = none →
    ∃ after, step state (.run thread key) = some after ∧
      after.bodies thread = key :: state.bodies thread
  /-- The lock leaves its owner exactly when the outermost body returns or raises. -/
  released : ∀ label after, step state label = some after → ∀ thread, key ∈ state.bodies thread →
    (after.owner key = none ∧ EndsOutermost state label thread key) ∨
      (after.owner key = some thread ∧ ¬ EndsOutermost state label thread key)
  /-- Coroutines are granted the lock in the order they queued. -/
  ordered : state.granted key <+: state.queued key
  /-- A free lock with a queue is in the wake list, and a wake thread is pending. -/
  woken : state.owner key = none → state.queue key ≠ [] →
    key ∈ state.waitingWakeList ∧ state.wakeThread = true ∧ 0 < state.forkedWakes

theorem Inv.guarantee {state : State κ τ ε} (inv : Inv [] state) (key : κ) :
    Guarantee state key where
  exclusive first second held held' := by
    have owner := (inv.inside key first held).symm.trans (inv.inside key second held')
    exact Option.some.inj owner
  reentrant thread held running := by
    have owned := inv.inside key thread held
    refine ⟨state.enter thread key, ?_, by simp [State.enter]⟩
    simp [step, running, owned]
  released label after taken := (step_effect inv taken).2 key
  ordered := ⟨state.queue key, (inv.fifo key).symm⟩
  woken free somebody := by
    have member : key ∈ state.waitingWakeList := by
      simpa using inv.listed key free somebody
    have thread := inv.wake_thread (List.ne_nil_of_mem member)
    refine ⟨member, thread, ?_⟩
    rw [inv.forked, thread]
    decide

/-- Every execution gives the guarantee for every lock, and the outcomes delivered to the callers
are, in order, the outcomes of their own bodies. -/
theorem lock_run_correct {cbFree : κ → Bool} {labels : List (Label κ τ ε)} {state : State κ τ ε}
    (execution : Execution.run step (initial cbFree) labels = some state) (key : κ) :
    Guarantee state key ∧ state.results = labels.filterMap Label.outcome := by
  refine ⟨(run_inv execution).guarantee key, ?_⟩
  have log : state.results = (initial cbFree : State κ τ ε).results ++ _ :=
    Execution.run_log step_inv (fun inv taken => (step_effect inv taken).1) execution
      (initial_inv cbFree)
  simpa [initial] using log

/-- A nested run that raises, a second coroutine that queues, and its hand-over. -/
def queueingRun : List (Label Unit Nat Nat) :=
  [.run 0 (), .run 0 (), .run 1 (), .leave 0 (some 7), .leave 0 none, .wakeWaiting, .resume 1,
    .leave 1 none]

theorem lock_run_correct_queueingRun :
    ∃ state, Execution.run step (initial fun _ => false) queueingRun = some state ∧
      Guarantee state () ∧
      state.results = [(0, .raised (some 7)), (0, .returned), (1, .returned)] := by
  have execution : Execution.run step (initial fun _ => false) queueingRun = some _ := rfl
  exact ⟨_, execution, lock_run_correct execution ()⟩

end UEServer.CoLock
