import UEServer.Library.Execution

/-!
# The coroutine lock

`LockCls` of `srv_utils/co_lock.lua`, for locks created without a timeout and never destroyed.
A label is one uninterrupted stretch of a coroutine: from a `run` to the body or to the wait, from
a wake to the body, from the end of a body to the return of its `run`, and the whole of
`_wake_waiting`.  Any coroutine that can go on may go on next, so every interleaving is an
execution.
-/

namespace UEServer.CoLock

variable {κ τ ε : Type*} [DecidableEq κ] [DecidableEq τ]

/-- The fields of one `LockCls`. -/
structure Lock (τ ε : Type*) where
  currentThread : Option τ := none
  ref : Int := 0
  /-- Coroutines in `_wait`; `nil` until the first one. -/
  threadQueue : Option (List τ) := none
  /-- Error stored by the message handler of `xpcall`, without its traceback text. -/
  err : Option ε := none
  /-- The lock was created with a `cb_free`. -/
  cbFree : Bool := false

/-- The waiting coroutines, `nil` being an empty queue. -/
def Lock.queue {τ ε : Type*} (lock : Lock τ ε) : List τ :=
  lock.threadQueue.getD []

/-- What a call of `run` delivers to its caller. -/
inductive RunResult (ε : Type*) where
  | returned
  | raised (err : Option ε)
  /-- The assertion "lock run error" of `_unlock`. -/
  | lockRunError
  /-- The assertion at the end of `_wait`. -/
  | assertionFailed
  deriving DecidableEq

/-- Every lock, the globals of `co_lock`, and the coroutines. -/
structure State (κ τ ε : Type*) where
  lock : κ → Lock τ ε
  waitingWakeList : List κ
  /-- `co_lock._wake_thread` is set. -/
  wakeThread : Bool
  /-- Forked coroutines that still have to run `_wake_waiting`. -/
  forkedWakes : Nat
  /-- The lock in whose `_wait` a coroutine is suspended. -/
  waiting : τ → Option κ
  /-- Coroutines queued by `skynet.wakeup`. -/
  wakeupQueue : List τ
  /-- Locks whose bodies a coroutine is executing, innermost first. -/
  bodies : τ → List κ
  /-- Every coroutine that had to queue for a lock, in order. -/
  queued : κ → List τ
  /-- Every coroutine taken from the queue of a lock, in order. -/
  granted : κ → List τ
  /-- What the finished calls of `run` delivered, and to whom. -/
  results : List (τ × RunResult ε)
  /-- Calls of `cb_free`. -/
  freed : List κ

/-- One uninterrupted stretch of execution. -/
inductive Label (κ τ ε : Type*) where
  /-- The coroutine calls `run` on the lock. -/
  | run (thread : τ) (key : κ)
  | resume (thread : τ)
  | leave (thread : τ) (err : Option ε)
  | wakeWaiting

namespace State

def setLock (state : State κ τ ε) (key : κ) (lock : Lock τ ε) : State κ τ ε :=
  { state with lock := Function.update state.lock key lock }

/-- `LockCls:_wait`, up to the `skynet.wait`. -/
def wait (state : State κ τ ε) (thread : τ) (key : κ) : State κ τ ε :=
  { state with
    lock := Function.update state.lock key
      { state.lock key with threadQueue := some ((state.lock key).queue ++ [thread]) }
    waiting := Function.update state.waiting thread (some key)
    queued := Function.update state.queued key (state.queued key ++ [thread]) }

/-- `LockCls:run` from the ownership of the lock to the first instruction of the body. -/
def enter (state : State κ τ ε) (thread : τ) (key : κ) : State κ τ ε :=
  { state with
    lock := Function.update state.lock key
      { state.lock key with
        currentThread := some thread
        ref := (state.lock key).ref + 1 }
    bodies := Function.update state.bodies thread (key :: state.bodies thread) }

/-- `skynet.wakeup`: queue a coroutine that is suspended. -/
def wakeup (state : State κ τ ε) (thread : τ) : State κ τ ε :=
  if (state.waiting thread).isSome then
    { state with wakeupQueue := state.wakeupQueue ++ [thread] }
  else
    state

/-- The loop body of `_wake_waiting`, for a lock that has a queue. -/
def wakeLock (state : State κ τ ε) (key : κ) : State κ τ ε :=
  match (state.lock key).currentThread, (state.lock key).queue with
  | some _, _ => state
  | none, [] => state
  | none, thread :: rest =>
      wakeup
        { state with
          lock := Function.update state.lock key
            { state.lock key with currentThread := some thread, threadQueue := some rest }
          granted := Function.update state.granted key (state.granted key ++ [thread]) }
        thread

/-- The loop of `_wake_waiting`. A free lock that never had a queue would make `table.remove`
raise, which ends the loop. -/
def wakeLocks (state : State κ τ ε) : List κ → State κ τ ε
  | [] => state
  | key :: keys =>
      match (state.lock key).currentThread, (state.lock key).threadQueue with
      | none, none => state
      | _, _ => wakeLocks (state.wakeLock key) keys

def wakeWaiting (state : State κ τ ε) : State κ τ ε :=
  wakeLocks
    { state with
      wakeThread := false
      waitingWakeList := []
      forkedWakes := state.forkedWakes - 1 }
    state.waitingWakeList

def wakeNext (state : State κ τ ε) (key : κ) : State κ τ ε :=
  let free := state.setLock key { state.lock key with currentThread := none }
  if (state.lock key).queue = [] then
    { free with freed := if (state.lock key).cbFree then state.freed ++ [key] else state.freed }
  else
    { free with
      waitingWakeList := state.waitingWakeList ++ [key]
      wakeThread := true
      forkedWakes := if state.wakeThread then state.forkedWakes else state.forkedWakes + 1 }

/-- Deliver the outcome of a call of `run`. -/
def deliver (state : State κ τ ε) (thread : τ) (result : RunResult ε) : State κ τ ε :=
  { state with results := state.results ++ [(thread, result)] }

/-- The error handler of `xpcall`. -/
def storeErr (state : State κ τ ε) (key : κ) : Option ε → State κ τ ε
  | none => state
  | some err => state.setLock key { state.lock key with err := some err }

/-- The end of `LockCls:_unlock`: re-raise the stored error, or return. -/
def finish (state : State κ τ ε) (thread : τ) (key : κ) : Option ε → State κ τ ε
  | none => state.deliver thread .returned
  | some _ => state.deliver thread (.raised (state.lock key).err)

def unlock (state : State κ τ ε) (thread : τ) (key : κ) (err : Option ε) : State κ τ ε :=
  if (state.lock key).currentThread ≠ some thread then
    state.deliver thread (if err.isSome then .lockRunError else .returned)
  else
    let lowered := state.setLock key { state.lock key with ref := (state.lock key).ref - 1 }
    if (state.lock key).ref - 1 = 0 then
      (lowered.wakeNext key).finish thread key err
    else
      lowered.finish thread key err

end State

/-- Run one stretch of execution, if the coroutine it names can go on. -/
def step (state : State κ τ ε) : Label κ τ ε → Option (State κ τ ε)
  | .run thread key =>
      if (state.waiting thread).isSome then none
      else
        match (state.lock key).currentThread with
        | none => some (state.enter thread key)
        | some owner =>
            if owner = thread then some (state.enter thread key)
            else some (state.wait thread key)
  | .resume thread =>
      if thread ∈ state.wakeupQueue then
        let woken := { state with wakeupQueue := state.wakeupQueue.erase thread }
        match state.waiting thread with
        | none => some woken
        | some key =>
            let running := { woken with waiting := Function.update state.waiting thread none }
            if (state.lock key).ref = 0 then some (running.enter thread key)
            else some (running.deliver thread .assertionFailed)
      else none
  | .leave thread err =>
      if (state.waiting thread).isSome then none
      else
        match state.bodies thread with
        | [] => none
        | key :: rest =>
            let left := { state with bodies := Function.update state.bodies thread rest }
            some ((left.storeErr key err).unlock thread key err)
  | .wakeWaiting =>
      if state.forkedWakes = 0 then none else some state.wakeWaiting

def initial (cbFree : κ → Bool) : State κ τ ε where
  lock key := { cbFree := cbFree key }
  waitingWakeList := []
  wakeThread := false
  forkedWakes := 0
  waiting _ := none
  wakeupQueue := []
  bodies _ := []
  queued _ := []
  granted _ := []
  results := []
  freed := []

end UEServer.CoLock
