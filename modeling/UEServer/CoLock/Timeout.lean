import Mathlib.Data.Rat.Floor
import UEServer.CoLock.Basic

/-!
# The coroutine lock with a timeout

A lock that was created with a timeout registers itself under a deadline when it is entered, and a check
that runs every second takes it away from its holder at the deadline.  The body of that holder goes
on, and returns late.
-/

namespace UEServer.CoLock

variable {κ τ ε : Type*} [DecidableEq κ] [DecidableEq τ]

/-- The timeout of a lock, as `LockCls.new` stores it. -/
def newTimeout : Option ℚ → Option ℕ
  | none => none
  | some timeout => if ⌈timeout⌉ < 1 then none else some ⌈timeout⌉.toNat

/-- The locks with their timeouts, and the check. -/
structure Timed (κ τ ε : Type*) where
  locks : State κ τ ε
  /-- `timeout` of a lock. -/
  timeout : κ → Option ℕ
  /-- `timeout_ts` of a lock. -/
  timeoutTs : κ → Option ℕ
  timeoutLockDict : ℕ → List κ
  lastCheckTs : ℕ
  /-- The time of the next check, in hundredths of a second. -/
  nextCheck : ℕ
  /-- `skynet.time()`, in hundredths of a second. -/
  clock : ℕ
  /-- The time at which the holder of a lock has entered it. -/
  entered : κ → ℕ
  /-- The locks whose bodies a coroutine is executing, and whether they have been taken from it. -/
  frames : τ → List (κ × Bool)
  /-- The deadlines of holders from which a lock was taken, and when it was. -/
  taken : List (ℕ × ℕ)
  /-- Locks of which a late return has changed the owner or the depth. -/
  harmed : List κ

namespace Timed

/-- `math.ceil(skynet.time())`. -/
def seconds (clock : ℕ) : ℕ := (clock + 99) / 100

def deadline (state : Timed κ τ ε) (key : κ) (timeout : ℕ) : ℕ :=
  seconds (state.entered key) + timeout

def pushTimeout (state : Timed κ τ ε) (key : κ) (timeout : ℕ) : Timed κ τ ε :=
  let ts := seconds state.clock + timeout
  let di := state.timeoutLockDict ts
  { state with
    timeoutTs := Function.update state.timeoutTs key (some ts)
    timeoutLockDict := Function.update state.timeoutLockDict ts
      (if key ∈ di then di else di ++ [key]) }

def popTimeout (state : Timed κ τ ε) (key : κ) : Timed κ τ ε :=
  match state.timeoutTs key with
  | none => state
  | some ts =>
      { state with
        timeoutTs := Function.update state.timeoutTs key none
        timeoutLockDict := Function.update state.timeoutLockDict ts
          ((state.timeoutLockDict ts).filter fun other => other ≠ key) }

/-- `run`, from the ownership of the lock to the first instruction of the body. -/
def enter (state : Timed κ τ ε) (thread : τ) (key : κ) : Timed κ τ ε :=
  let state :=
    { state with
      locks := state.locks.enter thread key
      entered :=
        if (state.locks.lock key).ref = 0 then Function.update state.entered key state.clock
        else state.entered
      frames := Function.update state.frames thread ((key, false) :: state.frames thread) }
  match state.timeout key, state.timeoutTs key with
  | some timeout, none => state.pushTimeout key timeout
  | _, _ => state

/-- `_unlock`, when the innermost body of the coroutine has returned, or raised. -/
def unlock (state : Timed κ τ ε) (thread : τ) (key : κ) (rest : List κ) (err : Option ε) :
    Timed κ τ ε :=
  let left := { state.locks with bodies := Function.update state.locks.bodies thread rest }
  let after := (left.storeErr key err).unlock thread key err
  let late := (state.frames thread).head?.map Prod.snd = some true
  let changed := (after.lock key).currentThread ≠ (state.locks.lock key).currentThread ∨
    (after.lock key).ref ≠ (state.locks.lock key).ref
  let popped :=
    if (state.locks.lock key).currentThread = some thread then state.popTimeout key else state
  { popped with
    locks := after
    frames := Function.update state.frames thread (state.frames thread).tail
    harmed := if late ∧ changed then state.harmed ++ [key] else state.harmed }

def onTimeout (state : Timed κ τ ε) (key : κ) : Timed κ τ ε :=
  match state.timeoutTs key with
  | none => state
  | some _ =>
      let lock := state.locks.lock key
      { state with
        locks := (state.locks.setLock key { lock with ref := 0, currentThread := none }).wakeNext key
        frames :=
          match lock.currentThread with
          | none => state.frames
          | some thread =>
              Function.update state.frames thread
                ((state.frames thread).map fun frame => (frame.1, frame.2 || frame.1 = key))
        taken :=
          match state.timeout key with
          | none => state.taken
          | some timeout => state.taken ++ [(state.deadline key timeout, state.clock)] }

/-- `check_timeout`, with the order in which the locks are traversed. -/
def checkTimeout (state : Timed κ τ ε) (order : List κ) : Timed κ τ ε :=
  let lastTs := state.lastCheckTs + 1
  order.foldl onTimeout
    { state with
      lastCheckTs := lastTs
      nextCheck := state.nextCheck + 100
      timeoutLockDict := Function.update state.timeoutLockDict lastTs [] }

end Timed

/-- One uninterrupted stretch of execution. -/
inductive TimedLabel (κ τ ε : Type*) where
  /-- The coroutine calls `run` on the lock. -/
  | run (thread : τ) (key : κ)
  | resume (thread : τ)
  | leave (thread : τ) (err : Option ε)
  | wakeWaiting
  | check (order : List κ)
  | tick (passed : ℕ)

/-- Run one stretch of execution, if the coroutine it names can go on. -/
def timedStep (state : Timed κ τ ε) : TimedLabel κ τ ε → Option (Timed κ τ ε)
  | .run thread key =>
      if (state.locks.waiting thread).isSome then none
      else
        match (state.locks.lock key).currentThread with
        | none => some (state.enter thread key)
        | some owner =>
            if owner = thread then some (state.enter thread key)
            else some { state with locks := state.locks.wait thread key }
  | .resume thread =>
      if thread ∈ state.locks.wakeupQueue then
        let woken := { state.locks with wakeupQueue := state.locks.wakeupQueue.erase thread }
        match state.locks.waiting thread with
        | none => some { state with locks := woken }
        | some key =>
            let running := { woken with waiting := Function.update state.locks.waiting thread none }
            if (state.locks.lock key).ref = 0 then
              some ({ state with locks := running }.enter thread key)
            else some { state with locks := running.deliver thread .assertionFailed }
      else none
  | .leave thread err =>
      if (state.locks.waiting thread).isSome then none
      else
        match state.locks.bodies thread with
        | [] => none
        | key :: rest => some (state.unlock thread key rest err)
  | .wakeWaiting =>
      if state.locks.forkedWakes = 0 then none
      else some { state with locks := state.locks.wakeWaiting }
  | .check order =>
      if state.nextCheck ≤ state.clock ∧
          order.Perm (state.timeoutLockDict (state.lastCheckTs + 1)) then
        some (state.checkTimeout order)
      else none
  | .tick passed => some { state with clock := state.clock + passed }

/-- No coroutine has called any lock yet.  The module has been loaded at some time, and the loop was
started then, or a little later. -/
def timedInitial (cbFree : κ → Bool) (timeout : κ → Option ℚ) (loaded started : ℕ) :
    Timed κ τ ε where
  locks := initial cbFree
  timeout key := newTimeout (timeout key)
  timeoutTs _ := none
  timeoutLockDict _ := []
  lastCheckTs := loaded / 100
  nextCheck := started + if started % 100 = 0 then 1 else 100 - started % 100
  clock := started
  entered _ := 0
  frames _ := []
  taken := []
  harmed := []

end UEServer.CoLock
