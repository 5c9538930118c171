import UEServer.Library.Execution

/-!
# The timer wheel

`timer.lua` in one service.  Time is counted in hundredths of a second and read from a clock that
another thread advances, also while `_check_cb` runs.  Otherwise a stretch of execution is not
interrupted: `_check_cb` does not yield, and a callback is left only where it yields or ends.
-/

namespace UEServer.Wheel

structure Timer where
  /-- `duration`, at least one. -/
  duration : Int := 1
  isLoop : Bool := false
  nextTs : Int := 0
  cancelFlag : Bool := false

/-- A coroutine forked by `_expire`. -/
structure Run where
  /-- The `guid` of its timer. -/
  timer : Nat
  /-- The `now` of the `_expire` that forked it. -/
  now : Int
  /-- It has been resumed, so the callback is running. -/
  started : Bool
  deriving DecidableEq

structure State where
  /-- `date.now()`. -/
  now : Int
  checkStarted : Bool
  lastTs : Int
  /-- `_guid`, the `guid` of the newest timer. -/
  guid : Nat
  /-- The timers by `guid`. -/
  timers : Nat → Timer
  /-- `_timer_hub`; a missing slot is empty. -/
  timerHub : Int → List Nat
  /-- The coroutines forked by `_expire` that have not ended. -/
  runs : List Run
  /-- The `now` of the `_check_cb` that is running. -/
  checking : Option Int

/-- One uninterrupted stretch of execution. -/
inductive Label where
  | tick
  /-- `timer.new` is called, and the clock advances by `passed` between its two readings. -/
  | new (duration : Rat) (isLoop : Bool) (delay : Option Rat) (passed : Nat)
  | cancel (timer : Nat)
  | check
  | expire
  | caughtUp
  | start (run : Run)
  | finish (run : Run)

/-- `n > 1 and math.floor(n) or 1`. -/
def wholeTicks (n : Rat) : Int :=
  if 1 < n then n.floor else 1

namespace State

def setTimer (state : State) (guid : Nat) (timer : Timer) : State :=
  { state with timers := Function.update state.timers guid timer }

def plug (state : State) (guid : Nat) : State :=
  let nextTs := (state.timers guid).nextTs
  { state with
    timerHub := Function.update state.timerHub nextTs (state.timerHub nextTs ++ [guid]) }

/-- `timer.new` starts the check with the first timer. -/
def startCheck (state : State) : State :=
  if state.checkStarted then state
  else { state with checkStarted := true, lastTs := state.now - 1 }

def new (state : State) (duration : Rat) (isLoop : Bool) (delay : Option Rat) (passed : Nat) :
    State :=
  let started := state.startCheck
  let self : Timer :=
    { duration := wholeTicks duration
      isLoop := isLoop
      nextTs := state.now + passed + wholeTicks (delay.getD duration) }
  plug
    (setTimer { started with now := state.now + passed, guid := state.guid + 1 }
      (state.guid + 1) self)
    (state.guid + 1)

/-- `table.remove(slot, table.index(slot, self))`: without an index the last entry goes. -/
def removeFrom (slot : List Nat) (self : Nat) : List Nat :=
  if self ∈ slot then slot.erase self else slot.dropLast

def cancel (state : State) (guid : Nat) : State :=
  let self := state.timers guid
  if self.cancelFlag then state
  else
    setTimer
      { state with
        timerHub := Function.update state.timerHub self.nextTs
          (removeFrom (state.timerHub self.nextTs) guid) }
      guid { self with cancelFlag := true }

/-- `timer._expire(ts)`. -/
def expire (state : State) (ts : Int) : State :=
  { state with
    timerHub := Function.update state.timerHub ts []
    runs := state.runs ++
      (state.timerHub ts).map fun timer => { timer, now := state.now, started := false } }

/-- The loop of a forked coroutine, up to the call of the callback. -/
def start (state : State) (run : Run) : State :=
  if (state.timers run.timer).cancelFlag then { state with runs := state.runs.erase run }
  else { state with runs := { run with started := true } :: state.runs.erase run }

/-- The loop of a forked coroutine, from the return of the callback on. -/
def finish (state : State) (run : Run) : State :=
  let self := state.timers run.timer
  let ended := { state with runs := state.runs.erase run }
  if self.isLoop then
    let next : Timer := { self with nextTs := self.nextTs + self.duration }
    if run.now < next.nextTs then (ended.setTimer run.timer next).plug run.timer
    else if self.cancelFlag then ended.setTimer run.timer next
    else state.setTimer run.timer next
  else ended

end State

/-- One stretch of execution, if it is possible. -/
def step (state : State) : Label → Option State
  | .tick => some { state with now := state.now + 1 }
  | .new duration isLoop delay passed =>
      if state.checking = none then some (state.new duration isLoop delay passed) else none
  | .cancel timer =>
      if state.checking = none ∧ 0 < timer ∧ timer ≤ state.guid then
        some (state.cancel timer)
      else none
  | .check =>
      if state.checking = none ∧ state.checkStarted then
        some { state with checking := some state.now }
      else none
  | .expire =>
      match state.checking with
      | some now =>
          if state.lastTs < now then
            some (State.expire { state with lastTs := state.lastTs + 1 } (state.lastTs + 1))
          else none
      | none => none
  | .caughtUp =>
      match state.checking with
      | some now => if state.lastTs < now then none else some { state with checking := none }
      | none => none
  | .start run =>
      if state.checking = none ∧ run ∈ state.runs ∧ run.started = false then
        some (state.start run)
      else none
  | .finish run =>
      if state.checking = none ∧ run ∈ state.runs ∧ run.started = true then
        some (state.finish run)
      else none

def initial (now : Int) : State where
  now := now
  checkStarted := false
  lastTs := 0
  guid := 0
  timers _ := {}
  timerHub _ := []
  runs := []
  checking := none

namespace State

/-- A loop timer that has not been cancelled. -/
def Live (state : State) (timer : Nat) : Prop :=
  (state.timers timer).isLoop = true ∧ (state.timers timer).cancelFlag = false

instance (state : State) (timer : Nat) : Decidable (state.Live timer) :=
  inferInstanceAs (Decidable (_ ∧ _))

/-- The timer runs its callback or is queued to run it. -/
def InCallback (state : State) (timer : Nat) : Prop :=
  ∃ run ∈ state.runs, run.timer = timer

/-- The timer is plugged into a slot that has yet to expire. -/
def Plugged (state : State) (timer : Nat) : Prop :=
  ∃ ts, state.lastTs < ts ∧ timer ∈ state.timerHub ts

def Alive (state : State) : Prop :=
  ∀ timer, state.Live timer → state.InCallback timer ∨ state.Plugged timer

end State

/-- A step drops no timer: a loop timer that is plugged again after its callback goes into a slot
that has yet to expire, and `cancel` does not remove another loop timer from the slot in which it
does not find its own. -/
def Keeps (state : State) : Label → Prop
  | .finish run =>
      let self := state.timers run.timer
      state.Live run.timer → run.now < self.nextTs + self.duration →
        state.lastTs < self.nextTs + self.duration
  | .cancel timer =>
      let self := state.timers timer
      let slot := state.timerHub self.nextTs
      self.cancelFlag = false → timer ∉ slot → ∀ last ∈ slot.getLast?, ¬ state.Live last
  | _ => True

instance (state : State) : (label : Label) → Decidable (Keeps state label)
  | .finish run => inferInstanceAs (Decidable (state.Live run.timer → _ → _))
  | .cancel timer => inferInstanceAs
      (Decidable (_ → _ → ∀ last ∈ (state.timerHub (state.timers timer).nextTs).getLast?,
        ¬ state.Live last))
  | .tick | .new _ _ _ _ | .check | .expire | .caughtUp | .start _ => isTrue trivial

end UEServer.Wheel
