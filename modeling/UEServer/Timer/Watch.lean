import UEServer.Timer.Alive

/-!
# When timers are called

A service whose callbacks do not yield: a message is handled only when every forked coroutine has
ended, and one callback runs at a time.  It is watched which timers are called, at which tick, which
are cancelled, and which lose their place when another one is cancelled.
-/

namespace UEServer.Wheel

inductive Event where
  /-- The callback of a timer is called, after the check of a tick that came after a previous
  one. -/
  | called (timer : Nat) (previous tick : Int)
  | cancelled (timer : Nat)
  /-- A timer is removed from its slot when another one is cancelled. -/
  | lost (timer : Nat)
  deriving DecidableEq

def Event.calls (timer : Nat) : Event → Bool
  | .called other _ _ => other = timer
  | .cancelled _ | .lost _ => false

structure Watched where
  state : State
  /-- The first `next_ts` of each timer. -/
  first : Nat → Int
  /-- The time of the tick before the last one. -/
  previous : Int
  events : List Event

/-- The next `next_ts` of a timer whose callback returns. -/
def State.later (state : State) (timer : Nat) : Int :=
  (state.timers timer).nextTs + (state.timers timer).duration

/-- A callback does not yield, so a message is handled only when no coroutine is left, and a
coroutine is resumed only when no callback is running. -/
def Atomic (state : State) : Label → Prop
  | .check => state.runs = []
  | .start _ => ∀ other ∈ state.runs, other.started = false
  | _ => True

instance (state : State) : (label : Label) → Decidable (Atomic state label)
  | .check => inferInstanceAs (Decidable (state.runs = []))
  | .start _ => inferInstanceAs (Decidable (∀ other ∈ state.runs, other.started = false))
  | .tick | .new _ _ _ _ | .cancel _ | .expire | .caughtUp | .finish _ => isTrue trivial

/-- The callback of a loop timer has returned and is called again in the same coroutine. -/
def State.Again (state : State) (run : Run) : Prop :=
  (state.timers run.timer).isLoop = true ∧ state.later run.timer ≤ run.now ∧
    (state.timers run.timer).cancelFlag = false

instance (state : State) (run : Run) : Decidable (state.Again run) :=
  inferInstanceAs (Decidable (_ ∧ _ ∧ _))

/-- The timers other than the one that is cancelled that leave its slot. -/
def State.lost (state : State) (timer : Nat) : List Nat :=
  let slot := state.timerHub (state.timers timer).nextTs
  slot.filter fun other => other ≠ timer ∧ other ∉ State.removeFrom slot timer

/-- What happens in a stretch of execution. -/
def State.emits (state : State) (previous : Int) : Label → List Event
  | .start run =>
      if (state.timers run.timer).cancelFlag then []
      else [.called run.timer previous state.lastTs]
  | .finish run =>
      if state.Again run then [.called run.timer previous state.lastTs] else []
  | .cancel timer =>
      if (state.timers timer).cancelFlag then []
      else .cancelled timer :: (state.lost timer).map .lost
  | _ => []

namespace Watched

/-- The first `next_ts` of a new timer is remembered. -/
def firstAfter (watched : Watched) (after : State) : Label → Nat → Int
  | .new _ _ _ _ => Function.update watched.first after.guid (after.timers after.guid).nextTs
  | _ => watched.first

def previousAfter (watched : Watched) : Label → Int
  | .check => watched.state.lastTs
  | _ => watched.previous

/-- A stretch of execution in a service whose callbacks do not yield. -/
def step (watched : Watched) (label : Label) : Option Watched :=
  if Atomic watched.state label then
    (Wheel.step watched.state label).map fun after =>
      { state := after
        first := watched.firstAfter after label
        previous := watched.previousAfter label
        events := watched.events ++ watched.state.emits watched.previous label }
  else none

def initial (now : Int) : Watched where
  state := Wheel.initial now
  first _ := 0
  previous := 0
  events := []

def count (watched : Watched) (timer : Nat) : Nat :=
  watched.events.countP (Event.calls timer)

def Created (watched : Watched) (timer : Nat) : Prop :=
  0 < timer ∧ timer ≤ watched.state.guid

/-- The last tick and its forked callbacks are complete. -/
def Idle (watched : Watched) : Prop :=
  watched.state.checking = none ∧ watched.state.runs = []

structure Lawful (watched : Watched) : Prop where
  once : ∀ timer, (watched.state.timers timer).isLoop = false → watched.count timer ≤ 1
  /-- It is called at the first tick that is not before its deadline. -/
  at_deadline : ∀ timer previous tick, .called timer previous tick ∈ watched.events →
    (watched.state.timers timer).isLoop = false →
      previous < watched.first timer ∧ watched.first timer ≤ tick
  /-- It has been called when that tick is complete, if it has not been cancelled. -/
  called : watched.Idle → ∀ timer, watched.Created timer →
    (watched.state.timers timer).isLoop = false →
    (watched.state.timers timer).cancelFlag = false →
    watched.first timer ≤ watched.state.lastTs → watched.count timer = 1
  /-- A loop timer that has not been cancelled has been called once for each of its deadlines when
  the tick is complete. -/
  loop : watched.Idle → ∀ timer, watched.Created timer →
    (watched.state.timers timer).isLoop = true →
    (watched.state.timers timer).cancelFlag = false →
    watched.first timer ≤ watched.state.lastTs →
      (watched.count timer : Int) =
        (watched.state.lastTs - watched.first timer) / (watched.state.timers timer).duration + 1
  silent : watched.events.Pairwise fun earlier later =>
    ∀ timer, earlier = .cancelled timer → later.calls timer = false
  /-- A timer that is cancelled removes no other one from its slot. -/
  others : ∀ timer, .lost timer ∉ watched.events

/-- A loop timer is called again in the same coroutine only for deadlines up to the time of the
tick, and not for those that the clock has passed since the check read it. -/
def Punctual (watched : Watched) : Label → Prop
  | .finish run =>
      watched.state.Again run → watched.state.later run.timer ≤ watched.state.lastTs
  | _ => True

instance (watched : Watched) : (label : Label) → Decidable (watched.Punctual label)
  | .finish run => inferInstanceAs (Decidable (watched.state.Again run → _))
  | .tick | .new _ _ _ _ | .cancel _ | .check | .expire | .caughtUp | .start _ => isTrue trivial

end Watched

end UEServer.Wheel
