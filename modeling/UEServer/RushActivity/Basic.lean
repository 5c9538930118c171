import Mathlib.Data.Int.Init
import UEServer.Library.Execution

/-!
# Rush activities

`ActivityClass` of `rush_activity_utils.lua`.  An activity starts again and again; it is started for a
while, then stopped for a while, when its ranks can still be read, and then waits for its next start.
The server may be shut down, or crash, and be started again at any time.
-/

namespace UEServer.RushActivity

structure Config where
  firstStartTs : ℤ
  offsetSec : ℤ
  durationSec : ℤ
  reserveSec : ℤ
  loopSec : ℤ
  duration_pos : 0 < durationSec
  reserve_pos : 0 < reserveSec
  loop_pos : 0 < loopSec

/-- The times of one cycle, as they are stored. -/
structure Row where
  startTs : ℤ
  stopTs : ℤ
  endTs : ℤ
  deriving DecidableEq

/-- `CSConst.ActivityState`. -/
inductive Phase where
  | nostart
  | started
  | stopped
  | invalid
  deriving DecidableEq

inductive Transition where
  | toStarted
  | toStopped
  | toNostart
  deriving DecidableEq

structure Activity where
  /-- `start_ts`, `stop_ts` and `end_ts`. -/
  row : Row
  state : Option Phase
  /-- The timers that are pending, with their times. -/
  timers : List (ℤ × Transition)
  deriving DecidableEq

/-- The server, and what is stored of the activity. -/
structure State where
  /-- `date.time_second()`. -/
  now : ℤ
  activity : Option Activity
  /-- The row of `RushActivity`. -/
  db : Option Row
  lastShutdownTs : ℤ
  /-- The time up to which the server ran last. -/
  ranUntil : ℤ
  /-- The time at which the activity was initialised first. -/
  began : Option ℤ
  /-- The starts of the cycles whose reward has been given. -/
  rewards : List ℤ
  /-- The starts of the cycles whose ranks have been cleared. -/
  cleared : List ℤ
  deriving DecidableEq

namespace Config

def loopUnitSec (config : Config) : ℤ :=
  config.durationSec + config.reserveSec + config.loopSec

def row (config : Config) (startTs : ℤ) : Row where
  startTs := startTs
  stopTs := startTs + config.durationSec
  endTs := startTs + config.durationSec + config.reserveSec

/-- The start that `init` computes when nothing is stored. -/
def firstTs (config : Config) (now : ℤ) : ℤ :=
  let loopTotalSec := now - config.firstStartTs - config.offsetSec
  if loopTotalSec < 0 then config.firstStartTs + config.offsetSec
  else
    let loopMultiple := loopTotalSec / config.loopUnitSec
    config.firstStartTs + config.offsetSec + config.loopUnitSec * loopMultiple

/-- The start that `init` computes from what is stored. -/
def nextTs (config : Config) (now lastShutdownTs : ℤ) (data : Row) : ℤ :=
  let loopTotalSec := now - lastShutdownTs
  let loopMultiple := loopTotalSec / config.loopUnitSec
  data.startTs + config.loopUnitSec * loopMultiple

end Config

/-- The last part of `init`: the state and the timer of the activity. -/
def enter (now : ℤ) (row : Row) : Activity :=
  if now < row.startTs then ⟨row, some .nostart, [(row.startTs, .toStarted)]⟩
  else if now < row.stopTs then ⟨row, some .started, [(row.stopTs, .toStopped)]⟩
  else if now < row.endTs then ⟨row, some .stopped, [(row.endTs, .toNostart)]⟩
  else if row.endTs < now then ⟨row, some .invalid, []⟩
  else ⟨row, none, []⟩

namespace State

/-- `init`, when the server is started. -/
def init (state : State) (config : Config) : State :=
  match state.db with
  | none =>
      let row := config.row (config.firstTs state.now)
      { state with
        activity := some (enter state.now row), db := some row, began := some state.now }
  | some data =>
      let row := config.row (config.nextTs state.now state.lastShutdownTs data)
      let ends := state.lastShutdownTs < data.stopTs ∧ data.stopTs ≤ state.now
      { state with
        activity := some (enter state.now row)
        db := some row
        rewards := state.rewards ++ if ends then [data.startTs] else []
        cleared := state.cleared ++
          (if ends ∧ data.endTs ≤ state.now then [data.startTs] else []) ++
          if data.stopTs ≤ state.lastShutdownTs ∧ state.lastShutdownTs < data.endTs ∧
            data.endTs ≤ state.now then [data.startTs] else [] }

/-- The transitions, at the time of their timer. -/
def fire (state : State) (config : Config) (activity : Activity) : Transition → State
  | .toStarted =>
      { state with
        activity := some { activity with
          state := some .started
          timers := activity.timers ++ [(state.now + config.durationSec, .toStopped)] } }
  | .toStopped =>
      { state with
        activity := some { activity with
          state := some .stopped
          timers := activity.timers ++ [(state.now + config.reserveSec, .toNostart)] }
        rewards := state.rewards ++ [activity.row.startTs] }
  | .toNostart =>
      let row := config.row (activity.row.endTs + config.loopSec)
      { state with
        activity := some ⟨row, some .nostart,
          activity.timers ++ [(state.now + config.loopSec, .toStarted)]⟩
        db := some row
        cleared := state.cleared ++ [activity.row.startTs] }

end State

inductive Op where
  | start
  | shutdown
  | crash
  | timer (due : ℤ) (transition : Transition)
  | tick (passed : ℕ)

/-- One operation. -/
def step (config : Config) (state : State) : Op → Option State
  | .start => if state.activity = none then some (state.init config) else none
  | .shutdown =>
      if state.activity.isSome then
        some { state with
          activity := none, lastShutdownTs := state.now, ranUntil := state.now }
      else none
  | .crash =>
      if state.activity.isSome then some { state with activity := none, ranUntil := state.now }
      else none
  | .timer due transition =>
      match state.activity with
      | none => none
      | some activity =>
          if (due, transition) ∈ activity.timers ∧ state.now ≤ due ∧
              ∀ timer ∈ activity.timers, due ≤ timer.1 then
            some ({ state with now := due }.fire config
              { activity with timers := activity.timers.erase (due, transition) } transition)
          else none
  | .tick passed =>
      if ∀ activity ∈ state.activity, ∀ timer ∈ activity.timers, state.now + passed < timer.1 then
        some { state with now := state.now + passed }
      else none

def initial (now lastShutdownTs : ℤ) : State :=
  ⟨now, none, none, lastShutdownTs, now, none, [], []⟩

end UEServer.RushActivity
