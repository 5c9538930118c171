import UEServer.Library.Execution

/-!
# The positions of the cross-server boss

`traitor/traitor_utils.lua`, while the activity is open: who occupies which position, the timers
that end the protection of an occupant, and the rounds of the boss, which ask the agent of every
occupant for its challenges.  A label is what happens between two of these questions.  A role, and
the outcome of a fight between two, are parameters.
-/

namespace UEServer.CrossTraitor

variable {ρ : Type*} [DecidableEq ρ]

structure Config where
  /-- `CrossTraitorBossPosNum`. -/
  posNum : Nat
  /-- `cross_traitor_boss_protect_time`, in seconds. -/
  protectTime : Int
  protectTime_nonneg : 0 ≤ protectTime

def excelConfig : Config where
  posNum := 5
  protectTime := 5
  protectTime_nonneg := by decide

/-- The `role_info` of an occupied position. -/
structure Occupant (ρ : Type*) where
  uuid : ρ
  protectTs : Option Int
  takenTs : Int

structure ProtectTimer (ρ : Type*) where
  guid : Nat
  /-- The role whose entry of `protect_timer_dict` the callback clears. -/
  uuid : ρ
  /-- The position whose protection the callback ends. -/
  posId : Nat
  due : Int
  deriving DecidableEq

/-- A round that waits for the answer of an agent. -/
structure Round (ρ : Type*) where
  pos : Nat
  uuid : ρ
  remaining : List Nat
  /-- `kick_pos_dict`, with the roles whose answers have put the positions in it. -/
  kickPos : List (Nat × ρ)

/-- Why an occupant has lost its position. -/
inductive Cause where
  | contest
  | quit
  | moved
  | usedUp
  | other
  deriving DecidableEq

structure State (ρ : Type*) where
  clock : Int
  posDict : Nat → Option (Occupant ρ)
  /-- The timers that have not fired and are not cancelled. -/
  timers : List (ProtectTimer ρ)
  protectTimerDict : ρ → Option Nat
  /-- Last `guid` of a timer. -/
  guid : Nat
  rounds : List (Round ρ)
  /-- The occupants that have lost their positions, and why. -/
  departed : List (ρ × Cause)

inductive Label (ρ : Type*) where
  /-- A role calls `occupy_pos`, and would win or lose the fight. -/
  | occupy (posId : Nat) (uuid : ρ) (isWin : Bool)
  | quit (uuid : ρ)
  | tick
  | protectEnd (timer : ProtectTimer ρ)
  /-- The timer of the rounds calls `fight`. -/
  | fight
  | answer (index : Nat) (challengeNum : Option Int)

namespace State

variable (cfg : Config)

/-- The keys of `pos_dict`. -/
def positions : List Nat :=
  List.range' 1 cfg.posNum

def Holds (state : State ρ) (uuid : ρ) (pos : Nat) : Prop :=
  (state.posDict pos).map Occupant.uuid = some uuid

instance (state : State ρ) (uuid : ρ) (pos : Nat) : Decidable (state.Holds uuid pos) :=
  inferInstanceAs (Decidable (_ = _))

/-- The loop that clears the first position of a role. -/
def clearRole (state : State ρ) (uuid : ρ) : State ρ :=
  match (positions cfg).find? fun pos => state.Holds uuid pos with
  | none => state
  | some pos => { state with posDict := Function.update state.posDict pos none }

/-- The end of `occupy_pos`: the role takes the position, with a new timer. -/
def take (state : State ρ) (posId : Nat) (uuid : ρ) : State ρ :=
  let cleared := state.clearRole cfg uuid
  let protectTs := state.clock + cfg.protectTime
  { cleared with
    posDict := Function.update cleared.posDict posId
      (some { uuid := uuid, protectTs := some protectTs, takenTs := state.clock })
    timers := (state.timers.filter fun timer => some timer.guid ≠ state.protectTimerDict uuid) ++
      [{ guid := state.guid + 1, uuid := uuid, posId := posId, due := protectTs }]
    protectTimerDict := Function.update state.protectTimerDict uuid (some (state.guid + 1))
    guid := state.guid + 1 }

def occupyPos (state : State ρ) (posId : Nat) (uuid : ρ) (isWin : Bool) : State ρ :=
  if posId ∈ positions cfg then
    match state.posDict posId with
    | none => state.take cfg posId uuid
    | some occupant =>
        if occupant.uuid = uuid ∨ occupant.protectTs ≠ none ∨ isWin = false then state
        else state.take cfg posId uuid
  else
    state

def quitTraitor (state : State ρ) (uuid : ρ) : State ρ :=
  state.clearRole cfg uuid

/-- `update_role_protect_ts`, in the callback of a timer. -/
def protectEnd (state : State ρ) (timer : ProtectTimer ρ) : State ρ :=
  { state with
    timers := state.timers.erase timer
    protectTimerDict := Function.update state.protectTimerDict timer.uuid none
    posDict := Function.update state.posDict timer.posId
      ((state.posDict timer.posId).map fun occupant => { occupant with protectTs := none }) }

/-- The last loop of `fight`. -/
def kick (state : State ρ) (kickPos : List (Nat × ρ)) : State ρ :=
  { state with
    posDict := fun pos =>
      if pos ∈ kickPos.map Prod.fst then none else state.posDict pos }

/-- The first loop of `fight`, up to its next question or through the last loop. -/
def visit (state : State ρ) (kickPos : List (Nat × ρ)) : List Nat → State ρ
  | [] => state.kick kickPos
  | pos :: remaining =>
      match state.posDict pos with
      | none => visit state kickPos remaining
      | some occupant =>
          { state with
            rounds := state.rounds ++
              [{ pos := pos, uuid := occupant.uuid, remaining := remaining, kickPos := kickPos }] }

/-- `kick_pos_dict` after an answer. -/
def marked (round : Round ρ) (challengeNum : Option Int) : List (Nat × ρ) :=
  if challengeNum.any (· ≤ 0) then round.kickPos ++ [(round.pos, round.uuid)] else round.kickPos

/-- The effect of a label, if it is possible. Timers fire in the second in which they are due. -/
def advance (state : State ρ) : Label ρ → Option (State ρ)
  | .occupy posId uuid isWin => some (state.occupyPos cfg posId uuid isWin)
  | .quit uuid => some (state.quitTraitor cfg uuid)
  | .tick =>
      if ∀ timer ∈ state.timers, state.clock < timer.due then
        some { state with clock := state.clock + 1 }
      else none
  | .protectEnd timer =>
      if timer ∈ state.timers ∧ timer.due ≤ state.clock then some (state.protectEnd timer)
      else none
  | .fight => some (state.visit [] (positions cfg))
  | .answer index challengeNum =>
      match state.rounds[index]? with
      | none => none
      | some round =>
          some (State.visit { state with rounds := state.rounds.eraseIdx index }
            (marked round challengeNum) round.remaining)

/-- Why an occupant loses its position in a step. -/
def cause (state : State ρ) (label : Label ρ) (pos : Nat) (uuid : ρ) : Cause :=
  match label with
  | .occupy posId winner isWin =>
      if winner = uuid then .moved else if posId = pos ∧ isWin = true then .contest else .other
  | .quit leaver => if leaver = uuid then .quit else .other
  | .answer index challengeNum =>
      match state.rounds[index]? with
      | none => .other
      | some round => if (pos, uuid) ∈ marked round challengeNum then .usedUp else .other
  | _ => .other

/-- The occupants that lose their positions in a step, and why. -/
def departures (state after : State ρ) (label : Label ρ) : List (ρ × Cause) :=
  (positions cfg).filterMap fun pos =>
    match state.posDict pos with
    | none => none
    | some occupant =>
        if after.Holds occupant.uuid pos then none
        else some (occupant.uuid, state.cause label pos occupant.uuid)

end State

/-- Run one label, and note who loses a position. -/
def step (cfg : Config) (state : State ρ) (label : Label ρ) : Option (State ρ) :=
  (state.advance cfg label).map fun after =>
    { after with departed := after.departed ++ state.departures cfg after label }

def initial (clock : Int) : State ρ where
  clock := clock
  posDict _ := none
  timers := []
  protectTimerDict _ := none
  guid := 0
  rounds := []
  departed := []

end UEServer.CrossTraitor
