import UEServer.Library.Execution

/-!
# Creation of accounts

`c_new_role` of `msg_handles/login.lua`, with `role_cls.create`.  A request checks the name and the
account, counts the role, claims the name, makes the role and its record, and only then inserts the row
of the account.  Every call to the platform or the database is a yield point, and so is the lock of a
name.  The lock of a new role is that of nobody else.
-/

namespace UEServer.Account

/-- A request that has passed the checks. -/
structure Request (υ ν : Type*) where
  urs : υ
  roleName : ν
  deriving DecidableEq

inductive Flow (υ ν : Type*) where
  | idle
  | masking (request : Request υ ν)
  | looking (request : Request υ ν)
  | looked (request : Request υ ν) (taken : Bool)
  | checking (request : Request υ ν)
  | checked (request : Request υ ν) (found : Bool)
  /-- `use_role_name` has not got the lock of the name yet. -/
  | claiming (request : Request υ ν) (uuid : ℕ)
  /-- The insertion of `use_role_name` is in flight. -/
  | naming (request : Request υ ν) (uuid : ℕ)
  /-- The insertion of `use_role_name` has been answered. -/
  | named (request : Request υ ν) (uuid : ℕ)
  | loading (request : Request υ ν) (uuid : ℕ)
  /-- The record is being written by `role:save`. -/
  | saving (request : Request υ ν) (uuid : ℕ)
  | saved (request : Request υ ν) (uuid : ℕ)
  | inserting (request : Request υ ν) (uuid : ℕ)
  | inserted (request : Request υ ν) (uuid : ℕ) (done : Bool)
  | setting (request : Request υ ν) (uuid : ℕ)
  | set (request : Request υ ν) (uuid : ℕ)
  deriving DecidableEq

structure ServerEnv (ν : Type*) where
  serverId : ℕ
  maxRoleNum : ℕ
  /-- `IsStringBroken` and `check_player_name_legality`. -/
  legal : ν → Bool

/-- The roles, the tables in the database and the coroutines. -/
structure State (υ ν τ : Type*) where
  /-- `schema_game.RoleName`: the role registered for each name. -/
  registry : ν → Option ℕ
  /-- `schema_game.Player`: the rows of the accounts, with their roles. -/
  players : υ → Option (Option ℕ)
  /-- `schema_game.Role`: the account in the record of each role. -/
  records : ℕ → Option υ
  /-- `role_dict`: the account of each role in memory. -/
  roleDict : ℕ → Option υ
  lastRoleNum : ℕ
  lock : ν → Option τ
  flows : τ → Flow υ ν
  given : List ℕ
  /-- The uuids given by requests that were answered with an error, or not at all. -/
  failed : List ℕ

inductive Event (υ ν τ : Type*) where
  | newRole (thread : τ) (request : Request υ ν)
  | answer (thread : τ) (clean : Bool)
  | execute (thread : τ)
  | acquire (thread : τ)
  | resume (thread : τ)
  | timeout (name : ν)

variable {υ ν τ : Type*} [DecidableEq υ] [DecidableEq ν] [DecidableEq τ]

namespace State

def goes (state : State υ ν τ) (thread : τ) (flow : Flow υ ν) : State υ ν τ :=
  { state with flows := Function.update state.flows thread flow }

/-- A coroutine leaves a lock, which is not its own any more if it has timed out. -/
def unlock (state : State υ ν τ) (thread : τ) (name : ν) : State υ ν τ :=
  if state.lock name = some thread then
    { state with lock := Function.update state.lock name none }
  else state

/-- The database executes a call. -/
def execute (state : State υ ν τ) (thread : τ) : Option (State υ ν τ) :=
  match state.flows thread with
  | .looking request =>
      some (state.goes thread (.looked request (state.registry request.roleName).isSome))
  | .checking request =>
      some (state.goes thread (.checked request (state.players request.urs).isSome))
  | .naming request uuid =>
      let named :=
        if (state.registry request.roleName).isSome then state
        else
          { state with registry := Function.update state.registry request.roleName (some uuid) }
      some (named.goes thread (.named request uuid))
  | .saving request uuid =>
      some ({ state with records := Function.update state.records uuid (some request.urs) }.goes thread
        (.saved request uuid))
  | .inserting request uuid =>
      if (state.players request.urs).isSome then
        some (state.goes thread (.inserted request uuid false))
      else
        some ({ state with players := Function.update state.players request.urs (some none) }.goes
          thread (.inserted request uuid true))
  | .setting request uuid =>
      let written := (state.players request.urs).map fun _ => some uuid
      some ({ state with players := Function.update state.players request.urs written }.goes thread
        (.set request uuid))
  | _ => none

/-- A coroutine gets the lock of a name. -/
def acquire (state : State υ ν τ) (thread : τ) : Option (State υ ν τ) :=
  match state.flows thread with
  | .claiming request uuid =>
      if state.lock request.roleName = none then
        some ({ state with
          lock := Function.update state.lock request.roleName (some thread) }.goes thread
            (.naming request uuid))
      else none
  | _ => none

/-- `role_cls.create`, up to the lock of the name.  Without a role, the request is not answered. -/
def create (env : ServerEnv ν) (state : State υ ν τ) (thread : τ) (request : Request υ ν) :
    State υ ν τ :=
  let counted := { state with lastRoleNum := state.lastRoleNum + 1 }
  if env.maxRoleNum ≤ state.lastRoleNum then counted.goes thread .idle
  else
    let uuid := env.serverId * env.maxRoleNum + state.lastRoleNum
    { counted with given := state.given ++ [uuid] }.goes thread (.claiming request uuid)

/-- A coroutine goes on with the database's answer. -/
def resume (env : ServerEnv ν) (state : State υ ν τ) (thread : τ) : Option (State υ ν τ) :=
  match state.flows thread with
  | .looked request taken =>
      some (state.goes thread (if taken then .idle else .checking request))
  | .checked request found =>
      some (if found then state.goes thread .idle else create env state thread request)
  -- The result of the claim is not looked at.
  | .named request uuid =>
      some ((state.unlock thread request.roleName).goes thread (.loading request uuid))
  | .loading request uuid =>
      some ({ state with roleDict := Function.update state.roleDict uuid (some request.urs) }.goes
        thread (.saving request uuid))
  | .saved request uuid => some (state.goes thread (.inserting request uuid))
  | .inserted request uuid done =>
      if done then some (state.goes thread (.setting request uuid))
      else some ({ state with failed := state.failed ++ [uuid] }.goes thread .idle)
  | .set _ _ => some (state.goes thread .idle)
  | _ => none

end State

/-- One stretch of execution. -/
def step (env : ServerEnv ν) (state : State υ ν τ) : Event υ ν τ → Option (State υ ν τ)
  | .newRole thread request =>
      if state.flows thread = .idle then
        some (if env.legal request.roleName then state.goes thread (.masking request) else state)
      else none
  | .answer thread clean =>
      match state.flows thread with
      | .masking request => some (state.goes thread (if clean then .looking request else .idle))
      | _ => none
  | .execute thread => state.execute thread
  | .acquire thread => state.acquire thread
  | .resume thread => state.resume env thread
  | .timeout name => some { state with lock := Function.update state.lock name none }

end UEServer.Account
