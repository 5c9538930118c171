import UEServer.Library.Execution

/-!
# Role names

`role_cls.create`, `name_utils.use_role_name`, `name_utils.unuse_role_name` and
`role_base.modify_role_name`.  The names in use are kept in the database, the name of a role in its
record; every call to the platform or the database is a yield point, and so is a name's lock.
Every label is what one coroutine does between two yield points, or what the database does.
-/

namespace UEServer.RoleName

/-- What a coroutine is doing with a name.  In the first three, the role is that of a rename. -/
inductive Flow (ν : Type*) where
  | idle
  | masking (role : Option ℕ) (name : ν)
  | looking (role : Option ℕ) (name : ν)
  | looked (role : Option ℕ) (name : ν) (taken : Bool)
  /-- `use_role_name` has been called and has not got the lock of the name yet. -/
  | claiming (creates : Bool) (uuid : ℕ) (name : ν)
  /-- The insertion of `use_role_name` is in flight. -/
  | inserting (creates : Bool) (uuid : ℕ) (name : ν)
  | inserted (creates : Bool) (uuid : ℕ) (name : ν) (done : Bool)
  | loading (uuid : ℕ) (name : ν)
  /-- `unuse_role_name` has been called and has not got the lock of the old name yet. -/
  | releasing (uuid : ℕ) (old name : ν)
  /-- The deletion of `unuse_role_name` is in flight. -/
  | deleting (uuid : ℕ) (old name : ν)
  | deleted (uuid : ℕ) (old name : ν)
  deriving DecidableEq

structure ServerEnv (ν : Type*) where
  serverId : ℕ
  maxRoleNum : ℕ
  /-- `check_player_name_legality`. -/
  legal : ν → Bool

/-- The roles, the names in use and the coroutines. -/
structure State (ν τ : Type*) where
  /-- `schema_game.RoleName`: the role registered for each name. -/
  registry : ν → Option ℕ
  names : ℕ → Option ν
  lastRoleNum : ℕ
  lock : ν → Option τ
  flows : τ → Flow ν

inductive Event (ν τ : Type*) where
  | newRole (thread : τ) (name : ν)
  | modifyRoleName (thread : τ) (uuid : ℕ) (name : ν)
  | answer (thread : τ) (clean : Bool)
  | execute (thread : τ)
  | acquire (thread : τ)
  /-- The coroutine goes on with the database's answer; a rename may have to be paid. -/
  | resume (thread : τ) (pays : Bool)
  | timeout (name : ν)

variable {ν τ : Type*} [DecidableEq ν] [DecidableEq τ]

def State.goes (state : State ν τ) (thread : τ) (flow : Flow ν) : State ν τ :=
  { state with flows := Function.update state.flows thread flow }

/-- A coroutine leaves a lock, which is not its own any more if it has timed out. -/
def State.unlock (state : State ν τ) (thread : τ) (name : ν) : State ν τ :=
  if state.lock name = some thread then
    { state with lock := Function.update state.lock name none }
  else state

/-- The database executes a request. -/
def execute (state : State ν τ) (thread : τ) : Option (State ν τ) :=
  match state.flows thread with
  | .looking role name =>
      some (state.goes thread (.looked role name (state.registry name).isSome))
  | .inserting creates uuid name =>
      if (state.registry name).isSome then
        some (state.goes thread (.inserted creates uuid name false))
      else
        some ({ state with registry := Function.update state.registry name (some uuid) }.goes thread
          (.inserted creates uuid name true))
  | .deleting uuid old name =>
      some ({ state with registry := Function.update state.registry old none }.goes thread
        (.deleted uuid old name))
  | _ => none

/-- A coroutine gets the lock of a name. -/
def acquire (state : State ν τ) (thread : τ) : Option (State ν τ) :=
  match state.flows thread with
  | .claiming creates uuid name =>
      if state.lock name = none then
        some ({ state with lock := Function.update state.lock name (some thread) }.goes thread
          (.inserting creates uuid name))
      else none
  | .releasing uuid old name =>
      if state.lock old = none then
        some ({ state with lock := Function.update state.lock old (some thread) }.goes thread
          (.deleting uuid old name))
      else none
  | _ => none

/-- `role_cls.create`, up to the lock of the name. -/
def create (env : ServerEnv ν) (state : State ν τ) (thread : τ) (name : ν) : State ν τ :=
  let counted := { state with lastRoleNum := state.lastRoleNum + 1 }
  if env.maxRoleNum ≤ state.lastRoleNum then counted.goes thread .idle
  else
    let uuid := env.serverId * env.maxRoleNum + state.lastRoleNum
    counted.goes thread (.claiming true uuid name)

/-- A coroutine goes on with the database's answer. -/
def resume (env : ServerEnv ν) (state : State ν τ) (thread : τ) (pays : Bool) :
    Option (State ν τ) :=
  match state.flows thread with
  | .looked role name taken =>
      if taken then some (state.goes thread .idle)
      else
        match role with
        | none => some (create env state thread name)
        | some uuid =>
            some (state.goes thread (if pays then .claiming false uuid name else .idle))
  -- A creation does not look at the result of its claim.
  | .inserted true uuid name _ => some ((state.unlock thread name).goes thread (.loading uuid name))
  | .inserted false uuid name done =>
      if done then
        (state.names uuid).map fun old =>
          (state.unlock thread name).goes thread (.releasing uuid old name)
      else some ((state.unlock thread name).goes thread .idle)
  | .loading uuid name =>
      some ({ state with names := Function.update state.names uuid (some name) }.goes thread .idle)
  | .deleted uuid old name =>
      some ({ state.unlock thread old with
        names := Function.update state.names uuid (some name) }.goes thread .idle)
  | _ => none

/-- One stretch of execution. -/
def step (env : ServerEnv ν) (state : State ν τ) : Event ν τ → Option (State ν τ)
  | .newRole thread name =>
      if state.flows thread = .idle ∧ env.legal name then
        some (state.goes thread (.masking none name))
      else none
  | .modifyRoleName thread uuid name =>
      if state.flows thread = .idle ∧ (state.names uuid).isSome ∧ state.names uuid ≠ some name ∧
          env.legal name then
        some (state.goes thread (.masking (some uuid) name))
      else none
  | .answer thread clean =>
      match state.flows thread with
      | .masking role name => some (state.goes thread (if clean then .looking role name else .idle))
      | _ => none
  | .execute thread => execute state thread
  | .acquire thread => acquire state thread
  | .resume thread pays => resume env state thread pays
  | .timeout name => some { state with lock := Function.update state.lock name none }

end UEServer.RoleName
