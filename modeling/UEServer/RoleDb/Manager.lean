import UEServer.Library.Execution

/-!
# The records of roles

`role_db`, for the one collection that it manages.  An entry is kept while its role is online; it is
written when it is saved, and dropped when the role is saved to be unloaded.  The database acts in
the order of the calls for a role, so a call counts from when it is made, and its caller goes on
later.
-/

namespace UEServer.RoleDb

variable {κ α : Type*} [DecidableEq κ]

/-- An entry of `_db_dict`. -/
structure Entry (α : Type*) where
  value : α
  isSave : Bool
  /-- `is_insert`: the record is not in the database. -/
  isInsert : Bool
  /-- `save_timer` is running. -/
  saveTimer : Bool
  deriving DecidableEq

/-- What becomes of a call to the database. -/
inductive Outcome where
  | done
  | refused
  | raised
  deriving DecidableEq

/-- A `_load` that waits for the database. -/
structure Load (α : Type*) where
  notAutoCreate : Bool
  /-- What it will be answered; nothing if the call fails. -/
  found : Option (Option α)
  deriving DecidableEq

/-- The entries, the database, and what has been made of each record. -/
structure State (κ α : Type*) where
  dbDict : κ → Option (Entry α)
  /-- `_load_lock`, with the call under way. -/
  loadLock : κ → Option (Load α)
  rows : κ → Option α
  /-- Each record as it was created or changed last. -/
  latest : κ → Option α

/-- What is done with the record of a role. -/
inductive Op (κ α : Type*) where
  /-- `get` or `find_one` finds no entry and calls the database. -/
  | load (key : κ) (notAutoCreate : Bool) (outcome : Outcome)
  | loaded (key : κ)
  | create (key : κ)
  | set (key : κ) (value : α)
  | change (key : κ) (value : α)
  | changeDropped (key : κ) (value : α)
  | timer (key : κ) (outcome : Outcome)
  | saveRole (key : κ) (isSaveClear : Bool) (outcome : Outcome)

namespace State

/-- Put an entry into `_db_dict`. -/
def put (state : State κ α) (key : κ) (entry : Entry α) : State κ α :=
  { state with dbDict := Function.update state.dbDict key (some entry) }

def isUuidOnline (state : State κ α) (key : κ) : Bool :=
  (state.dbDict key).isSome

def checkStartTimer (state : State κ α) (key : κ) (entry : Entry α) : State κ α :=
  if state.isUuidOnline key = false ∧ entry.saveTimer = false then
    state.put key { entry with saveTimer := true }
  else state

def make (state : State κ α) (key : κ) (value : α) : State κ α :=
  { state with latest := Function.update state.latest key (some value) }

def putNew (state : State κ α) (key : κ) (value : α) : State κ α :=
  let entry := ⟨value, true, true, false⟩
  (state.put key entry).checkStartTimer key entry

def create (newObj : κ → α) (state : State κ α) (key : κ) : State κ α :=
  (state.putNew key (newObj key)).make key (newObj key)

/-- The end of `_load`.  A record that does not exist anywhere is created. -/
def loaded (newObj : κ → α) (state : State κ α) (key : κ) (load : Load α) : State κ α :=
  let unlocked := { state with loadLock := Function.update state.loadLock key none }
  match load.found with
  | none => unlocked
  | some (some row) => unlocked.put key ⟨row, false, false, false⟩
  | some none =>
      if load.notAutoCreate then unlocked
      else
        (unlocked.putNew key (newObj key)).make key ((state.latest key).getD (newObj key))

def set (state : State κ α) (key : κ) (value : α) : State κ α :=
  let entry := (state.dbDict key).getD ⟨value, true, false, false⟩
  let entry := { entry with value, isSave := true }
  ((state.put key entry).checkStartTimer key entry).make key value

/-- `_get_save_query`: whether to insert, the record, and the state after it. -/
def getSaveQuery (state : State κ α) (key : κ) (isSaveClear : Bool) :
    Option (Bool × α) × State κ α :=
  match state.dbDict key with
  | none => (none, state)
  | some entry =>
      (some (entry.isInsert, entry.value),
        { state with
          dbDict := Function.update state.dbDict key
            (if isSaveClear then none else some { entry with isInsert := false }) })

/-- `__save`: an insertion needs that there is no row, an update writes the row that there is. -/
def save (state : State κ α) (key : κ) (query : Bool × α) (outcome : Outcome) : State κ α :=
  if outcome = .done ∧ query.1 = (state.rows key).isNone then
    { state with rows := Function.update state.rows key (some query.2) }
  else state

def saveRole (state : State κ α) (key : κ) (isSaveClear : Bool) (outcome : Outcome) : State κ α :=
  match state.getSaveQuery key isSaveClear with
  | (none, state) => state
  | (some query, state) => state.save key query outcome

def saveTimerCb (state : State κ α) (key : κ) (entry : Entry α) (outcome : Outcome) : State κ α :=
  let state := state.put key { entry with saveTimer := false }
  if state.isUuidOnline key then state
  else state.saveRole key false outcome

end State

/-- One stretch of execution. -/
def step (newObj : κ → α) (state : State κ α) : Op κ α → Option (State κ α)
  | .load key notAutoCreate outcome =>
      if state.loadLock key = none ∧ state.dbDict key = none then
        let found := if outcome = .done then some (state.rows key) else none
        some { state with
          loadLock := Function.update state.loadLock key (some ⟨notAutoCreate, found⟩) }
      else none
  | .loaded key => (state.loadLock key).map fun load => state.loaded newObj key load
  | .create key => some (state.create newObj key)
  | .set key value => some (state.set key value)
  | .change key value =>
      (state.dbDict key).map fun entry => (state.put key { entry with value }).make key value
  | .changeDropped key value =>
      if (state.latest key).isSome then some (state.make key value) else none
  | .timer key outcome =>
      match state.dbDict key with
      | some entry => if entry.saveTimer then some (state.saveTimerCb key entry outcome) else none
      | none => none
  | .saveRole key isSaveClear outcome => some (state.saveRole key isSaveClear outcome)

end UEServer.RoleDb
