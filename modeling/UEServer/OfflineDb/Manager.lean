import Mathlib.Data.Fintype.Basic
import UEServer.Library.Execution
import UEServer.Library.Lru

/-!
# The write-behind object manager

`OfflineObjMgr` of `lualib/db/offline_db.lua`.  Objects are cached, and what has changed is marked
and written later.  Each database call is a wait, during which other operations run.  The database
acts in the order of the calls, so a call counts from when it is made; its caller goes on later.
-/

namespace UEServer.OfflineDb

/-- An object: its columns, and the columns that were set to nothing. -/
structure Obj (χ γ : Type) where
  con : χ → Option γ
  del : χ → Bool

/-- A row gives a value, or nothing, for each column. -/
abbrev Row (χ γ : Type) := χ → Option γ

namespace Obj

variable {χ γ : Type}

/-- The row that `insert` makes. -/
def row (obj : Obj χ γ) : Row χ γ := obj.con

/-- The row that `save` makes of a row: columns that the object does not have are kept. -/
def save (obj : Obj χ γ) (before : Row χ γ) : Row χ γ := fun column =>
  match obj.con column with
  | some value => some value
  | none => if obj.del column then none else before column

/-- The object that `load` makes of a row. -/
def ofRow (row : Row χ γ) : Obj χ γ := ⟨row, fun _ => false⟩

/-- The object has a value, or has been set to nothing, at every column of the row. -/
def Covers (obj : Obj χ γ) (before : Row χ γ) : Prop :=
  ∀ column, (before column).isSome → (obj.con column).isSome ∨ obj.del column = true

instance [Fintype χ] (obj : Obj χ γ) (before : Row χ γ) : Decidable (obj.Covers before) :=
  inferInstanceAs (Decidable (∀ column, (before column).isSome →
    (obj.con column).isSome ∨ obj.del column = true))

theorem save_eq_row {obj : Obj χ γ} {before : Row χ γ} (covers : obj.Covers before) :
    obj.save before = obj.row := by
  funext column
  unfold save row
  cases value : obj.con column with
  | some _ => rfl
  | none =>
      cases old : before column with
      | none => simp
      | some _ =>
          have covered := covers column (by simp [old])
          simp [value] at covered
          simp [covered]

end Obj

inductive Op where
  | insert
  | save
  | delete
  deriving DecidableEq

variable {κ χ γ : Type} [DecidableEq κ]

structure Mgr (κ χ γ : Type) where
  dbLru : Lru κ (Obj χ γ)
  saveLru : Lru κ Op
  maxSize : Option Nat
  duration : Option Nat

def saveDelay : Nat := 300

namespace Mgr

def set (mgr : Mgr κ χ γ) (key : κ) (value : Obj χ γ) (time : Nat) : Mgr κ χ γ :=
  { mgr with
    dbLru := mgr.dbLru.put key value time
    saveLru :=
      match mgr.saveLru.get key with
      | none => mgr.saveLru.put key .save time
      | some _ => mgr.saveLru }

def delete (mgr : Mgr κ χ γ) (key : κ) (time : Nat) : Mgr κ χ γ :=
  { mgr with
    dbLru := mgr.dbLru.erase key
    saveLru :=
      match mgr.saveLru.get key with
      | some .insert => mgr.saveLru.erase key
      | _ => mgr.saveLru.put key .delete time }

/-- What `_load` returns: what was loaded, or a new object. -/
def loadedObj (newObj : κ → Obj χ γ) (key : κ) : Option (Row χ γ) → Obj χ γ
  | none => newObj key
  | some row => Obj.ofRow row

/-- The end of `_load`: what was loaded, or a new object, is cached. -/
def loaded (mgr : Mgr κ χ γ) (newObj : κ → Obj χ γ) (key : κ) (row : Option (Row χ γ))
    (time : Nat) : Mgr κ χ γ :=
  { mgr with
    dbLru := mgr.dbLru.put key (loadedObj newObj key row) time
    saveLru := if row.isNone then mgr.saveLru.put key .insert time else mgr.saveLru }

end Mgr

/-- What the database does with a row when a value is written under a mark. -/
def write (op : Op) (value : Option (Obj χ γ)) (row : Option (Row χ γ)) : Option (Row χ γ) :=
  match op, value with
  | .delete, _ => none
  | .insert, some obj => row.orElse fun _ => some obj.row
  | .save, some obj => row.map obj.save
  | _, none => row

/-- The loop of a `save_once` that is running. -/
inductive Phase where
  | overflow
  /-- Objects have not been assigned for `_duration`. -/
  | expired
  | delayed
  deriving DecidableEq

/-- A manager, its rows and the operations that wait. -/
structure State (κ χ γ : Type) where
  mgr : Mgr κ χ γ
  rows : κ → Option (Row χ γ)
  /-- `_load_lock`, with the row that the load under way has found. -/
  loadLock : κ → Option (Option (Row χ γ))
  /-- The keys of the `get` that sleep. -/
  sleeping : List κ
  /-- How many `save_all` are running. -/
  saveAlls : Nat
  /-- The `save_once` that are running. -/
  saveOnces : List Phase
  /-- `skynet.time()`. -/
  time : Nat
  /-- The value that was last set, or obtained by `get`, or nothing if it was deleted since. -/
  last : κ → Option (Option (Row χ γ))
  /-- What each `get` returned, with the last value before. -/
  returned : List (κ × Row χ γ × Option (Option (Row χ γ)))

/-- One stretch of execution, from one wait or iteration to the next. -/
inductive Label (κ χ γ : Type) where
  | get (key : κ)
  | retry (key : κ)
  | loaded (key : κ)
  | set (key : κ) (value : Obj χ γ)
  | delete (key : κ)
  | saveAll
  | saveAllNext
  | saveOnce
  | saveOnceNext (phase : Phase)
  | tick

namespace State

/-- A `get` returns. -/
def respond (state : State κ χ γ) (key : κ) (obj : Obj χ γ) : State κ χ γ :=
  { state with
    last := Function.update state.last key (some (some obj.row))
    returned := state.returned ++ [(key, obj.row, state.last key)] }

/-- `get`, up to its end or its first wait. -/
def get (state : State κ χ γ) (key : κ) : State κ χ γ :=
  match state.mgr.dbLru.get key with
  | some obj => state.respond key obj
  | none =>
      match state.loadLock key with
      | some _ => { state with sleeping := key :: state.sleeping }
      | none =>
          { state with loadLock := Function.update state.loadLock key (some (state.rows key)) }

def checkSave (state : State κ χ γ) (key : κ) (value : Option (Obj χ γ)) : State κ χ γ :=
  match state.mgr.saveLru.get key with
  | none => state
  | some op =>
      { state with
        mgr := { state.mgr with saveLru := state.mgr.saveLru.erase key }
        rows := Function.update state.rows key (write op value (state.rows key)) }

/-- An object is dropped from the cache and written. -/
def evict (state : State κ χ γ) (key : κ) (value : Obj χ γ) : State κ χ γ :=
  { state with mgr := { state.mgr with dbLru := state.mgr.dbLru.pop } }.checkSave key (some value)

/-- One iteration of `save_all`. -/
def saveAllNext (state : State κ χ γ) : State κ χ γ :=
  match state.mgr.saveLru.peek with
  | none => { state with saveAlls := state.saveAlls - 1 }
  | some (key, _, _) => state.checkSave key (state.mgr.dbLru.get key)

/-- One iteration of a loop of `save_once`. -/
def saveOnceNext (state : State κ χ γ) (phase : Phase) : State κ χ γ :=
  let rest := state.saveOnces.erase phase
  match phase with
  | .overflow =>
      match state.mgr.maxSize, state.mgr.dbLru.peek with
      | some maxSize, some (key, value, _) =>
          if maxSize < state.mgr.dbLru.size then state.evict key value
          else { state with saveOnces := .expired :: rest }
      | _, _ => { state with saveOnces := .expired :: rest }
  | .expired =>
      match state.mgr.duration, state.mgr.dbLru.peek with
      | some duration, some (key, value, time) =>
          if state.time < time + duration then { state with saveOnces := .delayed :: rest }
          else state.evict key value
      | _, _ => { state with saveOnces := .delayed :: rest }
  | .delayed =>
      match state.mgr.saveLru.peek with
      | none => { state with saveOnces := rest }
      | some (key, _, time) =>
          if state.time < time + saveDelay then { state with saveOnces := rest }
          else state.checkSave key (state.mgr.dbLru.get key)

end State

/-- One stretch of execution, if it is possible. -/
def step (newObj : κ → Obj χ γ) (state : State κ χ γ) : Label κ χ γ → Option (State κ χ γ)
  | .get key => some (state.get key)
  | .retry key =>
      if key ∈ state.sleeping then
        some ({ state with sleeping := state.sleeping.erase key }.get key)
      else none
  | .loaded key =>
      match state.loadLock key with
      | none => none
      | some row =>
          some
            ({ state with
              mgr := state.mgr.loaded newObj key row state.time
              loadLock := Function.update state.loadLock key none }.respond key
                (Mgr.loadedObj newObj key row))
  | .set key value =>
      some
        { state with
          mgr := state.mgr.set key value state.time
          last := Function.update state.last key (some (some value.row)) }
  | .delete key =>
      some
        { state with
          mgr := state.mgr.delete key state.time
          last := Function.update state.last key (some none) }
  | .saveAll => some { state with saveAlls := state.saveAlls + 1 }
  | .saveAllNext => if 0 < state.saveAlls then some state.saveAllNext else none
  | .saveOnce => some { state with saveOnces := .overflow :: state.saveOnces }
  | .saveOnceNext phase =>
      if phase ∈ state.saveOnces then some (state.saveOnceNext phase) else none
  | .tick => some { state with time := state.time + 1 }

/-- A new manager over the rows of its table. -/
def initial (maxSize duration : Option Nat) (rows : κ → Option (Row χ γ)) : State κ χ γ where
  mgr := { dbLru := Lru.empty, saveLru := Lru.empty, maxSize, duration }
  rows := rows
  loadLock _ := none
  sleeping := []
  saveAlls := 0
  saveOnces := []
  time := 0
  last _ := none
  returned := []

/-- No operation is pending and nothing is marked, as when a `save_all` has returned. -/
def Quiet (state : State κ χ γ) : Prop :=
  (∀ key, state.mgr.saveLru.get key = none) ∧ (∀ key, state.loadLock key = none) ∧
    state.sleeping = [] ∧ state.saveAlls = 0 ∧ state.saveOnces = []

/-- The cache is coherent with the rows. -/
structure Coherent (newObj : κ → Obj χ γ) (state : State κ χ γ) : Prop where
  settled : Quiet state → ∀ key value, state.last key = some value → state.rows key = value
  /-- A `get` returns the last value. -/
  value : ∀ key row before, (key, row, some (some before)) ∈ state.returned → row = before
  /-- After a deletion, a `get` returns a new object. -/
  deleted : ∀ key row, (key, row, some none) ∈ state.returned → row = (newObj key).row

/-- A `get` does not load while a deletion is marked; `set` and `delete` do not meet a load; and the
value that is set is to be inserted, or there is a row all of whose columns it has. -/
def Orderly (state : State κ χ γ) : Label κ χ γ → Prop
  | .get key | .retry key =>
      (state.mgr.dbLru.get key).isNone → (state.loadLock key).isNone →
        state.mgr.saveLru.get key ≠ some .delete
  | .set key value =>
      (state.loadLock key).isNone ∧
        match state.mgr.saveLru.get key, state.rows key with
        | some .insert, _ => True
        | some .delete, _ => False
        | _, some row => value.Covers row
        | _, none => False
  | .delete key => (state.loadLock key).isNone
  | _ => True

end UEServer.OfflineDb
