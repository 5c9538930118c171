import UEServer.Library.Execution
import UEServer.Library.Table

/-!
# Parties

`party_utils.lua`: parties are created and joined, and end by a timer or by a role.  Their records are
cached by a write-behind manager, which inserts and saves them later; the number of the next party is
saved now and then.  When the server starts, the records that are stored become parties again.
-/

namespace UEServer.Party

/-- The constants of a kind of party, in `PartyData`. -/
structure Config where
  /-- `time`, in seconds. -/
  time : ℕ
  guestsMaxNum : ℕ

inductive EndType where
  | normal
  | hostEnd
  | enemyEnd
  deriving DecidableEq

/-- `party_info`, of the kinds and guests that there are. -/
structure PartyInfo (ι γ : Type*) where
  partyId : ℕ
  partyTypeId : ι
  startTime : ℕ
  endType : Option EndType
  endTime : Option ℕ
  guestsList : List γ

/-- A `PartyCls` of `party_cls_dict`. -/
structure PartyCls (ι γ : Type*) where
  partyInfo : PartyInfo ι γ
  timer : Option ℕ

/-- A `PartyCls` that has been replaced in `party_cls_dict`, and whose timer still runs. -/
structure Replaced (ι γ : Type*) where
  /-- Its record, if that is not the record of the `PartyCls` that replaced it. -/
  partyInfo : Option (PartyInfo ι γ)
  timer : ℕ

/-- An object in `_db_lru`. -/
inductive Cached (ι γ : Type*) where
  /-- The record of the `PartyCls` in `party_cls_dict`. -/
  | live
  | apart (partyInfo : PartyInfo ι γ)

/-- An entry of `_save_lru`. -/
inductive Op where
  | insert
  | save
  deriving DecidableEq

/-- The party service and its tables in the database. -/
structure State (ι γ : Type*) where
  /-- `date.time_second()`. -/
  now : ℕ
  up : Bool
  partyId : ℕ
  /-- `party_id` of the server in the database. -/
  savedPartyId : ℕ
  partyClsDict : Table ℕ (PartyCls ι γ)
  /-- The objects in `_db_lru`. -/
  dbLru : ℕ → Option (Cached ι γ)
  saveLru : ℕ → Option Op
  replaced : Table ℕ (Replaced ι γ)
  /-- The parties whose `_mgr:get` waits for the database. -/
  creating : List (PartyInfo ι γ)
  rows : Table ℕ (PartyInfo ι γ)
  /-- Every party that has been created, with its kind and the time of its start. -/
  created : List (ℕ × ι × ℕ)
  ends : List (ℕ × ℕ)

namespace State

variable {ι γ : Type*}

def set (state : State ι γ) (id : ℕ) (cached : Cached ι γ) : State ι γ :=
  { state with
    dbLru := Function.update state.dbLru id (some cached)
    saveLru :=
      match state.saveLru id with
      | none => Function.update state.saveLru id (some .save)
      | some _ => state.saveLru }

def ended (partyInfo : PartyInfo ι γ) (endType : EndType) (now : ℕ) : PartyInfo ι γ :=
  { partyInfo with endType := some endType, endTime := some now }

/-- `PartyCls:party_end`, of the party in `party_cls_dict`. -/
def partyEnd (state : State ι γ) (id : ℕ) (endType : EndType) : State ι γ :=
  match state.partyClsDict.get id with
  | none => state
  | some cls =>
      if cls.partyInfo.endType.isSome then state
      else
        { state with
          partyClsDict := state.partyClsDict.set id
            (some { cls with partyInfo := ended cls.partyInfo endType state.now })
          ends := state.ends ++ [(cls.partyInfo.partyId, state.now)] }.set id .live

def partyStart (config : ι → Config) (state : State ι γ) (partyInfo : PartyInfo ι γ) :
    State ι γ :=
  let elapsed := state.now - partyInfo.startTime
  let time := (config partyInfo.partyTypeId).time
  if elapsed < time then
    { state with
      partyClsDict := state.partyClsDict.set partyInfo.partyId
        (some ⟨partyInfo, some (state.now + (time - elapsed))⟩) }
  else state.partyEnd partyInfo.partyId .normal

def newPartyCls (config : ι → Config) (state : State ι γ) (partyInfo : PartyInfo ι γ) :
    State ι γ :=
  partyStart config
    ({ state with
      partyClsDict := state.partyClsDict.set partyInfo.partyId (some ⟨partyInfo, none⟩) }.set
        partyInfo.partyId .live)
    partyInfo

/-- The timer of a party that is replaced.  `shared` says that the new party takes over its record. -/
def replace (state : State ι γ) (id : ℕ) (shared : Bool) : State ι γ :=
  match state.partyClsDict.get id with
  | some ⟨partyInfo, some timer⟩ =>
      { state with
        replaced := state.replaced.set id
          (some ⟨if shared then none else some partyInfo, timer⟩) }
  | _ => state

/-- The end of `party_utils.add_party`. -/
def added (config : ι → Config) (state : State ι γ) (partyInfo : PartyInfo ι γ) : State ι γ :=
  newPartyCls config
    { state with
      created := state.created ++
        [(partyInfo.partyId, partyInfo.partyTypeId, partyInfo.startTime)] }
    partyInfo

/-- `party_utils.add_party`, up to its end, or until `_mgr:get` waits for the database. -/
def addParty (config : ι → Config) (state : State ι γ) (partyTypeId : ι) : State ι γ :=
  let partyInfo : PartyInfo ι γ := ⟨state.partyId, partyTypeId, state.now, none, none, []⟩
  let counted := { state with partyId := state.partyId + 1 }
  match state.dbLru partyInfo.partyId with
  | some .live => (counted.replace partyInfo.partyId true).added config partyInfo
  | some (.apart _) => (counted.replace partyInfo.partyId false).added config partyInfo
  | none => { counted with creating := state.creating ++ [partyInfo] }

/-- `_mgr:get` returns a record that it has loaded, or a new one. -/
def loaded (config : ι → Config) (state : State ι γ) (partyInfo : PartyInfo ι γ) : State ι γ :=
  let id := partyInfo.partyId
  added config
    ({ state with
      saveLru :=
        if (state.rows.get id).isNone then Function.update state.saveLru id (some .insert)
        else state.saveLru }.replace id false)
    partyInfo

/-- The party has become full, and its timer is replaced. -/
def shortens (cd : ℕ) (config : Config) (now : ℕ) (partyInfo : PartyInfo ι γ) : Bool :=
  config.guestsMaxNum ≤ partyInfo.guestsList.length + 1 ∧ cd < now - partyInfo.startTime

def addGuests (config : ι → Config) (cd : ℕ) (state : State ι γ) (id : ℕ) (guestsInfo : γ) :
    State ι γ :=
  match state.partyClsDict.get id with
  | none => state
  | some ⟨partyInfo, timer⟩ =>
      if partyInfo.endType.isSome then state
      else if (config partyInfo.partyTypeId).guestsMaxNum ≤ partyInfo.guestsList.length then state
      else
        { state with
          partyClsDict := state.partyClsDict.set id (some
            ⟨{ partyInfo with guestsList := partyInfo.guestsList ++ [guestsInfo] },
              if shortens cd (config partyInfo.partyTypeId) state.now partyInfo then
                some (state.now + cd)
              else timer⟩) }.set id .live

/-- `PartyCls:games_score`: the entry of a guest changes. -/
def gamesScore (state : State ι γ) (id guest : ℕ) (guestsInfo : γ) : State ι γ :=
  match state.partyClsDict.get id with
  | none => state
  | some ⟨partyInfo, timer⟩ =>
      { state with
        partyClsDict := state.partyClsDict.set id
          (some ⟨{ partyInfo with guestsList := partyInfo.guestsList.set guest guestsInfo },
            timer⟩) }.set id .live

def cachedInfo (state : State ι γ) (id : ℕ) : Option (PartyInfo ι γ) :=
  match state.dbLru id with
  | none => none
  | some .live => (state.partyClsDict.get id).map PartyCls.partyInfo
  | some (.apart partyInfo) => some partyInfo

def checkSave (state : State ι γ) (id : ℕ) (value : Option (PartyInfo ι γ)) : State ι γ :=
  match state.saveLru id with
  | none => state
  | some op =>
      { state with
        saveLru := Function.update state.saveLru id none
        rows :=
          match op, value with
          | _, none => state.rows
          | .insert, some partyInfo =>
              if (state.rows.get id).isNone then state.rows.set id (some partyInfo)
              else state.rows
          | .save, some partyInfo =>
              if (state.rows.get id).isNone then state.rows else state.rows.set id (some partyInfo) }

/-- A record is dropped from the cache, and written. -/
def evict (state : State ι γ) (id : ℕ) : State ι γ :=
  { state with dbLru := Function.update state.dbLru id none }.checkSave id (state.cachedInfo id)

def onTimer (state : State ι γ) (id : ℕ) (cls : PartyCls ι γ) : State ι γ :=
  { state with
    partyClsDict := state.partyClsDict.set id (some { cls with timer := none }) }.partyEnd id .normal

/-- The timer of a replaced party is due. -/
def onReplacedTimer (state : State ι γ) (id : ℕ) (replaced : Replaced ι γ) : State ι γ :=
  let fired := { state with replaced := state.replaced.set id none }
  match replaced.partyInfo with
  | none => fired.partyEnd id .normal
  | some partyInfo =>
      if partyInfo.endType.isSome then fired
      else
        { fired with ends := state.ends ++ [(partyInfo.partyId, state.now)] }.set id
          (.apart (ended partyInfo .normal state.now))

/-- The rows over which `ipairs` goes. -/
def consecutive (rows : Table ℕ (PartyInfo ι γ)) : List ℕ :=
  (List.range' 1 rows.size).takeWhile fun id => (rows.get id).isSome

def start (config : ι → Config) (state : State ι γ) : State ι γ :=
  ((consecutive state.rows).filterMap state.rows.get).foldl (newPartyCls config)
    { state with
      up := true
      partyId := state.savedPartyId
      dbLru := fun id => (state.rows.get id).map Cached.apart }

/-- The process stops, by a shutdown or a crash. -/
def stop (state : State ι γ) : State ι γ :=
  { state with
    up := false
    partyClsDict := Table.empty
    dbLru := fun _ => none
    saveLru := fun _ => none
    replaced := Table.empty
    creating := [] }

def Quiet (state : State ι γ) : Prop :=
  (∀ id ∈ state.partyClsDict.keys, ∀ cls ∈ state.partyClsDict.get id, ∀ due ∈ cls.timer,
    state.now < due) ∧
  ∀ id ∈ state.replaced.keys, ∀ replaced ∈ state.replaced.get id, state.now < replaced.timer

instance (state : State ι γ) : Decidable state.Quiet :=
  inferInstanceAs (Decidable (
    (∀ id ∈ state.partyClsDict.keys, ∀ cls ∈ state.partyClsDict.get id, ∀ due ∈ cls.timer,
      state.now < due) ∧
    ∀ id ∈ state.replaced.keys, ∀ replaced ∈ state.replaced.get id, state.now < replaced.timer))

end State

inductive Label (ι γ : Type*) where
  | start
  | stop
  | addParty (partyTypeId : ι)
  /-- The database answers to the `_mgr:get` of a new party. -/
  | loaded (position : ℕ)
  | addGuests (id : ℕ) (guestsInfo : γ)
  | partyEnd (id : ℕ) (endType : EndType)
  | receiveIntegral (id : ℕ)
  | gamesScore (id guest : ℕ) (guestsInfo : γ)
  | timer (id : ℕ)
  | replacedTimer (id : ℕ)
  | save (id : ℕ)
  | evict (id : ℕ)
  | saveParty
  | tick

/-- What happens to the service, if it is possible.  Timers are run when they are due. -/
def step {ι γ : Type*} (config : ι → Config) (cd : ℕ) (state : State ι γ) :
    Label ι γ → Option (State ι γ)
  | .start => if state.up then none else some (state.start config)
  | .stop => if state.up then some state.stop else none
  | .addParty partyTypeId => if state.up then some (state.addParty config partyTypeId) else none
  | .loaded position =>
      (state.creating[position]?).map fun partyInfo =>
        { state with creating := state.creating.eraseIdx position }.loaded config partyInfo
  | .addGuests id guestsInfo => some (state.addGuests config cd id guestsInfo)
  | .partyEnd id endType => some (state.partyEnd id endType)
  | .receiveIntegral _ => some state
  | .gamesScore id guest guestsInfo => some (state.gamesScore id guest guestsInfo)
  | .timer id =>
      match state.partyClsDict.get id with
      | none => none
      | some cls =>
          if cls.timer.any fun due => due ≤ state.now then some (state.onTimer id cls) else none
  | .replacedTimer id =>
      match state.replaced.get id with
      | none => none
      | some replaced =>
          if replaced.timer ≤ state.now then some (state.onReplacedTimer id replaced) else none
  | .save id => some (state.checkSave id (state.cachedInfo id))
  | .evict id => if (state.dbLru id).isSome then some (state.evict id) else none
  | .saveParty => if state.up then some { state with savedPartyId := state.partyId } else none
  | .tick => if state.Quiet then some { state with now := state.now + 1 } else none

/-- Before the server starts for the first time. -/
def initial (ι γ : Type*) (now : ℕ) : State ι γ where
  now := now
  up := false
  partyId := 1
  savedPartyId := 1
  partyClsDict := Table.empty
  dbLru _ := none
  saveLru _ := none
  replaced := Table.empty
  creating := []
  rows := Table.empty
  created := []
  ends := []

end UEServer.Party
