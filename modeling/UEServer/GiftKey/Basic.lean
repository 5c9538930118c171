import UEServer.Library.Execution

/-!
# Gift keys

`use_gift_key` of `service/agent/gift_key_utils.lua`, and `use_gift_key` and `save` of
`service/world/gift_key.lua`.  A redemption is interrupted where it calls the world, sleeps on the
lock of its key, and waits for the row of its key.  A statement is executed some time after it was
sent; those on one connection are executed in order.  Keys are in lower case.
-/

namespace UEServer.GiftKey

variable {κ β ρ : Type} [DecidableEq κ]

/-- A value of `batch_dict`. -/
structure Batch where
  totalUseCount : Nat
  startTs : Nat
  endTs : Nat

structure Config (κ β : Type) where
  /-- `string.sub(key, 1, 3)`. -/
  batchKey : κ → β
  batchDict : β → Option Batch
  /-- The connection for statements about a key. -/
  connOf : κ → Nat

/-- `total_use_count` of the batch of a key. -/
def Config.total (config : Config κ β) (key : κ) : Nat :=
  match config.batchDict (config.batchKey key) with
  | none => 0
  | some batch => batch.totalUseCount

inductive Phase where
  /-- `lc_use_gift_key` is on its way to the world. -/
  | sent
  | waiting
  | loading
  /-- The `use_count` of the row is on its way. -/
  | loaded (useCount : Option Nat)
  | replied (ok : Bool)
  | finished (ok : Bool)
  deriving DecidableEq

/-- A call of `use_gift_key` by a role. -/
structure Redemption (κ ρ : Type) where
  role : ρ
  key : κ
  phase : Phase

inductive Statement (κ : Type) where
  /-- `GiftKey:load`, of the key of a redemption. -/
  | load (id : Nat)
  /-- What `save` sends: an update of one row, or an insertion that updates rows. -/
  | save (entries : List (κ × Nat)) (insert : Bool)

structure Success (κ ρ : Type) where
  id : Nat
  role : ρ
  key : κ

/-- The roles, the world and the database. -/
structure State (κ ρ : Type) where
  /-- `yw_gift_key` of the roles. -/
  ywGiftKey : ρ → List κ
  redemptions : Nat → Option (Redemption κ ρ)
  /-- `cache`; `cache_count` is its length. -/
  cache : List (κ × Nat)
  lockDict : κ → Bool
  /-- `use_count` of the rows. -/
  rows : κ → Option Nat
  /-- The statements that have been sent, over which connections, and not executed. -/
  pending : List (Nat × Statement κ)
  used : List (Nat × κ)
  succeeded : List (Success κ ρ)

inductive Label (κ ρ : Type) where
  /-- A role calls `use_gift_key`, up to the call of the world. -/
  | redeem (id : Nat) (role : ρ) (key : κ)
  | arrive (id now : Nat)
  | poll (id : Nat)
  | loadReturn (id : Nat)
  | loadError (id : Nat)
  /-- `save`, with the connection that is chosen if there are several rows. -/
  | save (conn : Nat)
  | execute (index : Nat)
  | reply (id : Nat)

/-- The use count that a statement writes for a key. -/
def Statement.writes (statement : Statement κ) (key : κ) : Option Nat :=
  match statement with
  | .load _ => none
  | .save entries _ => entries.lookup key

def Statement.row (statement : Statement κ) (key : κ) (row : Option Nat) : Option Nat :=
  match statement with
  | .load _ => row
  | .save entries insert =>
      match entries.lookup key with
      | none => row
      | some useCount => if insert || row.isSome then some useCount else none

namespace State

def put (state : State κ ρ) (id : Nat) (redemption : Redemption κ ρ) : State κ ρ :=
  { state with redemptions := Function.update state.redemptions id (some redemption) }

/-- The world answers, and the key is not locked any more. -/
def answer (state : State κ ρ) (id : Nat) (redemption : Redemption κ ρ) (ok : Bool) :
    State κ ρ :=
  { state.put id { redemption with phase := .replied ok } with
    lockDict := Function.update state.lockDict redemption.key false }

/-- The key is in `cache`, with a use count. -/
def setUseCount (state : State κ ρ) (key : κ) (useCount : Nat) : State κ ρ :=
  { state with cache := (key, useCount) :: state.cache.filter fun entry => entry.1 ≠ key }

def count (state : State κ ρ) (id : Nat) (key : κ) : State κ ρ :=
  { state with used := state.used ++ [(id, key)] }

/-- `use_gift_key` of the world from the `use_count` on. -/
def useKey (config : Config κ β) (state : State κ ρ) (id : Nat) (redemption : Redemption κ ρ)
    (useCount : Option Nat) : State κ ρ :=
  match useCount with
  | none => state.answer id redemption false
  | some useCount =>
      if config.total redemption.key ≤ useCount then state.answer id redemption false
      else
        ((state.setUseCount redemption.key (useCount + 1)).count id redemption.key).answer id
          redemption true

/-- `use_gift_key` of the world from the lock on. -/
def lock (config : Config κ β) (state : State κ ρ) (id : Nat) (redemption : Redemption κ ρ) :
    State κ ρ :=
  if state.lockDict redemption.key then state.put id { redemption with phase := .waiting }
  else
    match state.cache.lookup redemption.key with
    | some useCount => state.useKey config id redemption (some useCount)
    | none =>
        { state.put id { redemption with phase := .loading } with
          lockDict := Function.update state.lockDict redemption.key true
          pending := state.pending ++ [(config.connOf redemption.key, .load id)] }

/-- `use_gift_key` of the world. -/
def arrive (config : Config κ β) (state : State κ ρ) (id now : Nat)
    (redemption : Redemption κ ρ) : State κ ρ :=
  match config.batchDict (config.batchKey redemption.key) with
  | none => state.put id { redemption with phase := .replied false }
  | some batch =>
      if batch.endTs < now then state.put id { redemption with phase := .replied false }
      else if now < batch.startTs then state.put id { redemption with phase := .replied false }
      else state.lock config id redemption

/-- The statement that `save` sends, with its connection. -/
def saveStatement (config : Config κ β) (cache : List (κ × Nat)) (conn : Nat) :
    List (Nat × Statement κ) :=
  match cache with
  | [] => []
  | [(key, useCount)] => [(config.connOf key, .save [(key, useCount)] false)]
  | entries => [(conn, .save entries true)]

def save (config : Config κ β) (state : State κ ρ) (conn : Nat) : State κ ρ :=
  { state with
    cache := []
    pending := state.pending ++ saveStatement config state.cache conn }

/-- A statement is executed: a row is on its way to its redemption, or rows are written. -/
def execute (state : State κ ρ) (index : Nat) (statement : Statement κ) : State κ ρ :=
  let sent := { state with pending := state.pending.eraseIdx index }
  match statement with
  | .load id =>
      match state.redemptions id with
      | none => sent
      | some redemption =>
          if redemption.phase = .loading then
            sent.put id { redemption with phase := .loaded (state.rows redemption.key) }
          else sent
  | .save entries insert =>
      { sent with rows := fun key => Statement.row (.save entries insert) key (state.rows key) }

/-- The end of `use_gift_key` of the role. -/
def finish [DecidableEq ρ] (state : State κ ρ) (id : Nat) (redemption : Redemption κ ρ) (ok : Bool) :
    State κ ρ :=
  let finished := state.put id { redemption with phase := .finished ok }
  if ok then
    { finished with
      ywGiftKey := Function.update state.ywGiftKey redemption.role
        (state.ywGiftKey redemption.role ++ [redemption.key])
      succeeded := { id, role := redemption.role, key := redemption.key } :: state.succeeded }
  else finished

end State

/-- The state after a stretch of execution, if it is possible. -/
def step [DecidableEq β] [DecidableEq ρ] (config : Config κ β) (state : State κ ρ) :
    Label κ ρ → Option (State κ ρ)
  | .redeem id role key =>
      match state.redemptions id with
      | some _ => none
      | none =>
          let used := (state.ywGiftKey role).any fun other =>
            config.batchKey other = config.batchKey key
          some (state.put id { role, key, phase := if used then .finished false else .sent })
  | .arrive id now =>
      match state.redemptions id with
      | none => none
      | some redemption =>
          if redemption.phase = .sent then some (state.arrive config id now redemption) else none
  | .poll id =>
      match state.redemptions id with
      | none => none
      | some redemption =>
          if redemption.phase = .waiting then some (state.lock config id redemption) else none
  | .loadReturn id =>
      match state.redemptions id with
      | none => none
      | some redemption =>
          match redemption.phase with
          | .loaded useCount => some (state.useKey config id redemption useCount)
          | _ => none
  | .loadError id =>
      match state.redemptions id with
      | none => none
      | some redemption =>
          if redemption.phase = .loading then some (state.answer id redemption false) else none
  | .save conn => some (state.save config conn)
  | .execute index =>
      match state.pending[index]? with
      | none => none
      | some (conn, statement) =>
          if (state.pending.take index).any fun earlier => earlier.1 = conn then none
          else some (state.execute index statement)
  | .reply id =>
      match state.redemptions id with
      | none => none
      | some redemption =>
          match redemption.phase with
          | .replied ok => some (state.finish id redemption ok)
          | _ => none

def initial (keys : κ → Bool) : State κ ρ where
  ywGiftKey _ := []
  redemptions _ := none
  cache := []
  lockDict _ := false
  rows key := if keys key then some 0 else none
  pending := []
  used := []
  succeeded := []

/-- No key is used too often, and no role twice uses a batch. -/
structure Limited (config : Config κ β) (state : State κ ρ) : Prop where
  /-- The redemptions of a key that succeed are not more than the batch allows. -/
  uses : ∀ key, state.succeeded.countP (fun success => success.key = key) ≤ config.total key
  once : state.succeeded.Pairwise fun first second => first.role = second.role →
    config.batchKey first.key ≠ config.batchKey second.key

/-- A role has no other redemption of a batch under way, and no statement about a key is executed
before a save of the key that was sent before. -/
def InTurn (config : Config κ β) (state : State κ ρ) : Label κ ρ → Prop
  | .redeem _ role key =>
      ∀ other redemption, state.redemptions other = some redemption → redemption.role = role →
        config.batchKey redemption.key = config.batchKey key →
        ∃ ok, redemption.phase = .finished ok
  | .execute index =>
      ∀ conn statement, state.pending[index]? = some (conn, statement) →
        match statement with
        | .load id =>
            ∀ redemption, state.redemptions id = some redemption → redemption.phase = .loading →
              ∀ other ∈ state.pending, other.2.writes redemption.key = none
        | .save entries _ =>
            ∀ earlier ∈ state.pending.take index, ∀ entry ∈ entries,
              earlier.2.writes entry.1 = none
  | _ => True

end UEServer.GiftKey
