import UEServer.Library.Execution

/-!
# Transactions of the mysql client

`query`, `do_transaction` and `_trans_wait` of `db/mysql_db.lua` on one client.  A coroutine runs
until it waits for the reply to a statement or in `_trans_wait`, and `skynet.wakeup` only queues a
coroutine.  Any coroutine that can go on may go on next.
-/

namespace UEServer.MysqlDb

variable {τ : Type*} [DecidableEq τ]

inductive Op where
  /-- It runs code outside the client: its own, or the function of a transaction. -/
  | running
  /-- It is in the `_trans_wait` of `query`. -/
  | queryWait
  /-- It is in the `_trans_wait` of `do_transaction`. -/
  | transWait
  | querySent
  /-- It waits for the reply to `begin`. -/
  | beginSent
  /-- It waits for the reply to `commit` or `rollback`. -/
  | endSent
  deriving DecidableEq

/-- A coroutine, with the number of transaction functions it is inside. -/
structure Coroutine where
  op : Op := .running
  depth : Nat := 0

/-- The coroutine is suspended in `_trans_wait`. -/
def Op.isWait : Op → Bool
  | .queryWait | .transWait => true
  | _ => false

inductive Event where
  | begin
  | commit
  | rollback
  | query
  /-- The reply to `commit` or `rollback` arrives. -/
  | ended
  deriving DecidableEq

structure State (τ : Type*) where
  transCo : Option τ
  transWaitingList : List τ
  /-- Coroutines queued by `skynet.wakeup`. -/
  wakeupQueue : List τ
  coroutine : τ → Coroutine
  /-- What happened on the connection, and by whom. -/
  log : List (τ × Event)

/-- One uninterrupted stretch of execution. -/
inductive Label (τ : Type*) where
  | query (co : τ)
  | doTransaction (co : τ)
  | resume (co : τ)
  | reply (co : τ)
  /-- The function of the innermost transaction returns (`true`) or raises. -/
  | finish (co : τ) (ok : Bool)

namespace State

def setOp (state : State τ) (co : τ) (op : Op) : State τ :=
  { state with
    coroutine := Function.update state.coroutine co { state.coroutine co with op := op } }

def record (state : State τ) (co : τ) (event : Event) : State τ :=
  { state with log := state.log ++ [(co, event)] }

/-- `_trans_wait`, up to the `skynet.wait`. -/
def transWait (state : State τ) (co : τ) (op : Op) : State τ :=
  { state.setOp co op with transWaitingList := state.transWaitingList ++ [co] }

/-- `skynet.wakeup`: queue a coroutine that is suspended. -/
def wakeup (state : State τ) (co : τ) : State τ :=
  if (state.coroutine co).op.isWait then
    { state with wakeupQueue := state.wakeupQueue ++ [co] }
  else
    state

/-- Wake the first coroutine of the waiting list. -/
def wakeFirst (state : State τ) : State τ :=
  match state.transWaitingList with
  | [] => state
  | first :: rest => wakeup { state with transWaitingList := rest } first

/-- `self._client:query(query)` in `query`. -/
def sendQuery (state : State τ) (co : τ) : State τ :=
  (state.setOp co .querySent).record co .query

/-- `do_transaction` from the loop on: wait, fail the assertion, or send `begin`.  A failed
assertion raises in the caller and leaves the client as it is. -/
def enterTransaction (state : State τ) (co : τ) : State τ :=
  match state.transCo with
  | some owner => if owner = co then state.setOp co .running else state.transWait co .transWait
  | none => { (state.setOp co .beginSent).record co .begin with transCo := some co }

end State

/-- One stretch of execution, if the coroutine it names can go on. -/
def step (state : State τ) : Label τ → Option (State τ)
  | .query co =>
      if (state.coroutine co).op = .running then
        match state.transCo with
        | some owner =>
            if owner = co then some (state.sendQuery co) else some (state.transWait co .queryWait)
        | none => some (state.sendQuery co)
      else none
  | .doTransaction co =>
      if (state.coroutine co).op = .running then some (state.enterTransaction co) else none
  | .resume co =>
      if co ∈ state.wakeupQueue then
        let woken := { state with wakeupQueue := state.wakeupQueue.erase co }
        match (state.coroutine co).op with
        | .queryWait => some ((woken.setOp co .running).wakeFirst.sendQuery co)
        | .transWait => some (woken.enterTransaction co)
        | _ => some woken
      else none
  | .reply co =>
      match (state.coroutine co).op with
      | .querySent => some (state.setOp co .running)
      | .beginSent =>
          some { state with
            coroutine := Function.update state.coroutine co
              { op := .running, depth := (state.coroutine co).depth + 1 } }
      | .endSent =>
          some
            ({ (state.setOp co .running).record co .ended with transCo := none }).wakeFirst
      | _ => none
  | .finish co ok =>
      if (state.coroutine co).op = .running ∧ (state.coroutine co).depth ≠ 0 then
        some
          (State.record
            { state with
              coroutine := Function.update state.coroutine co
                { op := .endSent, depth := (state.coroutine co).depth - 1 } }
            co (if ok then .commit else .rollback))
      else none

def initial : State τ where
  transCo := none
  transWaitingList := []
  wakeupQueue := []
  coroutine _ := {}
  log := []

/-- The coroutine whose transaction is open after an event. -/
def openNext (opened : Option τ) : τ × Event → Option τ
  | (co, .begin) => some co
  | (_, .ended) => none
  | _ => opened

/-- While a transaction is open, from its `begin` to the reply to its `commit` or `rollback`, every
event belongs to its coroutine and no second `begin` is sent. -/
def Isolated : Option τ → List (τ × Event) → Prop
  | _, [] => True
  | opened, event :: events =>
      (∀ owner, opened = some owner → event.1 = owner ∧ event.2 ≠ .begin) ∧
        Isolated (openNext opened event) events

/-- No transaction is open and somebody waits only if a coroutine that was taken from the waiting
list has a wake queued. -/
def NoLostWaiter (state : State τ) : Prop :=
  state.transCo = none → state.transWaitingList ≠ [] →
    ∃ co ∈ state.wakeupQueue,
      co ∉ state.transWaitingList ∧ (state.coroutine co).op.isWait = true

/-- A woken query goes on only when no transaction is open. -/
def ResumesOutside (state : State τ) : Label τ → Prop
  | .resume co => (state.coroutine co).op = .queryWait → state.transCo = none
  | _ => True

instance (state : State τ) : (label : Label τ) → Decidable (ResumesOutside state label)
  | .resume co => inferInstanceAs
      (Decidable ((state.coroutine co).op = .queryWait → state.transCo = none))
  | .query _ | .doTransaction _ | .reply _ | .finish _ _ => isTrue trivial

end UEServer.MysqlDb
