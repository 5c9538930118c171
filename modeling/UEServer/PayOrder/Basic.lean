import UEServer.Library.Execution

/-!
# Paid orders

`service/agent/pay_order.lua`, `service/world/pay_order.lua` and the handlers of
`lua_handles/gm.lua` that the world calls.  Transaction ids, order ids, item ids and uuids are given
by numbers.  A request is interrupted where it waits for the database, and may raise there.  The
database acts in the order of the calls.
-/

namespace UEServer.PayOrder

/-- What a callback to `/do_pay` of the agent says. -/
structure PayArgs where
  transactionId : Nat
  orderId : Nat
  /-- `itemId` of the first product. -/
  itemId : Nat
  /-- `unitPrice` of the first product. -/
  unitPrice : Nat
  /-- `quantity` of the first product. -/
  quantity : Nat
  uuid : Nat
  type : Nat
  status : Option Nat
  deriving DecidableEq

/-- A row of `PayOrder`. -/
structure Row where
  orderId : Nat
  itemId : Nat
  unitPrice : Nat
  quantity : Nat
  status : Option Nat
  deriving DecidableEq

/-- An order that a role created, in the table of its type. -/
structure ServerOrder where
  /-- `recharge_id`, `card_id`, `package_id` or `gift_id`. -/
  itemId : Nat
  status : Nat
  localPrice : Nat
  productNumber : Nat
  deriving DecidableEq

/-- What is paid for: a transaction of the agent's channel, or an order of the world's channels,
which name no transaction. -/
inductive Key where
  | transaction (transactionId : Nat)
  | order (type orderId : Nat)
  deriving DecidableEq

inductive Call where
  /-- `__on_do_pay` waits for the row of its transaction. -/
  | load (args : PayArgs) (row : Option Row)
  | check (args : PayArgs) (serverOrder : Option ServerOrder)
  | insert
  /-- `__on_do_pay` waits for the update of the row. -/
  | save (args : PayArgs) (row : Row)
  | query (type orderId uuid : Nat) (orderInfo : Option ServerOrder)
  /-- `imitate_giftpackage_recharge` waits for the update of the status. -/
  | update (orderId uuid : Nat) (orderInfo : ServerOrder)
  | deliver (key : Key) (next last : Nat)
  deriving DecidableEq

/-- The orders, the roles and the requests. -/
structure State where
  /-- Whether `RechargeData` has an id. -/
  rechargeData : Nat → Bool
  payOrders : Nat → Option Row
  orders : Nat → Nat → Option ServerOrder
  known : Nat → Bool
  /-- Whether the role is in `role_dict`. -/
  online : Nat → Bool
  calls : List Call
  /-- The orders that the world has asked the agent to deliver. -/
  asked : List (Nat × Nat)
  grants : List (Key × Nat)

/-- One uninterrupted stretch of execution. -/
inductive Label where
  /-- A callback to `/do_pay` of the agent. -/
  | doPay (args : PayArgs)
  /-- A callback to `/do_pay` or `/do_payios` of the world, with a right signature. -/
  | sendRecharge (type orderId uuid : Nat)
  | resume (call : Call)
  | raised (call : Call)
  | createOrder (type orderId itemId localPrice productNumber : Nat)
  | createRole (uuid : Nat)
  | setOnline (uuid : Nat) (online : Bool)
  | restart

/-- `checkOrder`, with the order that it has read. It raises or refuses if there is none. -/
def checkOrder (args : PayArgs) : Option ServerOrder → Bool
  | none => false
  | some serverOrder =>
      if serverOrder.itemId ≠ args.itemId then false
      else if serverOrder.status = 1 then false
      else if serverOrder.localPrice ≠ args.unitPrice then false
      else if serverOrder.productNumber ≠ args.quantity then false
      else true

/-- How many units a handler of the agent gives for an order. -/
def imitateUnits (type : Nat) (orderInfo : ServerOrder) : Nat :=
  if type = 2 then orderInfo.productNumber + 1 else orderInfo.productNumber

namespace State

def wait (state : State) (call : Call) : State :=
  { state with calls := call :: state.calls }

/-- The order that `checkOrder` reads; it reads none for other types. -/
def serverOrder (state : State) (type orderId : Nat) : Option ServerOrder :=
  if 1 ≤ type ∧ type ≤ 4 then state.orders type orderId else none

/-- What `sendRecharge`, `sendYueKa`, `sendLoverPackage` and `sendHeroPackage` check. -/
def sends (state : State) (args : PayArgs) (row : Row) : Bool :=
  decide (1 ≤ args.type ∧ args.type ≤ 4) && state.known args.uuid &&
    (decide (args.type ≠ 1) || state.rechargeData row.itemId) && decide (0 < row.quantity) &&
    state.online args.uuid

/-- What `imitate_recharge`, `imitate_yueka_recharge`, `imitate_loverpackage_recharge` and
`imitate_heropackage_recharge` check. -/
def imitates (state : State) (type uuid : Nat) (orderInfo : ServerOrder) : Bool :=
  state.known uuid && (decide (type ≠ 1) || state.rechargeData orderInfo.itemId) &&
    decide (0 < orderInfo.productNumber) && state.online uuid

/-- `savePayOrder`; the insertion fails if there is a row. -/
def savePayOrder (state : State) (args : PayArgs) : State :=
  match state.payOrders args.transactionId with
  | some _ => state
  | none =>
      { state with
        payOrders := Function.update state.payOrders args.transactionId
          (some
            { orderId := args.orderId, itemId := args.itemId, unitPrice := args.unitPrice
              quantity := args.quantity, status := none }) }

/-- `__on_do_pay` for a recorded order sets the status, or clears it if the callback gives none. -/
def saveStatus (state : State) (args : PayArgs) (row : Row) : State :=
  { state with
    payOrders := Function.update state.payOrders args.transactionId
      (some { row with status := args.status }) }

/-- `imitate_giftpackage_recharge` marks the order as used. -/
def useGift (state : State) (orderId : Nat) : State :=
  { state with
    orders := Function.update state.orders 5
      (Function.update (state.orders 5) orderId
        ((state.orders 5 orderId).map fun orderInfo => { orderInfo with status := 2 })) }

def give (state : State) (key : Key) (unit : Nat) : State :=
  { state with grants := state.grants ++ [(key, unit)] }

/-- A request goes on up to its next wait, or to its end. -/
def resume (state : State) : Call → State
  | .load args none => state.wait (.check args (state.serverOrder args.type args.orderId))
  | .load args (some row) => (state.saveStatus args row).wait (.save args row)
  | .check args serverOrder =>
      if checkOrder args serverOrder then (state.savePayOrder args).wait .insert else state
  | .insert => state
  | .save args row =>
      if state.sends args row then
        state.wait (.deliver (.transaction args.transactionId) 0 row.quantity)
      else state
  | .query _ _ _ none => state
  | .query type orderId uuid (some orderInfo) =>
      if type = 5 then
        if orderInfo.status = 0 ∧ state.known uuid then
          (state.useGift orderId).wait (.update orderId uuid orderInfo)
        else state
      else if state.imitates type uuid orderInfo then
        state.wait (.deliver (.order type orderId) 0 (imitateUnits type orderInfo))
      else state
  | .update orderId uuid orderInfo =>
      if 0 < orderInfo.productNumber ∧ state.online uuid then
        state.wait (.deliver (.order 5 orderId) 0 1)
      else state
  | .deliver key next last =>
      if next < last then (state.give key next).wait (.deliver key (next + 1) last) else state

/-- A handler of the agent begins, if there is one for the type. -/
def sendRecharge (state : State) (type orderId uuid : Nat) : State :=
  if 1 ≤ type ∧ type ≤ 5 then
    { state with
      asked :=
        match state.orders type orderId with
        | none => state.asked
        | some _ => (type, orderId) :: state.asked
      calls := .query type orderId uuid (state.orders type orderId) :: state.calls }
  else state

def createOrder (state : State) (type orderId itemId localPrice productNumber : Nat) : State :=
  { state with
    orders := Function.update state.orders type
      (Function.update (state.orders type) orderId
        (some { itemId, status := 0, localPrice, productNumber })) }

end State

/-- One stretch of execution, if it is possible. -/
def step (state : State) : Label → Option State
  | .doPay args => some (state.wait (.load args (state.payOrders args.transactionId)))
  | .sendRecharge type orderId uuid => some (state.sendRecharge type orderId uuid)
  | .resume call =>
      if call ∈ state.calls then
        some ({ state with calls := state.calls.erase call }.resume call)
      else none
  | .raised call =>
      if call ∈ state.calls then some { state with calls := state.calls.erase call } else none
  | .createOrder type orderId itemId localPrice productNumber =>
      if state.orders type orderId = none then
        some (state.createOrder type orderId itemId localPrice productNumber)
      else none
  | .createRole uuid => some { state with known := Function.update state.known uuid true }
  | .setOnline uuid online =>
      some { state with online := Function.update state.online uuid online }
  | .restart => some { state with calls := [], online := fun _ => false }

def initial (rechargeData : Nat → Bool) : State where
  rechargeData := rechargeData
  payOrders _ := none
  orders _ _ := none
  known _ := false
  online _ := false
  calls := []
  asked := []
  grants := []

/-- No unit of what is paid for is given twice. -/
def GrantedOnce (state : State) : Prop := state.grants.Nodup

/-- What a request will give or is giving: the key with the next unit. -/
def Call.hold : Call → Option (Key × Nat)
  | .load args (some _) | .save args _ => some (.transaction args.transactionId, 0)
  | .query type orderId _ (some orderInfo) =>
      if type = 5 ∧ orderInfo.status ≠ 0 then none else some (.order type orderId, 0)
  | .update orderId _ _ => some (.order 5 orderId, 0)
  | .deliver key next _ => some (key, next)
  | .load _ none | .check _ _ | .insert | .query _ _ _ none => none

/-- No request will give or is giving anything for the key. -/
def Idle (state : State) (key : Key) : Prop :=
  key ∉ (state.calls.filterMap Call.hold).map Prod.fst

/-- One callback gives what is paid for: a callback finds the order recorded only once, with no
status yet and no other callback for it under way; and the world asks for an order only once, or
finds a gift used. -/
def OneCallback (state : State) : Label → Prop
  | .doPay args => ∀ row ∈ state.payOrders args.transactionId,
      row.status = none ∧ args.status ≠ none ∧ Idle state (.transaction args.transactionId)
  | .sendRecharge type orderId _ => ∀ orderInfo ∈ state.orders type orderId,
      if type = 5 then orderInfo.status ≠ 0 ∨ Idle state (.order 5 orderId)
      else (type, orderId) ∉ state.asked
  | _ => True

instance (state : State) (key : Key) : Decidable (Idle state key) :=
  inferInstanceAs (Decidable (key ∉ (state.calls.filterMap Call.hold).map Prod.fst))

instance (state : State) : (label : Label) → Decidable (OneCallback state label)
  | .doPay args => inferInstanceAs (Decidable (∀ row ∈ state.payOrders args.transactionId,
      row.status = none ∧ args.status ≠ none ∧ Idle state (.transaction args.transactionId)))
  | .sendRecharge type orderId _ => inferInstanceAs
      (Decidable (∀ orderInfo ∈ state.orders type orderId,
        if type = 5 then orderInfo.status ≠ 0 ∨ Idle state (.order 5 orderId)
        else (type, orderId) ∉ state.asked))
  | .resume _ | .raised _ | .createOrder _ _ _ _ _ | .createRole _ | .setOnline _ _
  | .restart => isTrue trivial

end UEServer.PayOrder
