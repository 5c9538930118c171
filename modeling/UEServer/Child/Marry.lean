import UEServer.Library.Execution

/-!
# Proposals and marriages of children

`service/agent/meta_table/child.lua` from `send_request` to `passive_marriage`, the handlers of
`lua_handles/child.lua` behind them, and the markets of `service/child_marry`.  A child is a child
of any role.  A label is a call of a client or of a timer that its role can pay for, up to the first
question to another service, or the arrival of one message.  Messages arrive in any order.  A
message to a role that is not loaded waits until the role is; only the call of a proposal is
answered at once and stored.  A logout saves and removes the role in one step.
-/

namespace UEServer.ChildMarry

inductive Sex where
  | man | woman
  deriving DecidableEq

inductive ChildStatus where
  | new | baby | growing | child | adult | married
  deriving DecidableEq

inductive ChildSendRequest where
  | service | assign | cross
  deriving DecidableEq

/-- A `child_marry` service. -/
inductive Market where
  | service (serverId : Nat)
  | cross
  deriving DecidableEq

structure Family (ρ κ : Type*) where
  owner : κ → ρ
  sex : κ → Sex
  grade : κ → Nat
  /-- `get_server_id` of a role. -/
  serverId : ρ → Nat

/-- A child in the database of its role. -/
structure Child (ρ κ : Type*) where
  childStatus : ChildStatus
  applyType : Option ChildSendRequest
  applyTime : Option Int
  applyUuid : Option ρ
  marry : Option κ
  number : Nat
  /-- The role to which it has sent the last one, if to a role. -/
  target : Option ρ

/-- The object of `get_child_object_info`. -/
structure Object (κ : Type*) where
  /-- `uuid` and `child_id`. -/
  child : κ
  number : Nat
  deriving DecidableEq

/-- What is on its way to a service, or waits for a role. A call carries the role object whose
coroutine waits for the reply. -/
inductive Message (ρ κ : Type*) where
  | addObject (market : Market) (object : Object κ)
  /-- `lc_receive_request`, to the agent of a role. -/
  | receiveRequest (uuid : ρ) (object : Object κ) (session : Nat)
  /-- The command `child_receive_request` of a role that was not loaded. -/
  | storedRequest (uuid : ρ) (object : Object κ)
  | requestReply (uuid : ρ) (object : Object κ) (session : Nat)
  | deleteObject (market : Market) (child : κ) (session : Nat)
  | deleteReply (child : κ) (object : Option (Object κ)) (session : Nat)
  | cancelRequest (uuid : ρ) (object : Object κ)
  | refuseRequest (object : Object κ)
  /-- `lc_marriage`: the second child accepts the proposal of the first. -/
  | marriageCall (market : Market) (child : κ) (object : κ) (session : Nat)
  | marriageReply (child : κ) (otherObject : Option κ) (session : Nat)
  | marriage (child : κ) (object : κ)
  deriving DecidableEq

structure Acceptance (κ : Type*) where
  object : Object κ
  child : κ
  /-- The proposal was neither cancelled nor was its child married. -/
  live : Bool

/-- The agents, the markets and the messages. -/
structure State (ρ κ : Type*) where
  child : κ → Child ρ κ
  /-- `propose_object_list` of a role. -/
  proposeObjectList : ρ → List (Object κ)
  /-- `propose_object_dict` of the markets, for each child. -/
  proposeObjectDict : Market → κ → Option (Object κ)
  /-- The number of the role object of a loaded role. -/
  roleDict : ρ → Option Nat
  loads : Nat
  mail : List (Message ρ κ)
  accepted : List (Acceptance κ)

inductive Label (ρ κ : Type*) where
  | login (uuid : ρ)
  | logout (uuid : ρ)
  | grow (child : κ)
  | marriageConfirmStatus (child : κ)
  | sendRequest (child : κ) (applyType : ChildSendRequest) (uuid : Option ρ) (now : Int)
  /-- `driving_cancel_request`, of a client, a timer or a login. -/
  | drivingCancelRequest (child : κ)
  | drivingRefuseRequest (uuid : ρ) (child : κ)
  | drivingRefuseAllRequest (uuid : ρ)
  /-- `driving_marriage`: the first child accepts the proposal of the second. -/
  | drivingMarriage (child : κ) (applyType : ChildSendRequest) (object : κ)
  | deliver (message : Message ρ κ)

/-- The two children of a marriage that a message brings to the first of them. -/
def Message.wedding {ρ κ : Type*} : Message ρ κ → Option (κ × κ)
  | .marriage child object => some (child, object)
  | .marriageReply child (some otherObject) _ => some (child, otherObject)
  | _ => none

def Family.market {ρ κ : Type*} (family : Family ρ κ) (uuid : ρ) :
    ChildSendRequest → Option Market
  | .service => some (.service (family.serverId uuid))
  | .assign => none
  | .cross => some .cross

def Family.Fits {ρ κ : Type*} (family : Family ρ κ) (one other : κ) : Prop :=
  family.sex one ≠ family.sex other ∧ family.grade one = family.grade other

instance {ρ κ : Type*} (family : Family ρ κ) (one other : κ) : Decidable (family.Fits one other) :=
  inferInstanceAs (Decidable (_ ∧ _))

def ChildStatus.next : ChildStatus → ChildStatus
  | .new => .baby
  | .baby => .growing
  | .growing => .adult
  | status => status

namespace State

variable {ρ κ : Type*} [DecidableEq ρ] [DecidableEq κ] (family : Family ρ κ)

def Engaged (state : State ρ κ) (child : κ) : Prop :=
  child ∈ (state.mail.filterMap Message.wedding).map Prod.fst

instance (state : State ρ κ) (child : κ) : Decidable (state.Engaged child) :=
  inferInstanceAs (Decidable (_ ∈ _))

/-- The proposal of the child that has been neither cancelled nor accepted: its number, its kind and
its role. -/
def proposal (state : State ρ κ) (child : κ) : Option (Nat × ChildSendRequest × Option ρ) :=
  if (state.child child).marry = none ∧ ¬ state.Engaged child then
    (state.child child).applyType.map fun applyType =>
      ((state.child child).number, applyType, (state.child child).target)
  else none

/-- A proposal is neither cancelled nor is its child married. -/
def Live (state : State ρ κ) (object : Object κ) : Prop :=
  (state.proposal object.child).map Prod.fst = some object.number

instance (state : State ρ κ) (object : Object κ) : Decidable (state.Live object) :=
  inferInstanceAs (Decidable (_ = _))

def setChild (state : State ρ κ) (child : κ) (data : Child ρ κ) : State ρ κ :=
  { state with child := Function.update state.child child data }

def send (state : State ρ κ) (messages : List (Message ρ κ)) : State ρ κ :=
  { state with mail := state.mail ++ messages }

def setList (state : State ρ κ) (uuid : ρ) (objects : List (Object κ)) : State ρ κ :=
  { state with proposeObjectList := Function.update state.proposeObjectList uuid objects }

def setDict (state : State ρ κ) (market : Market) (child : κ) (object : Option (Object κ)) :
    State ρ κ :=
  { state with
    proposeObjectDict := Function.update state.proposeObjectDict market
      (Function.update (state.proposeObjectDict market) child object) }

/-- The object that `get_object_index` finds. -/
def object? (state : State ρ κ) (uuid : ρ) (child : κ) : Option (Object κ) :=
  (state.proposeObjectList uuid).find? fun object => object.child = child

/-- The list of a role without the object that `get_object_index` finds. -/
def listWithout (state : State ρ κ) (uuid : ρ) (child : κ) : List (Object κ) :=
  (state.proposeObjectList uuid).eraseP fun object => object.child = child

/-- `send_request`, of the given role object. -/
def sendRequest (state : State ρ κ) (child : κ) (applyType : ChildSendRequest) (uuid : Option ρ)
    (now : Int) (session : Nat) : State ρ κ :=
  let data := state.child child
  if data.childStatus = .adult ∧ data.applyType = none ∧ data.applyTime = none ∧
      data.marry = none ∧ uuid ≠ some (family.owner child) then
    let object : Object κ := { child := child, number := data.number + 1 }
    let target := if applyType = .assign then uuid else none
    let sent := state.setChild child
      { data with
        applyType := some applyType
        applyTime := some now
        number := data.number + 1
        target := target }
    match family.market (family.owner child) applyType, target with
    | some market, _ => sent.send [.addObject market object]
    | none, some uuid => sent.send [.receiveRequest uuid object session]
    | none, none => sent
  else
    state

def withoutRequest (data : Child ρ κ) : Child ρ κ :=
  { data with applyType := none, applyTime := none, applyUuid := none }

/-- `driving_cancel_request`, up to the question to a market. -/
def drivingCancelRequest (state : State ρ κ) (child : κ) (session : Nat) : State ρ κ :=
  let data := state.child child
  if data.childStatus = .adult ∧ data.applyTime ≠ none then
    match data.applyType with
    | none => state
    | some applyType =>
        match family.market (family.owner child) applyType with
        | some market => state.send [.deleteObject market child session]
        | none =>
            (state.setChild child (withoutRequest data)).send
              (data.applyUuid.toList.map fun uuid =>
                .cancelRequest uuid { child := child, number := data.number })
  else
    state

def drivingRefuseRequest (state : State ρ κ) (uuid : ρ) (child : κ) : State ρ κ :=
  if family.owner child = uuid then state
  else
    match state.object? uuid child with
    | none => state
    | some object =>
        (state.setList uuid (state.listWithout uuid child)).send [.refuseRequest object]

def drivingRefuseAllRequest (state : State ρ κ) (uuid : ρ) : State ρ κ :=
  (state.setList uuid []).send ((state.proposeObjectList uuid).map .refuseRequest)

/-- The proposal that `driving_marriage` takes from the list of the role. -/
def chosen (state : State ρ κ) (child object : κ) : Option (Object κ) :=
  if family.owner object ≠ family.owner child ∧ (state.child child).marry = none ∧
      family.Fits object child then
    state.object? (family.owner child) object
  else none

/-- `driving_marriage`, up to the question to a market. -/
def drivingMarriage (state : State ρ κ) (child : κ) (applyType : ChildSendRequest) (object : κ)
    (session : Nat) : State ρ κ :=
  match family.market (family.owner child) applyType with
  | some market =>
      if family.owner object ≠ family.owner child ∧ (state.child child).marry = none then
        state.send [.marriageCall market object child session]
      else
        state
  | none =>
      match state.chosen family child object with
      | none => state
      | some proposal =>
          { ((state.setList (family.owner child)
                (state.listWithout (family.owner child) object)).setChild child
              { state.child child with marry := some object }).send [.marriage object child] with
            accepted := state.accepted ++
              [{ object := proposal, child := child, live := state.Live proposal }] }

def receiveRequest (state : State ρ κ) (uuid : ρ) (object : Object κ) : State ρ κ :=
  state.setList uuid (state.listWithout uuid object.child ++ [object])

def passiveRefuseRequest (state : State ρ κ) (child : κ) : State ρ κ :=
  let data := state.child child
  if data.childStatus = .adult ∧ data.applyUuid ≠ none ∧ data.applyTime ≠ none then
    state.setChild child (withoutRequest data)
  else
    state

/-- `marriage` of a market. -/
def marriage (state : State ρ κ) (market : Market) (child object : κ) (session : Nat) : State ρ κ :=
  match state.proposeObjectDict market child with
  | none => state.send [.marriageReply object none session]
  | some proposal =>
      if family.Fits child object then
        { (state.setDict market child none).send
            [.marriage child object, .marriageReply object (some child) session] with
          accepted := state.accepted ++
            [{ object := proposal, child := object, live := state.Live proposal }] }
      else
        state.send [.marriageReply object none session]

def passiveMarriage (state : State ρ κ) (child object : κ) : State ρ κ :=
  let data := state.child child
  if data.marry = none ∧ data.applyType ≠ none ∧ family.sex child ≠ family.sex object then
    state.setChild child
      { data with
        applyTime := none
        applyUuid := if data.applyType = some .assign then none else data.applyUuid
        marry := some object }
  else
    state

/-- A message is handled. A coroutine that continues for a role object that has been removed changes
nothing that is saved; the timer it starts for a proposal to a role cancels this proposal. -/
def handle (state : State ρ κ) : Message ρ κ → State ρ κ
  | .addObject market object => state.setDict market object.child (some object)
  | .receiveRequest uuid object session =>
      if state.roleDict uuid = none then
        state.send [.requestReply uuid object session, .storedRequest uuid object]
      else
        (state.receiveRequest uuid object).send [.requestReply uuid object session]
  | .storedRequest uuid object => state.receiveRequest uuid object
  | .requestReply uuid object session =>
      if state.roleDict (family.owner object.child) = some session then
        state.setChild object.child
          { state.child object.child with applyUuid := some uuid }
      else
        state.send [.cancelRequest uuid object]
  | .deleteObject market child session =>
      (state.setDict market child none).send
        [.deleteReply child (state.proposeObjectDict market child) session]
  | .deleteReply child object session =>
      if object ≠ none ∧ state.roleDict (family.owner child) = some session then
        state.setChild child { state.child child with applyType := none, applyTime := none }
      else
        state
  | .cancelRequest uuid object => state.setList uuid (state.listWithout uuid object.child)
  | .refuseRequest object => state.passiveRefuseRequest object.child
  | .marriageCall market child object session => state.marriage family market child object session
  | .marriageReply child otherObject session =>
      if otherObject ≠ none ∧ state.roleDict (family.owner child) = some session then
        state.setChild child { state.child child with marry := otherObject }
      else
        state
  | .marriage child object => state.passiveMarriage family child object

/-- The role that must be loaded for a message to be handled. -/
def addressee : Message ρ κ → Option ρ
  | .storedRequest uuid _ => some uuid
  | .cancelRequest uuid _ => some uuid
  | .refuseRequest object => some (family.owner object.child)
  | .marriage child _ => some (family.owner child)
  | _ => none

end State

section
variable {ρ κ : Type*} [DecidableEq ρ] [DecidableEq κ]

/-- Run one label. -/
def step (family : Family ρ κ) (state : State ρ κ) : Label ρ κ → Option (State ρ κ)
  | .login uuid =>
      if state.roleDict uuid = none then
        some { state with
          roleDict := Function.update state.roleDict uuid (some (state.loads + 1))
          loads := state.loads + 1 }
      else none
  | .logout uuid => some { state with roleDict := Function.update state.roleDict uuid none }
  | .grow child =>
      let data := state.child child
      some (state.setChild child { data with childStatus := data.childStatus.next })
  | .marriageConfirmStatus child =>
      let data := state.child child
      if data.marry ≠ none ∧ data.childStatus = .adult then
        some (state.setChild child { data with childStatus := .married })
      else none
  | .sendRequest child applyType uuid now =>
      (state.roleDict (family.owner child)).map fun session =>
        state.sendRequest family child applyType uuid now session
  | .drivingCancelRequest child =>
      (state.roleDict (family.owner child)).map fun session =>
        state.drivingCancelRequest family child session
  | .drivingRefuseRequest uuid child =>
      (state.roleDict uuid).map fun _ => state.drivingRefuseRequest family uuid child
  | .drivingRefuseAllRequest uuid =>
      (state.roleDict uuid).map fun _ => state.drivingRefuseAllRequest uuid
  | .drivingMarriage child applyType object =>
      (state.roleDict (family.owner child)).map fun session =>
        state.drivingMarriage family child applyType object session
  | .deliver message =>
      if message ∈ state.mail ∧
          ∀ uuid ∈ State.addressee family message, state.roleDict uuid ≠ none then
        some (State.handle family { state with mail := state.mail.erase message } message)
      else none

/-- Children that have neither proposed nor married, and no message. -/
def initial (childStatus : κ → ChildStatus) : State ρ κ where
  child child :=
    { childStatus := childStatus child, applyType := none, applyTime := none, applyUuid := none
      marry := none, number := 0, target := none }
  proposeObjectList _ := []
  proposeObjectDict _ _ := none
  roleDict _ := none
  loads := 0
  mail := []
  accepted := []

end

end UEServer.ChildMarry
