import Mathlib
import UEServer.Child.Marry
import UEServer.Library.Dict

/-!
# The items of proposals and marriages

The same functions of `service/agent/meta_table/child.lua` with what they take and give back: the role
pays for a proposal and for an acceptance, and gets a refund for a proposal that ends without a marriage.
Here the client may send anything, and the other services may answer anything; a call and its answer are
one step.
-/

namespace UEServer.ChildItems

open ChildMarry (ChildStatus)

/-- A row of `MarryExpendData`. -/
structure MarryExpend where
  /-- The items and their counts, by `apply_type`. -/
  consume : ℤ → Option (List (ℕ × ℕ))
  diamond : ℕ

/-- `MarryExpendData`, by `grade`. -/
abbrev Config := ℕ → Option MarryExpend

def service : ℤ := 1

def assign : ℤ := 2

def cross : ℤ := 3

def childRequestItemCounGoBackRate : ℕ := 2

/-- The argument `modify_type`. -/
inductive ModifyType where
  | addItem | subItem
  deriving DecidableEq

/-- `modify_item_num` on the items of the role; nothing if it returns nothing. -/
def modifyItemNum (config : Config) (items : Table ℕ ℤ) (itemId : ℕ) (modifyType : ModifyType)
    (applyType : ℤ) (childGrade : ℕ) : Option (Table ℕ ℤ) :=
  (config childGrade).bind fun marryConfig =>
    (marryConfig.consume applyType).bind fun consumeItemInfo =>
      (consumeItemInfo.lookup itemId).bind fun count =>
        match modifyType with
        | .addItem => some (items.increase itemId
            (if itemId = marryConfig.diamond then count / childRequestItemCounGoBackRate else count : ℕ))
        | .subItem =>
            if (count : ℤ) ≤ items.read itemId then some (items.increase itemId (-count)) else none

/-- An object of `get_child_object_info`. -/
structure Object (ρ : Type*) where
  uuid : ρ
  childId : ℕ
  sex : ChildMarry.Sex
  grade : ℕ
  marryTime : Option ℤ

structure Child (ρ : Type*) where
  sex : ChildMarry.Sex
  grade : ℕ
  childStatus : ChildStatus
  applyType : Option ℤ
  applyTime : Option ℤ
  consumeItemId : Option ℕ
  applyRoleName : Option String
  applyUuid : Option ρ
  marry : Option (Object ρ)

structure Role (ρ : Type*) where
  uuid : ρ
  items : Table ℕ ℤ
  child : ℕ → Option (Child ρ)
  proposeObjectList : List (Object ρ)
  /-- The children with a timer of `request_timer`. -/
  timer : ℕ → Bool

variable {ρ : Type*} [DecidableEq ρ]

omit [DecidableEq ρ] in
def Role.setChild (role : Role ρ) (childId : ℕ) (child : Child ρ) : Role ρ :=
  { role with child := fun id => if id = childId then some child else role.child id }

def Role.setTimer (role : Role ρ) (childId : ℕ) (timer : Bool) : Role ρ :=
  { role with timer := fun id => if id = childId then timer else role.timer id }

/-- What an operation leaves, and whether it returns true. -/
structure Outcome (ρ : Type*) where
  role : Role ρ
  ok : Bool

def Role.refuses (role : Role ρ) : Outcome ρ := ⟨role, false⟩

def Role.done (role : Role ρ) : Outcome ρ := ⟨role, true⟩

def Role.getObjectIndex (role : Role ρ) (uuid : ρ) (childId : ℕ) : Option ℕ :=
  role.proposeObjectList.findIdx? fun info => info.uuid = uuid ∧ info.childId = childId

section
variable (config : Config)

/-- `send_request`; another role that is asked answers with its name or not. -/
def Role.sendRequest (role : Role ρ) (childId : ℕ) (applyType : Option ℤ) (uuid : Option ρ)
    (itemId : Option ℕ) (now : ℤ) (name : Option String) : Outcome ρ :=
  match role.child childId, applyType, itemId with
  | some child, some applyType, some itemId =>
      if child.childStatus ≠ .adult then role.refuses
      else if child.applyType.isSome ∨ child.applyTime.isSome ∨ child.marry.isSome then role.refuses
      else if uuid = some role.uuid then role.refuses
      else
        match modifyItemNum config role.items itemId .subItem applyType child.grade with
        | none => role.refuses
        | some items =>
            let applied := { child with
              applyType := some applyType
              applyTime := some now
              consumeItemId := some itemId }
            let paid := { role with items := items }
            if applyType = service then ((paid.setChild childId applied).setTimer childId true).done
            else if applyType = assign ∧ uuid.isSome then
              ((paid.setChild childId
                { applied with applyRoleName := name, applyUuid := uuid }).setTimer childId true).done
            else if applyType = cross then ((paid.setChild childId applied).setTimer childId true).done
            else (paid.setChild childId applied).refuses
  | _, _, _ => role.refuses

/-- The proposal of a child ends, with a refund. -/
def Role.refund (role : Role ρ) (childId : ℕ) (child : Child ρ) : Role ρ :=
  let items := child.consumeItemId.bind fun itemId => child.applyType.bind fun applyType =>
    modifyItemNum config role.items itemId .addItem applyType child.grade
  (({ role with items := items.getD role.items }.setChild childId
    { child with consumeItemId := none, applyType := none, applyTime := none }).setTimer childId false)

/-- `driving_cancel_request`; a market that is asked answers with the object or not. -/
def Role.drivingCancelRequest (role : Role ρ) (childId : ℕ) (answer : Bool) : Outcome ρ :=
  match role.child childId with
  | none => role.refuses
  | some child =>
      if child.childStatus ≠ .adult ∨ child.applyType = none ∨ child.applyTime = none then role.refuses
      else if (child.applyType = some service ∨ child.applyType = some cross) ∧ answer = false then
        role.refuses
      else if child.applyType = some assign ∧ child.applyUuid.isSome then
        (role.refund config childId { child with applyRoleName := none, applyUuid := none }).done
      else (role.refund config childId child).done

def Role.passiveRefuseRequest (role : Role ρ) (childId : ℕ) : Outcome ρ :=
  match role.child childId with
  | none => role.refuses
  | some child =>
      if child.childStatus ≠ .adult ∨ child.applyUuid = none ∨ child.applyTime = none then role.refuses
      else (role.refund config childId { child with applyRoleName := none, applyUuid := none }).done

/-- The object that `driving_marriage` gets, if it gets that far, and the proposals that are left. -/
def Role.bride (role : Role ρ) (child : Child ρ) (applyType : ℤ) (objectUuid : ρ) (objectChildId : ℕ)
    (now : ℤ) (answer : Option (Object ρ)) : Option (Object ρ × List (Object ρ)) :=
  if applyType = service ∨ applyType = cross then answer.map fun object => (object, role.proposeObjectList)
  else if applyType = assign then
    (role.getObjectIndex objectUuid objectChildId).bind fun index =>
      role.proposeObjectList[index]?.bind fun object =>
        if object.sex = child.sex ∨ object.grade ≠ child.grade then none
        else some ({ object with marryTime := some now }, role.proposeObjectList.eraseIdx index)
  else none

def Role.drivingMarriage (role : Role ρ) (childId : ℕ) (applyType : Option ℤ) (objectUuid : ρ)
    (objectChildId : ℕ) (itemId : Option ℕ) (now : ℤ) (answer : Option (Object ρ)) : Outcome ρ :=
  match role.child childId, applyType, itemId with
  | some child, some applyType, some itemId =>
      if objectUuid = role.uuid then role.refuses
      else if child.marry.isSome then role.refuses
      else
        match modifyItemNum config role.items itemId .subItem applyType child.grade with
        | none => role.refuses
        | some items =>
            match role.bride child applyType objectUuid objectChildId now answer with
            | none => { role with items := items }.refuses
            | some (marry, proposeObjectList) =>
                ({ role with items := items, proposeObjectList := proposeObjectList }.setChild childId
                  { child with marry := some marry }).done
  | _, _, _ => role.refuses

def Role.passiveMarriage (role : Role ρ) (childId : ℕ) (object : Object ρ) : Outcome ρ :=
  match role.child childId with
  | none => role.refuses
  | some child =>
      if child.marry.isSome ∨ child.applyType = none then role.refuses
      else if child.sex = object.sex then role.refuses
      else
        let child := if child.applyType = some assign then
            { child with applyRoleName := none, applyUuid := none }
          else child
        ((role.setTimer childId false).setChild childId
          { child with applyTime := none, marry := some object }).done

def Role.marriageConfirmStatus (role : Role ρ) (childId : ℕ) : Outcome ρ :=
  match role.child childId with
  | none => role.refuses
  | some child =>
      if child.marry = none then role.refuses
      else if child.childStatus ≠ .adult then role.refuses
      else (role.setChild childId { child with childStatus := .married }).done

/-- A turn of the loop of `online_child`, for a child that has a proposal. -/
def Role.onlineChild (role : Role ρ) (childId : ℕ) (requestTime now : ℤ) (answer : Bool) : Outcome ρ :=
  match (role.child childId).bind fun child =>
      if child.childStatus = .adult then child.applyTime else none with
  | none => role.refuses
  | some applyTime =>
      if now < applyTime + requestTime then (role.setTimer childId true).refuses
      else role.drivingCancelRequest config childId answer

def Role.receiveRequest (role : Role ρ) (object : Object ρ) : Outcome ρ :=
  let kept := match role.getObjectIndex object.uuid object.childId with
    | none => role.proposeObjectList
    | some index => role.proposeObjectList.eraseIdx index
  { role with proposeObjectList := kept ++ [object] }.refuses

def Role.passiveCancelRequest (role : Role ρ) (uuid : ρ) (childId : ℕ) : Outcome ρ :=
  match role.getObjectIndex uuid childId with
  | none => role.refuses
  | some index => { role with proposeObjectList := role.proposeObjectList.eraseIdx index }.done

def Role.drivingRefuseRequest (role : Role ρ) (uuid : ρ) (childId : ℕ) : Outcome ρ :=
  if uuid = role.uuid then role.refuses else role.passiveCancelRequest uuid childId

inductive Event (ρ : Type*) where
  | sendRequest (childId : ℕ) (applyType : Option ℤ) (uuid : Option ρ) (itemId : Option ℕ) (now : ℤ)
      (name : Option String)
  /-- `driving_cancel_request`, for the client or a timer. -/
  | cancel (childId : ℕ) (answer : Bool)
  | refused (childId : ℕ)
  | marry (childId : ℕ) (applyType : Option ℤ) (objectUuid : ρ) (objectChildId : ℕ) (itemId : Option ℕ)
      (now : ℤ) (answer : Option (Object ρ))
  | married (childId : ℕ) (object : Object ρ)
  | confirm (childId : ℕ)
  | online (childId : ℕ) (requestTime now : ℤ) (answer : Bool)
  | receive (object : Object ρ)
  | passiveCancel (uuid : ρ) (childId : ℕ)
  | refuse (uuid : ρ) (childId : ℕ)
  | refuseAll

/-- What an event does to the role. -/
def Role.apply (role : Role ρ) : Event ρ → Outcome ρ
  | .sendRequest childId applyType uuid itemId now name =>
      role.sendRequest config childId applyType uuid itemId now name
  | .cancel childId answer => role.drivingCancelRequest config childId answer
  | .refused childId => role.passiveRefuseRequest config childId
  | .marry childId applyType objectUuid objectChildId itemId now answer =>
      role.drivingMarriage config childId applyType objectUuid objectChildId itemId now answer
  | .married childId object => role.passiveMarriage childId object
  | .confirm childId => role.marriageConfirmStatus childId
  | .online childId requestTime now answer => role.onlineChild config childId requestTime now answer
  | .receive object => role.receiveRequest object
  | .passiveCancel uuid childId => role.passiveCancelRequest uuid childId
  | .refuse uuid childId => role.drivingRefuseRequest uuid childId
  | .refuseAll => { role with proposeObjectList := [] }.done

/-- What was paid for a proposal or an acceptance. -/
structure Deal where
  childId : ℕ
  itemId : ℕ
  count : ℕ
  /-- How many of it are given back if the proposal ends without a marriage. -/
  refund : ℕ
  deriving DecidableEq

/-- The deal that the tables have for an item. -/
def deal? (applyType : ℤ) (childGrade childId itemId : ℕ) : Option Deal :=
  (config childGrade).bind fun marryConfig =>
    (marryConfig.consume applyType).bind fun consumeItemInfo =>
      (consumeItemInfo.lookup itemId).map fun count =>
        ⟨childId, itemId, count,
          if itemId = marryConfig.diamond then count / childRequestItemCounGoBackRate else count⟩

structure Ledger (ρ : Type*) where
  role : Role ρ
  pending : List Deal
  married : List Deal
  ended : List Deal

def Ledger.new (role : Role ρ) : Ledger ρ := ⟨role, [], [], []⟩

def Role.dealOf (role : Role ρ) (childId : ℕ) (applyType : Option ℤ) (itemId : Option ℕ) : Option Deal :=
  (role.child childId).bind fun child => applyType.bind fun applyType => itemId.bind fun itemId =>
    deal? config applyType child.grade childId itemId

/-- The proposal of a child that has not ended. -/
def Ledger.pendingOf (ledger : Ledger ρ) (childId : ℕ) : Option Deal :=
  ledger.pending.find? fun deal => deal.childId = childId

/-- The proposal of a child ends. -/
def Ledger.settle (ledger : Ledger ρ) (childId : ℕ) (marriage : Bool) : Ledger ρ :=
  match ledger.pendingOf childId with
  | none => ledger
  | some deal =>
      if marriage then
        { ledger with pending := ledger.pending.erase deal, married := ledger.married ++ [deal] }
      else { ledger with pending := ledger.pending.erase deal, ended := ledger.ended ++ [deal] }

/-- Write down what an event has done.  A proposal of a child that is confirmed to be married has ended
too: nothing can be done with it any more. -/
def Ledger.record (ledger : Ledger ρ) : Event ρ → Ledger ρ
  | .sendRequest childId applyType _ itemId _ _ =>
      { ledger with
        pending := ledger.pending ++ (ledger.role.dealOf config childId applyType itemId).toList }
  | .marry childId applyType _ _ itemId _ _ =>
      { ledger with
        married := ledger.married ++ (ledger.role.dealOf config childId applyType itemId).toList }
  | .married childId _ => ledger.settle childId true
  | .cancel childId _ | .refused childId | .online childId _ _ _ | .confirm childId =>
      ledger.settle childId false
  | .receive _ | .passiveCancel _ _ | .refuse _ _ | .refuseAll => ledger

def step (ledger : Ledger ρ) (event : Event ρ) : Option (Ledger ρ) :=
  let outcome := ledger.role.apply config event
  some { (if outcome.ok then ledger.record config event else ledger) with role := outcome.role }

def Role.Fresh (role : Role ρ) : Prop :=
  ∀ childId, ∀ child ∈ role.child childId, child.applyType = none ∧ child.applyTime = none

def total (amount : Deal → ℕ) (deals : List Deal) (itemId : ℕ) : ℤ :=
  ((deals.filter fun deal => deal.itemId = itemId).map amount).sum

/-- Every proposal and every acceptance was paid once, and every proposal that ended without a marriage was
refunded once. -/
def Balanced (items : Table ℕ ℤ) (ledger : Ledger ρ) : Prop :=
  ∀ itemId, ledger.role.items.read itemId =
    items.read itemId - total Deal.count ledger.pending itemId - total Deal.count ledger.married itemId -
      total Deal.count ledger.ended itemId + total Deal.refund ledger.ended itemId

/-- An event without effect leaves the items and the children as they are. -/
def Untouched (role : Role ρ) (event : Event ρ) : Prop :=
  (role.apply config event).ok = false →
    (role.apply config event).role.items = role.items ∧ (role.apply config event).role.child = role.child

/-- Where `send_request` has somewhere to send the proposal. -/
def Routed (applyType : Option ℤ) (uuid : Option ρ) : Prop :=
  applyType = some service ∨ applyType = some assign ∧ uuid.isSome = true ∨ applyType = some cross

instance (applyType : Option ℤ) (uuid : Option ρ) : Decidable (Routed applyType uuid) :=
  inferInstanceAs (Decidable (_ ∨ _ ∧ _ ∨ _))

def Role.Affords (role : Role ρ) (childId : ℕ) (applyType : Option ℤ) (itemId : Option ℕ) : Prop :=
  ∃ deal ∈ role.dealOf config childId applyType itemId, (deal.count : ℤ) ≤ role.items.read deal.itemId

instance (role : Role ρ) (childId : ℕ) (applyType : Option ℤ) (itemId : Option ℕ) :
    Decidable (role.Affords config childId applyType itemId) :=
  inferInstanceAs (Decidable (∃ deal ∈ role.dealOf config childId applyType itemId, _))

/-- The condition on an event: a proposal of a child that may propose, and for which the role can pay, is
of a kind that can be sent; an acceptance for which the role can pay meets a partner; and no child is
confirmed to be married while it has a proposal. -/
def Steady (ledger : Ledger ρ) : Event ρ → Prop
  | .sendRequest childId applyType uuid itemId _ _ =>
      (∃ child ∈ ledger.role.child childId, child.childStatus = .adult ∧ child.applyType = none ∧
        child.applyTime = none ∧ child.marry.isNone = true) →
      uuid ≠ some ledger.role.uuid → ledger.role.Affords config childId applyType itemId →
        Routed applyType uuid
  | .marry childId applyType objectUuid objectChildId itemId now answer =>
      ∀ child ∈ ledger.role.child childId, child.marry.isNone = true → objectUuid ≠ ledger.role.uuid →
        ledger.role.Affords config childId applyType itemId →
          ∃ type ∈ applyType,
            (ledger.role.bride child type objectUuid objectChildId now answer).isSome = true
  | .confirm childId => ∀ child ∈ ledger.role.child childId, child.childStatus = .adult →
      child.marry.isSome = true → child.applyTime = none
  | _ => True

instance (ledger : Ledger ρ) : (event : Event ρ) → Decidable (Steady config ledger event)
  | .sendRequest _ _ _ _ _ _ => inferInstanceAs (Decidable ((∃ child ∈ ledger.role.child _, _) → _ → _ → _))
  | .marry _ _ _ _ _ _ _ => inferInstanceAs (Decidable (∀ child ∈ ledger.role.child _, _ → _ → _ →
      ∃ type ∈ _, _))
  | .confirm _ => inferInstanceAs (Decidable (∀ child ∈ ledger.role.child _, _ → _ → _))
  | .cancel _ _ | .refused _ | .married _ _ | .online _ _ _ _ | .receive _ | .passiveCancel _ _
  | .refuse _ _ | .refuseAll => isTrue trivial

end

end UEServer.ChildItems
