import Mathlib.Algebra.Order.Ring.Rat
import Mathlib.Data.List.Sort
import UEServer.Child.Marry
import UEServer.Library.Bisect
import UEServer.Library.Dict

/-!
# The market of proposals

`service/child_marry/child_utils.lua`.  The proposals are stored by role and child, and for each grade and
sex there is a list of them, which is sorted by attribute value and time.
-/

namespace UEServer.ChildMarket

open ChildMarry (Sex)

structure Object (ρ : Type*) where
  uuid : ρ
  childId : ℕ
  sex : Sex
  grade : ℕ
  attrDict : List (String × ℚ)
  attrValue : ℚ
  applyTime : ℤ
  deriving DecidableEq

def Object.key {ρ : Type*} (object : Object ρ) : ρ × ℕ := (object.uuid, object.childId)

def maxCount : ℕ := 10

def cmp {ρ : Type*} (a b : Object ρ) : Bool :=
  if a.attrValue = b.attrValue then a.applyTime < b.applyTime else b.attrValue < a.attrValue

structure Market (ρ : Type*) where
  /-- `propose_object_dict` of each role. -/
  propose : Table ρ (Table ℕ (Object ρ))
  /-- `sign_dict`: by grade the `man_list` and the `woman_list`. -/
  signDict : ℕ → Option (Sex → List (Object ρ))

variable {ρ : Type*} [DecidableEq ρ]

def Market.getObjectInfo (market : Market ρ) (uuid : ρ) (childId : ℕ) : Option (Object ρ) :=
  (market.propose.get uuid).bind fun info => info.get childId

/-- The stored proposals, as they are walked. -/
def Market.objects (market : Market ρ) : List (Object ρ) :=
  market.propose.keys.flatMap fun uuid =>
    ((market.propose.get uuid).map fun info => info.keys.filterMap info.get).getD []

omit [DecidableEq ρ] in
def Market.getSignList (market : Market ρ) (sex : Sex) (grade : ℕ) : Option (List (Object ρ)) :=
  (market.signDict grade).map fun lists => lists sex

def Market.signList (market : Market ρ) (sex : Sex) (grade : ℕ) : List (Object ρ) :=
  (market.getSignList sex grade).getD []

def ofKind (entries : List (Object ρ)) (sex : Sex) (grade : ℕ) : List (Object ρ) :=
  entries.filter fun object => object.grade = grade ∧ object.sex = sex

/-- `table.sort` with `cmp`. -/
def sort (entries : List (Object ρ)) : List (Object ρ) :=
  entries.insertionSort fun a b => cmp b a = false

/-- `reset_sign_dict`, which walks the stored proposals in some order. -/
def resetSignDict (entries : List (Object ρ)) : ℕ → Option (Sex → List (Object ρ)) := fun grade =>
  if entries.any fun object => object.grade = grade then
    some fun sex => sort (ofKind entries sex grade)
  else none

/-- `find_sign_index` in a list. -/
def findSignIndex (signList : List (Object ρ)) (object : Object ρ) : Option ℕ :=
  signList.findIdx? fun info => info.uuid = object.uuid ∧ info.childId = object.childId

/-- `sign_add_object` on a list. -/
def signAdd (signList : List (Object ρ)) (object : Object ρ) : List (Object ρ) :=
  match findSignIndex signList object with
  | some index => signList.set index object
  | none => Bisect.insert cmp signList object

/-- Write a list of `sign_dict`. -/
def Market.setSignList (market : Market ρ) (sex : Sex) (grade : ℕ) (signList : List (Object ρ)) :
    Market ρ :=
  { market with
    signDict := fun other =>
      if other = grade then
        some fun kind =>
          if kind = sex then signList else market.signList kind grade
      else market.signDict other }

/-- `object.attr_value`, as `add_object` computes it. -/
def Object.valued (object : Object ρ) : Object ρ :=
  { object with attrValue := (object.attrDict.map Prod.snd).sum }

def Market.addObject (market : Market ρ) (object : Object ρ) : Market ρ :=
  let object := object.valued
  let signed := market.setSignList object.sex object.grade
    (signAdd (market.signList object.sex object.grade) object)
  { signed with
    propose := market.propose.set object.uuid
      (some (((market.propose.get object.uuid).getD Table.empty).set object.childId (some object))) }

/-- `delete_object`; the last argument is `#info.propose_object_dict`. -/
def Market.deleteObject (market : Market ρ) (uuid : ρ) (childId : ℕ) (border : ℕ) : Market ρ :=
  match market.propose.get uuid with
  | none => market
  | some info =>
      match info.get childId with
      | none => market
      | some object =>
          let signList := market.signList object.sex object.grade
          match findSignIndex signList object with
          | none => market
          | some index =>
              { market.setSignList object.sex object.grade (signList.eraseIdx index) with
                propose := market.propose.set uuid
                  (if border = 0 then none else some (info.set childId none)) }

def pageBounds (pageId length : ℕ) : Option (ℕ × ℕ) :=
  let left := (pageId - 1) * maxCount
  let left := if left ≤ 0 then 1 else left
  let right := pageId * maxCount
  if left > length then none else some (left, if right > length then length else right)

/-- A page of a list, with the caller's own proposals. -/
def page (signList : List (Object ρ)) (pageId : ℕ) : Option (List (Object ρ)) :=
  (pageBounds pageId signList.length).map fun (left, right) => (signList.take right).drop (left - 1)

def Market.getAllObjectInfo (market : Market ρ) (uuid : ρ) (sex : Sex) (pageId grade : ℕ) :
    Option (List (Object ρ)) :=
  (market.getSignList sex grade).bind fun signList =>
    (page signList pageId).map fun objectList => objectList.filter fun sign => sign.uuid ≠ uuid

def pages (signList : List (Object ρ)) (count : ℕ) : List (Object ρ) :=
  (List.range count).flatMap fun pageId => (page signList (pageId + 1)).getD []

/-- The pages have every entry of the list on exactly one page, in their order. -/
def Paged (signList : List (Object ρ)) : Prop :=
  ∀ count, signList.length ≤ count * maxCount → pages signList count = signList

/-- A length that Lua may give for a table: an index behind which the next one is free. -/
def IsBorder (dict : Table ℕ (Object ρ)) (border : ℕ) : Prop :=
  (border = 0 ∨ (dict.get border).isSome = true) ∧ dict.get (border + 1) = none

instance (dict : Table ℕ (Object ρ)) (border : ℕ) : Decidable (IsBorder dict border) :=
  inferInstanceAs (Decidable ((_ ∨ _) ∧ _))

inductive Event (ρ : Type*) where
  | add (object : Object ρ)
  /-- `delete_object`, with the length that Lua gives for what is left of the role's proposals. -/
  | delete (uuid : ρ) (childId border : ℕ)
  /-- `reset_sign_dict`, with the order in which the stored proposals are walked. -/
  | reset (entries : List (Object ρ))

/-- One step; nothing if the event cannot happen. -/
def step (market : Market ρ) : Event ρ → Option (Market ρ)
  | .add object => some (market.addObject object)
  | .delete uuid childId border =>
      if ∀ info ∈ market.propose.get uuid, IsBorder (info.set childId none) border then
        some (market.deleteObject uuid childId border)
      else none
  | .reset entries =>
      if entries.Perm market.objects then some { market with signDict := resetSignDict entries } else none

/-- The market after its first rebuilding, from what was stored. -/
def Market.start (propose : Table ρ (Table ℕ (Object ρ))) (entries : List (Object ρ)) : Market ρ :=
  ⟨propose, resetSignDict entries⟩

/-- Every proposal is stored under its role and child. -/
def Keyed (market : Market ρ) : Prop :=
  ∀ uuid childId, ∀ object ∈ market.getObjectInfo uuid childId, object.key = (uuid, childId)

/-- A list has the stored proposals of its kind, each once, and is sorted. -/
structure Listed (market : Market ρ) (sex : Sex) (grade : ℕ) (signList : List (Object ρ)) : Prop where
  stored : ∀ object, object ∈ signList ↔
    market.getObjectInfo object.uuid object.childId = some object ∧ object.grade = grade ∧ object.sex = sex
  once : (signList.map Object.key).Nodup
  sorted : Bisect.Sorted cmp signList

def Good (market : Market ρ) : Prop :=
  ∀ sex grade, Listed market sex grade (market.signList sex grade)

/-- A proposal fits where the child already is in the list. -/
def Fits (signList : List (Object ρ)) (object : Object ρ) : Prop :=
  (∀ other ∈ signList.takeWhile fun other => other.key ≠ object.key, cmp object other = false) ∧
    ∀ other ∈ (signList.dropWhile fun other => other.key ≠ object.key).tail, cmp other object = false

instance (signList : List (Object ρ)) (object : Object ρ) : Decidable (Fits signList object) :=
  inferInstanceAs (Decidable ((∀ other ∈ _, _) ∧ ∀ other ∈ _, _))

/-- The condition on a step: a child that is added again has the same sex and grade and fits where it is,
and after a deletion Lua gives the length 0 only if nothing is left. -/
def Steady (market : Market ρ) : Event ρ → Prop
  | .add object => ∀ old ∈ market.getObjectInfo object.uuid object.childId,
      old.sex = object.sex ∧ old.grade = object.grade ∧
        Fits (market.signList object.sex object.grade) object.valued
  | .delete uuid childId border => ∀ info ∈ market.propose.get uuid, (info.get childId).isSome = true →
      border = 0 → (info.set childId none).keys = []
  | .reset _ => True

instance (market : Market ρ) : (event : Event ρ) → Decidable (Steady market event)
  | .add object => inferInstanceAs (Decidable
      (∀ old ∈ market.getObjectInfo object.uuid object.childId, _ ∧ _ ∧ _))
  | .delete uuid _ _ => inferInstanceAs (Decidable (∀ info ∈ market.propose.get uuid, _ → _ → _))
  | .reset _ => isTrue trivial

end UEServer.ChildMarket
