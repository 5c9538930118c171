import Mathlib.Data.Rat.Floor
import UEServer.Library.Dict
import UEServer.Library.Execution

/-!
# The production of cities

`city_resource_output` of `meta_table/stage.lua` and what arms its timer.  A role that is online gets the
production of one period at a time, and one that logs in gets the production of all periods since its
timestamp at once.  Neither the cities nor their managers change here.
-/

namespace UEServer.Stage

/-- An attribute whose value is income of a city: a row of `AttributeData`. -/
structure Income where
  attr : ℕ
  /-- `city_income_item`. -/
  item : ℕ
  /-- `city_income_item_rate`. -/
  rate : ℚ

/-- A city in `city_dict`, with its row of `CityData`. -/
structure City where
  isOccupied : Bool
  /-- `item_list` with `item_value_list`. -/
  itemList : List (ℕ × ℤ)
  /-- The attributes of the hero or the child that manages the city. -/
  manager : Option (ℕ → ℚ)

/-- `get_resource_extra_output`: of two attributes with one item the later one counts. -/
def getResourceExtraOutput (incomes : List Income) (city : City) (item : ℕ) : ℤ :=
  match city.manager with
  | none => 0
  | some attrs =>
      ((incomes.reverse.find? (·.item = item)).map fun income =>
        ⌊attrs income.attr * income.rate⌋).getD 0

/-- What the occupied cities give of each item in an hour, in the order of the loops. -/
def outputsOf (incomes : List Income) (cities : List City) : List (ℕ × ℤ) :=
  (cities.filter City.isOccupied).flatMap fun city =>
    city.itemList.map fun entry => (entry.1, entry.2 + getResourceExtraOutput incomes city entry.1)

structure Territory where
  /-- `AttributeData`. -/
  incomes : List Income
  /-- `city_dict`. -/
  cities : List City
  /-- `city_resource_output_time`, in seconds. -/
  outputTime : ℕ
  /-- `default_city_income_limit_rate` and `city_income_limit` of the role's VIP level. -/
  limitRate : ℚ
  positive : 0 < outputTime
  nonneg : 0 ≤ limitRate
  output_nonneg : ∀ output ∈ outputsOf incomes cities, 0 ≤ output.2

def Territory.outputs (land : Territory) : List (ℕ × ℤ) :=
  outputsOf land.incomes land.cities

def Territory.getResourceLimit (land : Territory) : Table ℕ ℤ :=
  land.outputs.foldl (fun limits output =>
    limits.set output.1 (some ⌊(limits.read output.1 : ℚ) + output.2 * land.limitRate⌋)) Table.empty

/-- What an hourly output comes to in a period, before it is rounded. -/
def Territory.perPeriod (land : Territory) (hourly : ℤ) : ℚ :=
  (hourly : ℚ) / 3600 * land.outputTime

/-- Add amounts to a table, each entry up to its limit. -/
def addCapped (limit : ℕ → ℤ) (resources : Table ℕ ℤ) (amounts : List (ℕ × ℤ)) : Table ℕ ℤ :=
  amounts.foldl (fun resources amount =>
    let sum := resources.read amount.1 + amount.2
    resources.set amount.1 (some (if limit amount.1 < sum then limit amount.1 else sum))) resources

/-- `city_resource_output` for a number of periods: the resources. -/
def Territory.cityResourceOutput (land : Territory) (outputNum : ℕ) (resources : Table ℕ ℤ) :
    Table ℕ ℤ :=
  addCapped land.getResourceLimit.read resources
    (land.outputs.map fun output => (output.1, ⌊land.perPeriod output.2 * outputNum⌋))

/-- The loop of `check_resource_is_limit`; nothing if it raises. -/
def limitLoop (limits resources : Table ℕ ℤ) : List ℕ → Option Bool
  | [] => some true
  | item :: rest =>
      (limits.get item).bind fun limit =>
        if resources.read item < limit then some false else limitLoop limits resources rest

/-- `check_resource_is_limit`; nothing if it raises. -/
def Territory.checkResourceIsLimit (land : Territory) (resources : Table ℕ ℤ) : Option Bool :=
  if resources.size = 0 then some false
  else limitLoop land.getResourceLimit resources resources.keys

structure StageState where
  /-- `resource_dict`. -/
  resources : Table ℕ ℤ
  cityResourceTs : Option ℤ
  /-- `city_resource_timer` runs. -/
  timer : Bool
  online : Bool

inductive StageEvent where
  | load (now : ℤ)
  | fire (now : ℤ)
  | collect (now : ℤ)
  | setTimer (now : ℤ)
  | unload

/-- What `load_stage` makes of the production. -/
def Territory.catchUp (land : Territory) (outputNum : ℕ) (resources : Table ℕ ℤ) : Table ℕ ℤ :=
  if 0 < outputNum then land.cityResourceOutput outputNum resources else resources

/-- `load_stage`, as far as the production goes; nothing if it raises. -/
def Territory.loadStage (land : Territory) (state : StageState) (now : ℤ) : Option StageState :=
  match state.cityResourceTs with
  | none => some { state with online := true }
  | some ts =>
      (land.checkResourceIsLimit state.resources).bind fun isLimit =>
        if isLimit then some { state with online := true }
        else
          let outputNum := (now - ts) / land.outputTime
          let resources := land.catchUp outputNum.toNat state.resources
          (land.checkResourceIsLimit resources).map fun isLimit =>
            if isLimit then ⟨resources, some now, false, true⟩
            else ⟨resources, some (ts + land.outputTime * outputNum), true, true⟩

/-- One step; nothing if the event cannot happen, or if it raises. -/
def stageStep (land : Territory) (state : StageState) : StageEvent → Option StageState
  | .load now => if state.online then none else land.loadStage state now
  | .fire now =>
      if state.online ∧ state.timer then
        let resources := land.cityResourceOutput 1 state.resources
        (land.checkResourceIsLimit resources).map fun isLimit =>
          ⟨resources, some now, !isLimit, true⟩
      else none
  | .collect now =>
      if state.online then
        if state.resources.size = 0 then some state
        else if state.timer then some { state with resources := Table.empty }
        else some ⟨Table.empty, some now, true, true⟩
      else none
  | .setTimer now =>
      if state.online then
        if state.cityResourceTs.isNone then some state
        else
          (land.checkResourceIsLimit state.resources).map fun isLimit =>
            if isLimit || state.timer then state
            else { state with cityResourceTs := some now, timer := true }
      else none
  | .unload => if state.online then some { state with timer := false, online := false } else none

/-- No resource gets less, and none gets above its limit. -/
def Grows (land : Territory) (resources after : Table ℕ ℤ) : Prop :=
  ∀ item ∈ after.keys, resources.read item ≤ after.read item ∧
    after.read item ≤ land.getResourceLimit.read item

/-- Production for a number of periods does not depend on being online. -/
structure Fair (land : Territory) (state : StageState) (periods : ℕ) : Prop where
  /-- One call for all periods leaves the same resources as one call for each. -/
  same : ∀ item, (land.catchUp periods state.resources).get item =
    ((land.cityResourceOutput 1)^[periods] state.resources).get item
  caught_up : 0 < periods → Grows land state.resources (land.catchUp periods state.resources)
  bounded : ∀ k < periods, Grows land ((land.cityResourceOutput 1)^[k] state.resources)
    ((land.cityResourceOutput 1)^[k + 1] state.resources)
  resumes : state.online = true → ∀ now, ∃ after,
    stageStep land state (.collect now) = some after ∧ after.resources.size = 0 ∧ after.timer = true

/-- The condition: no resource is above its limit, and either the limit is reached by the production of
single periods, or the parts that rounding cuts off do not add up to one. -/
def Lossless (land : Territory) (resources : Table ℕ ℤ) (periods : ℕ) : Prop :=
  periods = 0 ∨ ∀ item ∈ land.outputs.map Prod.fst,
    resources.read item ≤ land.getResourceLimit.read item ∧
      (land.getResourceLimit.read item ≤ resources.read item + periods *
          ((land.outputs.filter fun output => output.1 = item).map fun output =>
            ⌊land.perPeriod output.2⌋).sum ∨
        ∀ output ∈ land.outputs, output.1 = item →
          periods * Int.fract (land.perPeriod output.2) < 1)

/-- A role that is not loaded, after its first city has been occupied. -/
structure Resting (land : Territory) (state : StageState) : Prop where
  ts : state.cityResourceTs.isSome
  known : ∀ item ∈ state.resources.keys, item ∈ land.outputs.map Prod.fst
  timer : state.timer = false
  offline : state.online = false

end UEServer.Stage
