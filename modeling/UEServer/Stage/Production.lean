import UEServer.Stage.City

/-!
# Production online and offline

A call for many periods rounds once, and a call for each period rounds each time.  So the first one gives
more, unless the limit is reached or the parts that are cut off do not add up to one.
-/

namespace UEServer.Stage

open Execution

section
variable {limit : ℕ → ℤ} {item : ℕ}

def totalOf (amounts : List (ℕ × ℤ)) (item : ℕ) : ℤ :=
  ((amounts.filter fun amount => amount.1 = item).map Prod.snd).sum

theorem totalOf_cons (amount : ℕ × ℤ) (amounts : List (ℕ × ℤ)) (item : ℕ) :
    totalOf (amount :: amounts) item =
      (if amount.1 = item then amount.2 else 0) + totalOf amounts item := by
  by_cases same : amount.1 = item <;> simp [totalOf, same]

variable {amounts : List (ℕ × ℤ)}

theorem totalOf_nonneg (nonneg : ∀ amount ∈ amounts, 0 ≤ amount.2)
    (item : ℕ) : 0 ≤ totalOf amounts item := by
  induction amounts with
  | nil => exact le_rfl
  | cons amount amounts ih =>
      obtain ⟨first, rest⟩ := List.forall_mem_cons.mp nonneg
      have later := ih rest
      rw [totalOf_cons]
      split <;> omega

theorem totalOf_of_not_mem (absent : item ∉ amounts.map Prod.fst) :
    totalOf amounts item = 0 := by
  have nothing : amounts.filter (fun amount => amount.1 = item) = [] := by
    refine List.filter_eq_nil_iff.mpr fun amount mem => ?_
    intro same
    exact absent (List.mem_map.mpr ⟨amount, mem, of_decide_eq_true same⟩)
  rw [totalOf, nothing]
  rfl

theorem addCapped_cons (resources : Table ℕ ℤ) (amount : ℕ × ℤ) (amounts : List (ℕ × ℤ)) :
    addCapped limit resources (amount :: amounts) = addCapped limit (resources.set amount.1
      (some (min (limit amount.1) (resources.read amount.1 + amount.2)))) amounts := by
  have capped : (if limit amount.1 < resources.read amount.1 + amount.2 then limit amount.1
      else resources.read amount.1 + amount.2) =
        min (limit amount.1) (resources.read amount.1 + amount.2) := by
    split <;> omega
  rw [← capped]
  rfl

theorem get_addCapped_of_not_mem (resources : Table ℕ ℤ)
    (absent : item ∉ amounts.map Prod.fst) :
    (addCapped limit resources amounts).get item = resources.get item := by
  induction amounts generalizing resources with
  | nil => rfl
  | cons amount amounts ih =>
      rw [List.map_cons, List.mem_cons, not_or] at absent
      rw [addCapped_cons, ih _ absent.2, Table.get_set_of_ne _ _ absent.1]

/-- An item that amounts are added to gets all of them, up to its limit. -/
theorem get_addCapped (nonneg : ∀ amount ∈ amounts, 0 ≤ amount.2)
    (resources : Table ℕ ℤ) (mem : item ∈ amounts.map Prod.fst) :
    (addCapped limit resources amounts).get item =
      some (min (limit item) (resources.read item + totalOf amounts item)) := by
  induction amounts generalizing resources with
  | nil => exact absurd mem List.not_mem_nil
  | cons amount amounts ih =>
      obtain ⟨first, rest⟩ := List.forall_mem_cons.mp nonneg
      have total := totalOf_nonneg rest item
      rw [addCapped_cons, totalOf_cons]
      by_cases later : item ∈ amounts.map Prod.fst
      · rw [ih rest _ later, Table.read_set]
        by_cases same : item = amount.1
        · subst same
          rw [if_pos rfl, if_pos rfl, Option.getD_some]
          congr 1
          omega
        · rw [if_neg same, if_neg (Ne.symm same), Int.zero_add]
      · have same : item = amount.1 := (List.mem_cons.mp mem).resolve_right later
        subst same
        rw [get_addCapped_of_not_mem _ later, Table.get_set_self, if_pos rfl, totalOf_of_not_mem later,
          Int.add_zero]

end

section
variable {land : Territory} {resources : Table ℕ ℤ} {item : ℕ}

/-- What a number of periods gives, before the limit. -/
def Territory.amounts (land : Territory) (outputNum : ℕ) : List (ℕ × ℤ) :=
  land.outputs.map fun output => (output.1, ⌊land.perPeriod output.2 * outputNum⌋)

theorem perPeriod_nonneg {output : ℕ × ℤ} (mem : output ∈ land.outputs) :
    0 ≤ land.perPeriod output.2 := by
  have nonneg : (0 : ℚ) ≤ output.2 := Int.cast_nonneg (land.output_nonneg output mem)
  exact mul_nonneg (div_nonneg nonneg (by norm_num)) (Nat.cast_nonneg _)

variable (outputNum : ℕ)

theorem amounts_nonneg : ∀ amount ∈ land.amounts outputNum, 0 ≤ amount.2 := by
  intro amount mem
  obtain ⟨output, output_mem, rfl⟩ := List.mem_map.mp mem
  exact Int.floor_nonneg.mpr (mul_nonneg (perPeriod_nonneg output_mem) (Nat.cast_nonneg _))

theorem map_fst_amounts :
    (land.amounts outputNum).map Prod.fst = land.outputs.map Prod.fst := by
  rw [Territory.amounts, List.map_map]
  rfl

theorem get_cityResourceOutput (resources : Table ℕ ℤ)
    (mem : item ∈ land.outputs.map Prod.fst) :
    (land.cityResourceOutput outputNum resources).get item =
      some (min (land.getResourceLimit.read item)
        (resources.read item + totalOf (land.amounts outputNum) item)) := by
  refine get_addCapped (amounts_nonneg outputNum) resources ?_
  rwa [map_fst_amounts]

theorem get_cityResourceOutput_of_not_mem (resources : Table ℕ ℤ)
    (absent : item ∉ land.outputs.map Prod.fst) :
    (land.cityResourceOutput outputNum resources).get item = resources.get item := by
  refine get_addCapped_of_not_mem resources ?_
  rwa [← map_fst_amounts outputNum] at absent

theorem read_cityResourceOutput (resources : Table ℕ ℤ)
    (mem : item ∈ land.outputs.map Prod.fst) :
    (land.cityResourceOutput outputNum resources).read item =
      min (land.getResourceLimit.read item)
        (resources.read item + totalOf (land.amounts outputNum) item) := by
  rw [Table.read, get_cityResourceOutput outputNum resources mem, Option.getD_some]

theorem mem_keys_cityResourceOutput (resources : Table ℕ ℤ) :
    item ∈ (land.cityResourceOutput outputNum resources).keys ↔
      item ∈ land.outputs.map Prod.fst ∨ item ∈ resources.keys := by
  rw [Table.mem_keys, Table.mem_keys]
  by_cases mem : item ∈ land.outputs.map Prod.fst
  · rw [get_cityResourceOutput outputNum resources mem]
    exact iff_of_true nofun (.inl mem)
  · rw [get_cityResourceOutput_of_not_mem outputNum resources mem]
    exact (or_iff_right mem).symm

theorem get_iterate (periods : ℕ) (resources : Table ℕ ℤ) (mem : item ∈ land.outputs.map Prod.fst) :
    ((land.cityResourceOutput 1)^[periods + 1] resources).get item =
      some (min (land.getResourceLimit.read item)
        (resources.read item + (periods + 1 : ℕ) * totalOf (land.amounts 1) item)) := by
  have total := totalOf_nonneg (@amounts_nonneg land 1) item
  induction periods with
  | zero =>
      rw [Function.iterate_one, get_cityResourceOutput 1 resources mem]
      simp
  | succ periods ih =>
      have before : ((land.cityResourceOutput 1)^[periods + 1] resources).read item =
          min (land.getResourceLimit.read item)
            (resources.read item + (periods + 1 : ℕ) * totalOf (land.amounts 1) item) := by
        rw [Table.read, ih, Option.getD_some]
      have next : ((periods + 1 + 1 : ℕ) : ℤ) * totalOf (land.amounts 1) item =
          (periods + 1 : ℕ) * totalOf (land.amounts 1) item + totalOf (land.amounts 1) item := by
        rw [Nat.cast_succ, add_mul, one_mul]
      rw [Function.iterate_succ_apply', get_cityResourceOutput 1 _ mem, before, next]
      congr 1
      omega

theorem get_iterate_of_not_mem (periods : ℕ) (resources : Table ℕ ℤ)
    (absent : item ∉ land.outputs.map Prod.fst) :
    ((land.cityResourceOutput 1)^[periods] resources).get item = resources.get item := by
  induction periods with
  | zero => rfl
  | succ periods ih =>
      rw [Function.iterate_succ_apply', get_cityResourceOutput_of_not_mem 1 _ absent, ih]

/-- Rounding once gives as much as rounding each time if the parts cut off do not add up to one. -/
theorem floor_mul_eq_iff (q : ℚ) (n : ℕ) : ⌊q * n⌋ = n * ⌊q⌋ ↔ n * Int.fract q < 1 := by
  have split : q * n = (n * ⌊q⌋ : ℤ) + n * Int.fract q := by
    push_cast
    rw [← mul_add, Int.floor_add_fract, mul_comm]
  have nonneg : (0 : ℚ) ≤ n * Int.fract q := mul_nonneg (Nat.cast_nonneg n) (Int.fract_nonneg q)
  rw [split, Int.floor_intCast_add, add_eq_left, Int.floor_eq_zero_iff]
  exact ⟨fun inside => inside.2, fun less => ⟨nonneg, less⟩⟩

theorem mul_floor_le (q : ℚ) (n : ℕ) : n * ⌊q⌋ ≤ ⌊q * n⌋ := by
  rw [Int.le_floor, mul_comm q]
  push_cast
  exact mul_le_mul_of_nonneg_left (Int.floor_le q) (Nat.cast_nonneg n)

def Territory.outputsFor (land : Territory) (item : ℕ) : List (ℕ × ℤ) :=
  land.outputs.filter fun output => output.1 = item

theorem totalOf_amounts : totalOf (land.amounts outputNum) item =
    ((land.outputsFor item).map fun output => ⌊land.perPeriod output.2 * outputNum⌋).sum := by
  rw [totalOf, Territory.amounts, List.filter_map, List.map_map]
  rfl

theorem totalOf_amounts_one : totalOf (land.amounts 1) item =
    ((land.outputsFor item).map fun output => ⌊land.perPeriod output.2⌋).sum := by
  rw [totalOf_amounts]
  simp

theorem sum_eq_mul_sum_iff {α : Type*} {list : List α} {whole part : α → ℤ} {n : ℤ}
    (le : ∀ entry ∈ list, n * part entry ≤ whole entry) :
    n * (list.map part).sum ≤ (list.map whole).sum ∧
      ((list.map whole).sum = n * (list.map part).sum ↔
        ∀ entry ∈ list, whole entry = n * part entry) := by
  induction list with
  | nil => simp
  | cons entry list ih =>
      obtain ⟨first, rest⟩ := List.forall_mem_cons.mp le
      obtain ⟨sum_le, sum_eq⟩ := ih rest
      rw [List.map_cons, List.map_cons, List.sum_cons, List.sum_cons, List.forall_mem_cons, ← sum_eq,
        mul_add]
      constructor
      · omega
      · constructor
        · intro equal
          constructor <;> omega
        · omega

/-- The production of all periods at once, against that of single periods. -/
theorem totalOf_amounts_spec (periods : ℕ) :
    periods * totalOf (land.amounts 1) item ≤ totalOf (land.amounts periods) item ∧
      (totalOf (land.amounts periods) item = periods * totalOf (land.amounts 1) item ↔
        ∀ output ∈ land.outputs, output.1 = item →
          periods * Int.fract (land.perPeriod output.2) < 1) := by
  rw [totalOf_amounts_one, totalOf_amounts]
  obtain ⟨le, equal⟩ := @sum_eq_mul_sum_iff _ (land.outputsFor item)
    (fun output => ⌊land.perPeriod output.2 * periods⌋)
    (fun output => ⌊land.perPeriod output.2⌋) periods fun output _ => mul_floor_le _ _
  refine ⟨le, equal.trans ⟨fun all output mem same => ?_, fun all output mem => ?_⟩⟩
  · rw [← floor_mul_eq_iff]
    exact all output (List.mem_filter.mpr ⟨mem, decide_eq_true same⟩)
  · rw [floor_mul_eq_iff]
    obtain ⟨mem, same⟩ := List.mem_filter.mp mem
    exact all output mem (of_decide_eq_true same)

def Known (land : Territory) (resources : Table ℕ ℤ) : Prop :=
  ∀ item ∈ resources.keys, item ∈ land.outputs.map Prod.fst

theorem known_empty : Known land Table.empty := by
  intro item mem
  rw [Table.mem_keys, Table.get_empty] at mem
  exact absurd rfl mem

theorem known_cityResourceOutput (known : Known land resources) (outputNum : ℕ) :
    Known land (land.cityResourceOutput outputNum resources) :=
  fun item mem => ((mem_keys_cityResourceOutput outputNum resources).mp mem).elim id (known item)

theorem known_catchUp (known : Known land resources) (outputNum : ℕ) :
    Known land (land.catchUp outputNum resources) := by
  rw [Territory.catchUp]
  split
  · exact known_cityResourceOutput known outputNum
  · exact known

/-- What holds of the production at every moment. -/
structure Armed (land : Territory) (state : StageState) : Prop where
  ts : state.cityResourceTs.isSome
  known : Known land state.resources
  /-- While the role is loaded, the timer runs or the limits are reached. -/
  armed : state.online = true →
    state.timer = true ∨ land.checkResourceIsLimit state.resources = some true

variable {state next : StageState}

theorem armed_of_resting (resting : Resting land state) : Armed land state :=
  ⟨resting.ts, resting.known, fun online => absurd (resting.offline.symm.trans online) nofun⟩

theorem loadStage_armed (armed : Armed land state) {now : ℤ}
    (loaded : land.loadStage state now = some next) : Armed land next := by
  obtain ⟨ts, found⟩ := Option.isSome_iff_exists.mp armed.ts
  rw [Territory.loadStage, found] at loaded
  obtain ⟨isLimit, checked, loaded⟩ := Option.bind_eq_some_iff.mp loaded
  split at loaded
  · rename_i reached
    cases loaded
    exact ⟨rfl, armed.known, fun _ => .inr (by rw [checked, reached])⟩
  · obtain ⟨isLimit, checked, rfl⟩ := Option.map_eq_some_iff.mp loaded
    have known := known_catchUp armed.known ((now - ts) / land.outputTime).toNat
    split
    · rename_i reached
      exact ⟨rfl, known, fun _ => .inr (by rw [checked, reached])⟩
    · exact ⟨rfl, known, fun _ => .inl rfl⟩

theorem stageStep_armed (armed : Armed land state) {event : StageEvent}
    (taken : stageStep land state event = some next) : Armed land next := by
  cases event with
  | load now =>
      rw [stageStep] at taken
      split at taken
      · cases taken
      · exact loadStage_armed armed taken
  | fire now =>
      rw [stageStep] at taken
      split at taken
      · obtain ⟨isLimit, checked, rfl⟩ := Option.map_eq_some_iff.mp taken
        refine ⟨rfl, known_cityResourceOutput armed.known 1, fun _ => ?_⟩
        cases isLimit with
        | true => exact .inr checked
        | false => exact .inl rfl
      · cases taken
  | collect now =>
      rw [stageStep] at taken
      split at taken
      · split at taken
        · cases taken
          exact armed
        · split at taken
          · rename_i runs
            cases taken
            exact ⟨armed.ts, known_empty, fun _ => .inl runs⟩
          · cases taken
            exact ⟨rfl, known_empty, fun _ => .inl rfl⟩
      · cases taken
  | setTimer now =>
      rw [stageStep] at taken
      split at taken
      · split at taken
        · cases taken
          exact armed
        · obtain ⟨isLimit, -, rfl⟩ := Option.map_eq_some_iff.mp taken
          split
          · exact armed
          · exact ⟨rfl, armed.known, fun _ => .inl rfl⟩
      · cases taken
  | unload =>
      rw [stageStep] at taken
      split at taken
      · cases taken
        exact ⟨armed.ts, armed.known, nofun⟩
      · cases taken

theorem Armed.resumes (armed : Armed land state) (online : state.online = true) (now : ℤ) :
    ∃ after, stageStep land state (.collect now) = some after ∧ after.resources.size = 0 ∧
      after.timer = true := by
  rw [stageStep, if_pos online]
  by_cases nothing : state.resources.size = 0
  · rw [if_pos nothing]
    refine ⟨state, rfl, nothing, (armed.armed online).resolve_right ?_⟩
    rw [Territory.checkResourceIsLimit, if_pos nothing]
    exact nofun
  · rw [if_neg nothing]
    split
    · rename_i runs
      exact ⟨_, rfl, rfl, runs⟩
    · exact ⟨_, rfl, rfl, rfl⟩

theorem grows_cityResourceOutput (known : Known land resources) (outputNum : ℕ)
    (low : ∀ item ∈ land.outputs.map Prod.fst,
      resources.read item ≤ land.getResourceLimit.read item) :
    Grows land resources (land.cityResourceOutput outputNum resources) := by
  intro item mem
  have output := known_cityResourceOutput known outputNum item mem
  have amount := totalOf_nonneg (@amounts_nonneg land outputNum) item
  have limit := low item output
  rw [read_cityResourceOutput outputNum resources output]
  omega

theorem known_iterate (known : Known land resources) (periods : ℕ) :
    Known land ((land.cityResourceOutput 1)^[periods] resources) := by
  induction periods with
  | zero => exact known
  | succ periods ih =>
      rw [Function.iterate_succ_apply']
      exact known_cityResourceOutput ih 1

/-- The production of a role does not depend on being online exactly if nothing is lost by rounding. -/
theorem Armed.fair_iff (armed : Armed land state) (periods : ℕ) :
    Fair land state periods ↔ Lossless land state.resources periods := by
  have resumes := armed.resumes
  have known := armed.known
  cases periods with
  | zero =>
      refine iff_of_true ⟨fun item => rfl, fun some => absurd some (lt_irrefl 0), fun k small => ?_,
        resumes⟩ (.inl rfl)
      exact absurd small (Nat.not_lt_zero k)
  | succ periods =>
      have caught : land.catchUp (periods + 1) state.resources =
          land.cityResourceOutput (periods + 1) state.resources := if_pos (Nat.succ_pos periods)
      constructor
      · intro fair
        refine .inr fun item mem => ?_
        obtain ⟨le, equal⟩ := @totalOf_amounts_spec land item (periods + 1)
        have grown := fair.bounded 0 (Nat.succ_pos periods) item
          ((mem_keys_cityResourceOutput 1 state.resources).mpr (.inl mem))
        have same := fair.same item
        rw [caught, get_cityResourceOutput _ _ mem, get_iterate periods _ mem, Option.some.injEq] at same
        have one : ((land.outputs.filter fun output => output.1 = item).map fun output =>
            ⌊land.perPeriod output.2⌋).sum = totalOf (land.amounts 1) item := totalOf_amounts_one.symm
        refine ⟨grown.1.trans grown.2, ?_⟩
        rw [one, ← equal]
        omega
      · intro lossless
        replace lossless := lossless.resolve_left (Nat.succ_ne_zero periods)
        refine ⟨fun item => ?_, fun _ => ?_, fun k _ => ?_, resumes⟩
        · rw [caught]
          by_cases mem : item ∈ land.outputs.map Prod.fst
          · obtain ⟨le, equal⟩ := @totalOf_amounts_spec land item (periods + 1)
            obtain ⟨-, reached⟩ := lossless item mem
            have one : ((land.outputs.filter fun output => output.1 = item).map fun output =>
                ⌊land.perPeriod output.2⌋).sum = totalOf (land.amounts 1) item :=
              totalOf_amounts_one.symm
            rw [one, ← equal] at reached
            rw [get_cityResourceOutput _ _ mem, get_iterate periods _ mem]
            congr 1
            omega
          · rw [get_cityResourceOutput_of_not_mem _ _ mem, get_iterate_of_not_mem _ _ mem]
        · exact grows_cityResourceOutput known _ fun item mem => (lossless item mem).1
        · rw [Function.iterate_succ_apply']
          refine grows_cityResourceOutput (known_iterate known k) 1 fun item mem => ?_
          cases k with
          | zero => exact (lossless item mem).1
          | succ k =>
              rw [Table.read, get_iterate k _ mem, Option.getD_some]
              exact min_le_left _ _

def smallLand : Territory where
  incomes := []
  cities := [⟨true, [(101002, 1010)], none⟩]
  outputTime := 900
  limitRate := 6
  positive := by decide
  nonneg := by decide
  output_nonneg := by decide

/-- A role whose city has just been occupied. -/
def emptyStage : StageState := ⟨Table.empty, some 0, false, false⟩

theorem emptyStage_resting : Resting smallLand emptyStage :=
  ⟨rfl, by decide, rfl, rfl⟩

/-- The role comes online after one period and collects. -/
def stageEvents : List StageEvent := [.load 900, .collect 1000, .fire 1800]

end

end UEServer.Stage
