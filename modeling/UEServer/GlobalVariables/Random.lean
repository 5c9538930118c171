import Mathlib.Algebra.Order.BigOperators.Group.List
import Mathlib.Data.Rat.Floor

/-!
# Random numbers and weighted choice

`RandCls` and `math.roll` of `lualib/global_variables.lua`, with exact arithmetic.
-/

namespace UEServer.GlobalVariables

def maxSeed : ℤ := 0x10000000

structure RandCls where
  seed : ℤ

def RandCls.rand (self : RandCls) : RandCls := ⟨(22695477 * self.seed + 1) % maxSeed⟩

def RandCls.random (self : RandCls) (m n : Option ℤ) : Option (ℚ × RandCls) :=
  let unit : ℚ := self.rand.seed / maxSeed
  match m, n with
  | none, none => some (unit, self.rand)
  | some m, none => some (⌊1 + unit * (m + 1 - 1)⌋, self.rand)
  | some m, some n => some (⌊m + unit * (n + 1 - m)⌋, self.rand)
  | none, some _ => none

/-- A value of a table of weights: a number, or a table with attributes. -/
inductive Value where
  | number (value : ℚ)
  | table (attrs : String → Option ℚ)

/-- How the weight of a value is found: it is the value, an attribute, or what a function says. -/
inductive WFunc where
  | absent
  | name (wName : String)
  | func (wFunc : Value → Option ℚ)

def WFunc.weight : WFunc → Value → Option ℚ
  | .absent, .number value => some value
  | .name wName, .table attrs => attrs wName
  | .func wFunc, value => wFunc value
  | _, _ => none

variable {κ : Type}

def totalWeight (wFunc : WFunc) : ℚ → List (κ × Value) → Option ℚ
  | total, [] => some total
  | total, (_, value) :: table => (wFunc.weight value).bind fun weight => totalWeight wFunc (total + weight) table

/-- The loop of `math.roll`. -/
def rollLoop (wFunc : WFunc) : ℚ → List (κ × Value) → Option (Option κ)
  | _, [] => some none
  | rand, (key, value) :: table =>
      (wFunc.weight value).bind fun weight =>
        if rand - weight ≤ 0 then some (some key) else rollLoop wFunc (rand - weight) table

/-- `math.roll`, where `math.random` gives a number.  The entries are in the order of `pairs`. -/
def rollAt (table : List (κ × Value)) (total : Option ℚ) (wFunc : WFunc) (random : ℚ) : Option (Option κ) := do
  let total ← total.or (totalWeight wFunc 0 table)
  let key ← rollLoop wFunc (random * total) table
  return key.or (table.head?.map Prod.fst)

def roll (self : RandCls) (table : List (κ × Value)) (total : Option ℚ) (wFunc : WFunc) :
    Option (Option κ × RandCls) := do
  let (random, after) ← self.random none none
  let key ← rollAt table total wFunc random
  return (key, after)

def weightSum (weight : Value → ℚ) (table : List (κ × Value)) : ℚ :=
  (table.map fun entry => weight entry.2).sum

/-- The weights of the values: the entries have different keys, and some weight is positive. -/
structure Weighs (table : List (κ × Value)) (wFunc : WFunc) (weight : Value → ℚ) : Prop where
  nodup : (table.map Prod.fst).Nodup
  found : ∀ entry ∈ table, wFunc.weight entry.2 = some (weight entry.2)
  nonneg : ∀ entry ∈ table, 0 ≤ weight entry.2
  positive : 0 < weightSum weight table

section
variable {table : List (κ × Value)} {wFunc : WFunc} {weight : Value → ℚ}

theorem weightSum_cons (entry : κ × Value) :
    weightSum weight (entry :: table) = weight entry.2 + weightSum weight table :=
  List.sum_cons

theorem totalWeight_eq (found : ∀ entry ∈ table, wFunc.weight entry.2 = some (weight entry.2)) (total : ℚ) :
    totalWeight wFunc total table = some (total + weightSum weight table) := by
  induction table generalizing total with
  | nil => rw [totalWeight, weightSum, List.map_nil, List.sum_nil, add_zero]
  | cons entry table ih =>
      obtain ⟨first, others⟩ := List.forall_mem_cons.mp found
      rw [totalWeight, first, Option.bind_some, ih others, weightSum_cons, add_assoc]

theorem sum_nonneg_of (nonneg : ∀ entry ∈ table, 0 ≤ weight entry.2) :
    0 ≤ weightSum weight table :=
  List.sum_nonneg fun value mem => by
    obtain ⟨entry, inside, rfl⟩ := List.mem_map.mp mem
    exact nonneg entry inside

theorem rollLoop_append {front back : List (κ × Value)}
    (found : ∀ entry ∈ front, wFunc.weight entry.2 = some (weight entry.2))
    (nonneg : ∀ entry ∈ front, 0 ≤ weight entry.2) {rand : ℚ}
    (above : weightSum weight front < rand) :
    rollLoop wFunc rand (front ++ back) =
      rollLoop wFunc (rand - weightSum weight front) back := by
  induction front generalizing rand with
  | nil => rw [weightSum, List.map_nil, List.sum_nil, sub_zero, List.nil_append]
  | cons entry front ih =>
      obtain ⟨first, others⟩ := List.forall_mem_cons.mp found
      obtain ⟨-, rest⟩ := List.forall_mem_cons.mp nonneg
      rw [weightSum_cons] at above ⊢
      have later := sum_nonneg_of rest
      rw [List.cons_append, rollLoop, first, Option.bind_some, if_neg (by linarith), ih others rest (by linarith),
        sub_sub]

theorem exists_rolled (found : ∀ entry ∈ table, wFunc.weight entry.2 = some (weight entry.2)) {rand : ℚ}
    (low : 0 ≤ rand) (high : rand ≤ weightSum weight table) (nonempty : table ≠ []) :
    ∃ front key value back, table = front ++ (key, value) :: back ∧ rollLoop wFunc rand table = some (some key) ∧
      (weightSum weight front < rand ∧
        rand ≤ weightSum weight front + weight value ∨ front = [] ∧ rand = 0) := by
  induction table generalizing rand with
  | nil => exact absurd rfl nonempty
  | cons entry table ih =>
      obtain ⟨key, value⟩ := entry
      obtain ⟨first, others⟩ := List.forall_mem_cons.mp found
      rw [weightSum_cons] at high
      by_cases here : rand - weight value ≤ 0
      · refine ⟨[], key, value, table, rfl, ?_, ?_⟩
        · rw [rollLoop, first, Option.bind_some, if_pos here]
        · rcases low.eq_or_lt with rfl | positive
          · exact .inr ⟨rfl, rfl⟩
          · exact .inl ⟨positive, by rw [weightSum, List.map_nil, List.sum_nil]; linarith⟩
      · have left : 0 ≤ rand - weight value := by linarith
        have nonempty' : table ≠ [] := by
          rintro rfl
          rw [weightSum, List.map_nil, List.sum_nil, add_zero] at high
          exact here (by linarith)
        obtain ⟨front, key', value', back, rfl, rolled, part⟩ := ih others left (by linarith) nonempty'
        refine ⟨(key, value) :: front, key', value', back, rfl, ?_, .inl ?_⟩
        · rw [rollLoop, first, Option.bind_some, if_neg here, rolled]
        · rw [weightSum_cons]
          rcases part with ⟨above, below⟩ | ⟨-, zero⟩
          · exact ⟨by linarith, by linarith⟩
          · exact absurd zero.le here

theorem Weighs.front_eq (weighs : Weighs table wFunc weight) {front front' back back' : List (κ × Value)} {key : κ}
    {value value' : Value} (whole : table = front ++ (key, value) :: back)
    (whole' : table = front' ++ (key, value') :: back') : front = front' ∧ value = value' := by
  have nodup := weighs.nodup
  rw [whole, List.map_append, List.map_cons] at nodup
  obtain ⟨-, later, apart⟩ := List.nodup_append.mp nodup
  have before : (key, value') ∉ front := fun mem =>
    apart key (List.mem_map_of_mem mem) key List.mem_cons_self rfl
  have behind : (key, value') ∉ back := fun mem =>
    (List.nodup_cons.mp later).1 (List.mem_map.mpr ⟨_, mem, rfl⟩)
  obtain ⟨rfl, same, -⟩ := (List.append_cons_inj_of_notMem before behind).mp (whole.symm.trans whole')
  exact ⟨rfl, (Prod.mk.inj same).2⟩

/-- A draw reaches the part of the whole that belongs to an entry. -/
def Hits (weight : Value → ℚ) (table front : List (κ × Value)) (value : Value) (draw : ℚ) : Prop :=
  weightSum weight front / weightSum weight table < draw ∧
    draw ≤ (weightSum weight front + weight value) / weightSum weight table ∨ front = [] ∧ draw = 0

section
variable {total : Option ℚ} {draw : ℚ}
  (given : ∀ given, total = some given → given = weightSum weight table)
include given

theorem Weighs.rollAt_eq (weighs : Weighs table wFunc weight) {key : κ}
    (rolled : rollLoop wFunc (draw * weightSum weight table) table = some (some key)) :
    rollAt table total wFunc draw = some (some key) := by
  have whole : total.or (totalWeight wFunc 0 table) = some (weightSum weight table) := by
    cases total with
    | none => rw [Option.none_or, totalWeight_eq weighs.found, zero_add]
    | some total => rw [Option.some_or, given total rfl]
  rw [rollAt, whole]
  change (rollLoop wFunc _ table).bind _ = _
  rw [rolled]
  rfl

theorem Weighs.exists_rollAt (weighs : Weighs table wFunc weight) (low : 0 ≤ draw) (high : draw < 1) :
    ∃ front key value back, table = front ++ (key, value) :: back ∧
      rollAt table total wFunc draw = some (some key) ∧ Hits weight table front value draw := by
  have positive := weighs.positive
  have nonempty : table ≠ [] := by
    rintro rfl
    exact positive.false
  obtain ⟨front, key, value, back, whole, rolled, part⟩ := exists_rolled weighs.found
    (mul_nonneg low positive.le) (mul_le_of_le_one_left positive.le high.le) nonempty
  refine ⟨front, key, value, back, whole, weighs.rollAt_eq given rolled, ?_⟩
  rw [Hits, div_lt_iff₀ positive, le_div_iff₀ positive]
  refine part.imp_right fun ⟨first, zero⟩ => ⟨first, ?_⟩
  exact (mul_eq_zero.mp zero).resolve_right positive.ne'

theorem Weighs.rollAt_iff (weighs : Weighs table wFunc weight) {front back : List (κ × Value)} {key : κ}
    {value : Value} (whole : table = front ++ (key, value) :: back) (low : 0 ≤ draw) (high : draw < 1) :
    rollAt table total wFunc draw = some (some key) ↔ Hits weight table front value draw := by
  constructor
  · intro rolled
    obtain ⟨front', key', value', back', whole', rolled', part⟩ := weighs.exists_rollAt given low high
    cases rolled.symm.trans rolled'
    obtain ⟨rfl, rfl⟩ := weighs.front_eq whole whole'
    exact part
  · intro part
    refine weighs.rollAt_eq given ?_
    have found := weighs.found
    have nonneg := weighs.nonneg
    have positive := weighs.positive
    rw [Hits, div_lt_iff₀ positive, le_div_iff₀ positive] at part
    subst whole
    have here := found (key, value) (List.mem_append_right _ List.mem_cons_self)
    rcases part with ⟨above, below⟩ | ⟨rfl, rfl⟩
    · rw [rollLoop_append (fun entry mem => found entry (List.mem_append_left _ mem))
        (fun entry mem => nonneg entry (List.mem_append_left _ mem)) above, rollLoop, here, Option.bind_some,
        if_pos (by linarith)]
    · have least := nonneg (key, value) List.mem_cons_self
      rw [List.nil_append, rollLoop, here, Option.bind_some, if_pos (by linarith)]

end

end

theorem positive_maxSeed : (0 : ℚ) < maxSeed := by norm_num [maxSeed]

theorem unit_mem (self : RandCls) : (0 : ℚ) ≤ self.rand.seed / maxSeed ∧ (self.rand.seed : ℚ) / maxSeed < 1 := by
  have positive : 0 < maxSeed := by decide
  have low : 0 ≤ self.rand.seed := Int.emod_nonneg _ positive.ne'
  have high : self.rand.seed < maxSeed := Int.emod_lt_of_pos _ positive
  exact ⟨div_nonneg (by exact_mod_cast low) positive_maxSeed.le,
    (div_lt_one positive_maxSeed).mpr (by exact_mod_cast high)⟩

theorem random_mem (self : RandCls) {m n : ℤ} (le : m ≤ n) :
    ∃ result : ℤ, self.random (some m) (some n) = some (↑result, self.rand) ∧ m ≤ result ∧ result ≤ n := by
  obtain ⟨low, high⟩ := unit_mem self
  have wide : (0 : ℚ) < n + 1 - m := by
    have : (m : ℚ) ≤ n := by exact_mod_cast le
    linarith
  refine ⟨⌊(m : ℚ) + self.rand.seed / maxSeed * (n + 1 - m)⌋, rfl, Int.le_floor.mpr ?_, Int.lt_add_one_iff.mp ?_⟩
  · have := mul_nonneg low wide.le
    linarith
  · refine Int.floor_lt.mpr ?_
    have := mul_lt_mul_of_pos_right high wide
    push_cast
    linarith

/-- **Weighted choice**: a key of positive weight is returned unless the draw is 0 and the first entry has no weight;
the draws that give a key lie in an interval that is its share of the total; and integers are drawn from their range. -/
theorem roll_right {table : List (κ × Value)} {wFunc : WFunc} {weight : Value → ℚ}
    (weighs : Weighs table wFunc weight) {total : Option ℚ}
    (given : ∀ given, total = some given → given = weightSum weight table) (self : RandCls) :
    ((∃ entry ∈ table, 0 < weight entry.2 ∧ roll self table total wFunc = some (some entry.1, self.rand)) ↔
      ¬ (self.rand.seed = 0 ∧ ∃ entry, table.head? = some entry ∧ weight entry.2 = 0)) ∧
    (∀ front key value back, table = front ++ (key, value) :: back → ∃ low high : ℚ,
      high - low = weight value / weightSum weight table ∧ ∀ draw, 0 ≤ draw → draw < 1 →
        (rollAt table total wFunc draw = some (some key) ↔ low < draw ∧ draw ≤ high ∨ front = [] ∧ draw = 0)) ∧
    ∀ m n : ℤ, m ≤ n → ∃ result : ℤ,
      self.random (some m) (some n) = some (↑result, self.rand) ∧ m ≤ result ∧ result ≤ n := by
  refine ⟨?_, fun front key value back whole => ?_, fun m n le => random_mem self le⟩
  · obtain ⟨low, high⟩ := unit_mem self
    obtain ⟨front, key, value, back, whole, rolled, part⟩ := weighs.exists_rollAt given low high
    have mem : (key, value) ∈ table := whole ▸ List.mem_append_right _ List.mem_cons_self
    have ends : roll self table total wFunc = some (some key, self.rand) := by
      change (rollAt table total wFunc _).bind _ = _
      rw [rolled]
      rfl
    have zero : (self.rand.seed : ℚ) / maxSeed = 0 ↔ self.rand.seed = 0 := by
      rw [div_eq_zero_iff, or_iff_left positive_maxSeed.ne', Int.cast_eq_zero]
    have heavy : (∃ entry ∈ table, 0 < weight entry.2 ∧
        roll self table total wFunc = some (some entry.1, self.rand)) ↔ 0 < weight value := by
      constructor
      · rintro ⟨⟨other, held⟩, inside, more, same⟩
        obtain ⟨front', back', whole'⟩ := List.append_of_mem inside
        obtain rfl : other = key := by simpa using (ends.symm.trans same).symm
        obtain ⟨-, rfl⟩ := weighs.front_eq whole whole'
        exact more
      · exact fun more => ⟨_, mem, more, ends⟩
    rw [heavy]
    rcases part with ⟨above, below⟩ | ⟨rfl, none⟩
    · have more : 0 < weight value := by
        have := above.trans_le below
        rw [div_lt_div_iff_of_pos_right weighs.positive] at this
        linarith
      have before : 0 ≤ weightSum weight front :=
        sum_nonneg_of fun entry inside => weighs.nonneg entry (whole ▸ List.mem_append_left _ inside)
      refine iff_of_true more fun nothing => ?_
      rw [zero.mpr nothing.1] at above
      exact absurd (div_nonneg before weighs.positive.le) (not_le.mpr above)
    · rw [whole]
      have least := weighs.nonneg _ mem
      simp only [zero.mp none, List.nil_append, List.head?_cons, Option.some.injEq, exists_eq_left', true_and]
      exact ⟨fun more same => more.ne' same, fun some => lt_of_le_of_ne least (Ne.symm some)⟩
  · refine ⟨_, _, ?_, fun draw low high => weighs.rollAt_iff given whole low high⟩
    rw [← sub_div, add_sub_cancel_left]

/-- The first key has no weight. -/
def weightless : List (ℕ × Value) := [(1, .number 0), (2, .number 1)]

theorem weightless_weighs : Weighs weightless .absent fun value => ((WFunc.absent).weight value).getD 0 where
  nodup := by decide
  found := by simp [weightless, WFunc.weight]
  nonneg := by simp [weightless, WFunc.weight]
  positive := by norm_num [weightSum, weightless, WFunc.weight]

/-- The seed from which 1 is drawn. -/
theorem roll_right_weightless : ∃ entry ∈ weightless, 0 < ((WFunc.absent).weight entry.2).getD 0 ∧
    roll ⟨0⟩ weightless none .absent = some (some entry.1, ⟨1⟩) :=
  (roll_right weightless_weighs (fun _ same => by cases same) ⟨0⟩).1.mpr fun nothing => absurd nothing.1 (by decide)

/-- The draw is 0, and the key without weight is returned. -/
theorem roll_weightless : ¬ ∃ entry ∈ weightless, 0 < ((WFunc.absent).weight entry.2).getD 0 ∧
    (roll ⟨115010531⟩ weightless none .absent).map Prod.fst = some (some entry.1) := by
  have rolled : (roll ⟨115010531⟩ weightless none .absent).map Prod.fst = some (some 1) := by decide +kernel
  rintro ⟨entry, mem, heavy, same⟩
  obtain rfl | rfl : entry = (1, .number 0) ∨ entry = (2, .number 1) := by simpa [weightless] using mem
  · exact absurd heavy (lt_irrefl 0)
  · cases rolled.symm.trans same

end UEServer.GlobalVariables
