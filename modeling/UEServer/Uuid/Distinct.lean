import UEServer.Uuid.Basic

/-!
# Which uuids are distinct

The blocks of the VMs do not overlap, so no index is used twice.  The uuids of two indices that differ by
a multiple of 2 ^ 32 differ in their random characters only.
-/

namespace UEServer.Uuid

open Execution

def digit (letter : Char) : ℕ := charMap.idxOf letter

def read (start : ℕ) (letters : List Char) : ℕ :=
  letters.foldl (fun num letter => num * 36 + digit letter) start

theorem digit_charMap {num : ℕ} (small : num < 36) : digit (charMap.getD num '0') = num := by
  have all : ∀ num < 36, digit (charMap.getD num '0') = num := by decide
  exact all num small

theorem read_num2str {startPos num : ℕ} (room : num < 36 ^ startPos) (ret : List Char) :
    read 0 (num2str startPos num ret) = read num ret := by
  induction startPos generalizing num ret with
  | zero =>
      obtain rfl : num = 0 := by simpa using room
      rfl
  | succ startPos ih =>
      rw [num2str]
      split
      · next small =>
          rw [read, List.foldl_cons, digit_charMap small, Nat.zero_mul, Nat.zero_add]
          rfl
      · have next : num / 36 < 36 ^ startPos :=
          Nat.div_lt_of_lt_mul (by rwa [Nat.pow_succ, Nat.mul_comm] at room)
        rw [ih next, read, List.foldl_cons, digit_charMap (Nat.mod_lt _ (by decide)),
          Nat.div_add_mod']
        rfl

theorem num2str_inj {num other : BitVec 64} :
    num2str 128 num.toNat [] = num2str 128 other.toNat [] ↔ num = other := by
  refine ⟨fun same => BitVec.eq_of_toNat_eq ?_, fun same => by rw [same]⟩
  calc
    num.toNat = read 0 (num2str 128 num.toNat []) :=
      (read_num2str (Nat.lt_trans num.isLt (by decide)) []).symm
    _ = read 0 (num2str 128 other.toNat []) := by rw [same]
    _ = other.toNat := read_num2str (Nat.lt_trans other.isLt (by decide)) []

theorem length_num2str {startPos num digits : ℕ} {ret : List Char}
    (small : num < 36 ^ (digits + 1)) :
    ret.length ≤ (num2str startPos num ret).length ∧
      (num2str startPos num ret).length ≤ ret.length + (digits + 1) := by
  induction startPos generalizing num digits ret with
  | zero => exact ⟨Nat.le_refl _, Nat.le_add_right _ _⟩
  | succ startPos ih =>
      rw [num2str]
      split
      · rw [List.length_cons]
        omega
      · next large =>
          cases digits with
          | zero => exact absurd (by simpa using small) large
          | succ digits =>
              have next : num / 36 < 36 ^ (digits + 1) :=
                Nat.div_lt_of_lt_mul (by rwa [Nat.pow_succ, Nat.mul_comm] at small)
              have := @ih _ _ (charMap.getD (num % 36) '0' :: ret) next
              rw [List.length_cons] at this
              omega

theorem idxNum_inj {idx other : BitVec 64} :
    idxNum idx = idxNum other ↔ idx.toNat % 2 ^ 32 = other.toNat % 2 ^ 32 := by
  constructor
  · intro same
    have ints := congrArg BitVec.toInt same
    rw [idxNum, idxNum, BitVec.toInt_signExtend_of_le (by decide),
      BitVec.toInt_signExtend_of_le (by decide)] at ints
    have nats := congrArg BitVec.toNat (BitVec.eq_of_toInt_eq ints)
    rwa [BitVec.toNat_setWidth, BitVec.toNat_setWidth] at nats
  · intro same
    rw [idxNum, idxNum]
    congr 1
    refine BitVec.eq_of_toNat_eq ?_
    rwa [BitVec.toNat_setWidth, BitVec.toNat_setWidth]

def uuid (header : List Char) (request : BitVec 64 × List Char) : List Char :=
  header ++ num2str 128 (idxNum request.1).toNat [] ++ request.2

theorem uuid_inj {header : List Char} {request other : BitVec 64 × List Char}
    (length : request.2.length = other.2.length) :
    uuid header request = uuid header other ↔
      request.1.toNat % 2 ^ 32 = other.1.toNat % 2 ^ 32 ∧ request.2 = other.2 := by
  rw [← idxNum_inj, uuid, uuid]
  constructor
  · intro same
    obtain ⟨front, suffix⟩ := List.append_inj' same length
    exact ⟨num2str_inj.mp (List.append_cancel_left front), suffix⟩
  · rintro ⟨idx, suffix⟩
    rw [idx, suffix]

theorem luuidNew_eq {header : List Char} (idx : BitVec 64) (started : header ≠ [])
    (short : header.length ≤ 64) :
    luuidNew header idx = some (header ++ num2str 128 (idxNum idx).toNat []) := by
  have digits : (num2str 128 (idxNum idx).toNat []).length ≤ 0 + (12 + 1) :=
    (length_num2str (Nat.lt_trans (idxNum idx).isLt (by decide))).2
  rw [luuidNew, if_neg started]
  dsimp only
  rw [List.length_append, if_neg (by omega)]

theorem luuidInit_short {typeId actionId : BitVec 64} {header : List Char}
    (made : luuidInit typeId actionId = some header) : header ≠ [] ∧ header.length ≤ 64 := by
  rw [luuidInit] at made
  split at made
  · cases made
  · split at made
    · cases made
    · cases made
      have action : (num2str 63 actionId.toNat ['_']).length ≤ 1 + (12 + 1) :=
        (length_num2str (Nat.lt_trans actionId.isLt (by decide))).2
      have type := @length_num2str
        (64 - ('_' :: num2str 63 actionId.toNat ['_']).length) typeId.toNat 12
        ('_' :: num2str 63 actionId.toNat ['_']) (Nat.lt_trans typeId.isLt (by decide))
      refine ⟨List.ne_nil_of_length_pos (Nat.lt_of_lt_of_le (Nat.succ_pos _) type.1), ?_⟩
      have longer : ('_' :: num2str 63 actionId.toNat ['_']).length ≤ 15 := Nat.succ_le_succ action
      exact Nat.le_trans type.2 (Nat.le_trans (Nat.add_le_add_right longer _) (by decide))

theorem luuidApply_eq {count : ℕ} (gIdx : BitVec 64) (positive : 0 < count)
    (small : count < 0xffff) :
    luuidApply gIdx (BitVec.ofNat 64 count) = some (gIdx, gIdx + BitVec.ofNat 64 count) := by
  have int : ((BitVec.ofNat 64 count).setWidth 32).toInt = count := by
    rw [BitVec.toInt_eq_toNat_of_lt] <;> rw [BitVec.toNat_setWidth, BitVec.toNat_ofNat] <;> omega
  have wide : ((BitVec.ofNat 64 count).setWidth 32).signExtend 64 = BitVec.ofNat 64 count := by
    refine BitVec.eq_of_toInt_eq ?_
    rw [BitVec.toInt_signExtend_of_le (by decide), int, BitVec.toInt_eq_toNat_of_lt] <;>
      rw [BitVec.toNat_ofNat] <;> omega
  rw [luuidApply, int, wide, if_neg (by omega)]

def Vm.Left (vm : Vm) (idx : ℕ) : Prop :=
  vm.cacheIdx.toNat < idx ∧ idx ≤ vm.cacheIdx.toNat + vm.cacheNum

variable {ν : Type*} [DecidableEq ν] {state after : State ν}

omit [DecidableEq ν] in
structure Blocks (state : State ν) : Prop where
  counted : ∀ vm idx, (state.vms vm).Left idx → idx ≤ state.gIdx.toNat
  apart : ∀ vm other idx, (state.vms vm).Left idx → (state.vms other).Left idx → vm = other
  used : ∀ request ∈ state.requests, request.1.toNat ≤ state.gIdx.toNat
  unused : ∀ request ∈ state.requests, ∀ vm, ¬ (state.vms vm).Left request.1.toNat

/-- The blocks, and what has been returned. -/
structure Inv (state : State ν) : Prop extends Blocks state where
  short : state.header.length ≤ 64
  /-- Nothing is returned before `init`. -/
  started : state.requests ≠ [] → state.header ≠ []
  lengths : ∀ request ∈ state.requests, request.2.length = 6
  ids : state.ids = state.requests.map (uuid state.header)

omit [DecidableEq ν] in
theorem initial_inv : Inv (initial ν) where
  counted := by
    intro vm idx left
    have := Nat.lt_of_lt_of_le left.1 left.2
    exact absurd this (Nat.lt_irrefl _)
  apart := by
    intro vm other idx left
    have := Nat.lt_of_lt_of_le left.1 left.2
    exact absurd this (Nat.lt_irrefl _)
  used := nofun
  unused := nofun
  short := Nat.zero_le _
  started := fun some => absurd rfl some
  lengths := nofun
  ids := rfl

/-- What is left in the blocks is changed for one VM, to some of what was left in its own block. -/
theorem Blocks.shrink {vm : ν} {cache : Vm} (blocks : Blocks state)
    (less : ∀ idx, cache.Left idx → (state.vms vm).Left idx) :
    Blocks { state with vms := Function.update state.vms vm cache } := by
  have left : ∀ other idx, (Function.update state.vms vm cache other).Left idx →
      (state.vms other).Left idx := by
    intro other idx
    by_cases own : other = vm
    · subst own
      rw [Function.update_self]
      exact less idx
    · rw [Function.update_of_ne own]
      exact id
  exact ⟨fun other idx has => blocks.counted other idx (left other idx has),
    fun first second idx has also =>
      blocks.apart first second idx (left first idx has) (left second idx also),
    blocks.used, fun request mem other has => blocks.unused request mem other (left _ _ has)⟩

theorem refill_spec (blocks : Blocks state) (admits : state.Admits) (vm : ν) :
    Blocks (state.refill vm) ∧ 0 < ((state.refill vm).vms vm).cacheNum ∧
      ∃ vms gIdx, state.refill vm = { state with vms, gIdx } := by
  unfold State.refill
  dsimp only
  split
  · next empty =>
      have positive := (state.vms vm).grow.positive
      have small := (state.vms vm).grow.small
      have room := admits
      unfold State.Admits at room
      rw [luuidApply_eq _ positive small]
      dsimp only
      have counter : (state.gIdx + BitVec.ofNat 64 (state.vms vm).grow.cacheMax).toNat =
          state.gIdx.toNat + (state.vms vm).grow.cacheMax := by
        rw [BitVec.toNat_add, BitVec.toNat_ofNat]
        omega
      refine ⟨⟨?_, ?_, ?_, ?_⟩, ?_, _, _, rfl⟩
      · intro other idx left
        dsimp only at left ⊢
        rw [counter]
        by_cases own : other = vm
        · subst own
          rw [Function.update_self] at left
          exact left.2
        · rw [Function.update_of_ne own] at left
          exact Nat.le_trans (blocks.counted other idx left) (Nat.le_add_right _ _)
      · -- The new block lies behind the counter, and all others before it.
        intro first second idx left also
        dsimp only at left also
        by_cases own : first = vm
        · by_cases same : second = vm
          · rw [own, same]
          · rw [own, Function.update_self] at left
            rw [Function.update_of_ne same] at also
            exact absurd (blocks.counted second idx also) (Nat.not_le.mpr left.1)
        · rw [Function.update_of_ne own] at left
          by_cases same : second = vm
          · rw [same, Function.update_self] at also
            exact absurd (blocks.counted first idx left) (Nat.not_le.mpr also.1)
          · rw [Function.update_of_ne same] at also
            exact blocks.apart first second idx left also
      · intro request mem
        rw [counter]
        exact Nat.le_trans (blocks.used request mem) (Nat.le_add_right _ _)
      · intro request mem other left
        dsimp only at left
        by_cases own : other = vm
        · rw [own, Function.update_self] at left
          exact absurd (blocks.used request mem) (Nat.not_le.mpr left.1)
        · rw [Function.update_of_ne own] at left
          exact blocks.unused request mem other left
      · rw [Function.update_self]
        exact positive
  · next some => exact ⟨blocks, Nat.pos_of_ne_zero some, _, _, rfl⟩

variable {suffix : List Char}

theorem take_spec {vm : ν} (inv : Inv state)
    (some : 0 < (state.vms vm).cacheNum) (six : suffix.length = 6) :
    Inv (state.take vm suffix) ∧
      (Distinct state → (Distinct (state.take vm suffix) ↔
        ∀ request ∈ state.requests, request.1 ≠ (state.vms vm).cacheIdx + 1 →
          request.1.toNat % 2 ^ 32 = ((state.vms vm).cacheIdx + 1).toNat % 2 ^ 32 →
            request.2 ≠ suffix)) := by
  have left : (state.vms vm).Left ((state.vms vm).cacheIdx.toNat + 1) :=
    ⟨Nat.lt_succ_self _, Nat.add_le_add_left some _⟩
  have counted := inv.counted vm _ left
  have idx : ((state.vms vm).cacheIdx + 1).toNat = (state.vms vm).cacheIdx.toNat + 1 := by
    exact Nat.mod_eq_of_lt (by simp; omega)
  have less : ∀ num, Vm.Left { state.vms vm with
      cacheIdx := (state.vms vm).cacheIdx + 1, cacheNum := (state.vms vm).cacheNum - 1 } num →
        (state.vms vm).Left num ∧ num ≠ (state.vms vm).cacheIdx.toNat + 1 := by
    intro num rest
    unfold Vm.Left at rest ⊢
    dsimp only at rest
    omega
  have blocks := inv.toBlocks.shrink fun num rest => (less num rest).1
  unfold State.take
  dsimp only
  by_cases started : state.header = []
  · have none : state.requests = [] := by
      by_contra some
      exact inv.started some started
    rw [luuidNew, if_pos started]
    refine ⟨⟨blocks, inv.short, inv.started, inv.lengths, inv.ids⟩, fun distinct => ?_⟩
    rw [none]
    exact iff_of_true distinct (by rintro _ ⟨⟩)
  · rw [luuidNew_eq _ started inv.short]
    refine ⟨⟨⟨?_, blocks.apart, ?_, ?_⟩, inv.short, fun _ => started, ?_, ?_⟩, fun distinct => ?_⟩
    · exact blocks.counted
    · intro request mem
      rcases List.mem_append.mp mem with mem | mem
      · exact inv.used request mem
      · cases List.mem_singleton.mp mem
        rwa [idx]
    · intro request mem other has
      rcases List.mem_append.mp mem with mem | mem
      · exact blocks.unused request mem other has
      · cases List.mem_singleton.mp mem
        dsimp only at has
        rw [idx] at has
        by_cases own : other = vm
        · rw [own, Function.update_self] at has
          exact (less _ has).2 rfl
        · rw [Function.update_of_ne own] at has
          exact own (inv.apart other vm _ has left)
    · intro request mem
      rcases List.mem_append.mp mem with mem | mem
      · exact inv.lengths request mem
      · cases List.mem_singleton.mp mem
        exact six
    · rw [List.map_append, inv.ids]
      rfl
    · have new : ∀ request ∈ state.requests, request.1 ≠ (state.vms vm).cacheIdx + 1 := by
        intro request mem same
        refine inv.unused request mem vm ?_
        rw [same, idx]
        exact left
      have same : ∀ request ∈ state.requests,
          uuid state.header request = uuid state.header ((state.vms vm).cacheIdx + 1, suffix) ↔
            request.1.toNat % 2 ^ 32 = ((state.vms vm).cacheIdx + 1).toNat % 2 ^ 32 ∧
              request.2 = suffix :=
        fun request mem => uuid_inj ((inv.lengths request mem).trans six.symm)
      unfold Distinct at distinct ⊢
      rw [List.nodup_append, and_iff_right distinct, and_iff_right (List.nodup_singleton _), inv.ids]
      constructor
      · intro apart request mem _ idx_same suffix_same
        refine apart _ (List.mem_map_of_mem mem) _ List.mem_cons_self ?_
        exact (same request mem).mpr ⟨idx_same, suffix_same⟩
      · rintro permitted _ mem _ last rfl
        obtain ⟨request, mem, equal⟩ := List.mem_map.mp mem
        have both := (same request mem).mp (equal.trans (List.mem_singleton.mp last))
        exact permitted request mem (new request mem) both.1 both.2

theorem step_spec {op : Op ν} (inv : Inv state) (taken : step state op = some after) :
    Inv after ∧ (Distinct state → (Distinct after ↔ Permitted state op)) := by
  cases op with
  | init typeId actionId =>
      simp only [step] at taken
      split at taken
      · next fresh =>
          cases taken
          have none : state.requests = [] := by
            by_contra some
            exact inv.started some fresh
          refine ⟨⟨{ inv with }, ?_, fun some => absurd none some,
              inv.lengths, ?_⟩,
            fun distinct => iff_of_true distinct trivial⟩
          · cases made : luuidInit typeId actionId with
            | none => exact Nat.zero_le _
            | some header => exact (luuidInit_short made).2
          · have := inv.ids
            rw [none] at this ⊢
            exact this
      · cases taken
        exact ⟨inv, fun distinct => iff_of_true distinct trivial⟩
  | config vm cacheMax =>
      cases taken
      obtain ⟨num, idx⟩ := Vm.config_parts (state.vms vm) cacheMax
      have same : ∀ left, ((state.vms vm).config cacheMax).Left left → (state.vms vm).Left left := by
        intro left has
        unfold Vm.Left at has ⊢
        rwa [num, idx] at has
      have blocks := inv.toBlocks.shrink same
      exact ⟨⟨blocks, inv.short, inv.started, inv.lengths, inv.ids⟩,
        fun distinct => iff_of_true distinct trivial⟩
  | new vm suffix =>
      obtain ⟨⟨rand, admits⟩, taken⟩ := Option.ite_none_right_eq_some.mp taken
      cases taken
      obtain ⟨blocks, some, vms, gIdx, parts⟩ := refill_spec inv.toBlocks admits vm
      have refilled : Inv (state.refill vm) := by
        refine ⟨blocks, ?_, ?_, ?_, ?_⟩ <;> rw [parts]
        · exact inv.short
        · exact inv.started
        · exact inv.lengths
        · exact inv.ids
      have requests : (state.refill vm).requests = state.requests := by rw [parts]
      have ids : (state.refill vm).ids = state.ids := by rw [parts]
      obtain ⟨next, exact_take⟩ := take_spec refilled some rand.1
      refine ⟨next, fun distinct => ?_⟩
      unfold Distinct at distinct exact_take
      rw [ids, requests] at exact_take
      exact exact_take distinct

/-- In every run, the uuids that are returned are pairwise distinct exactly if no request is given the
random characters of an earlier one whose index differs from its own by a multiple of 2 ^ 32. -/
theorem distinct_iff {final : State ν} {ops : List (Op ν)}
    (execution : run step (initial ν) ops = some final) :
    Always step Distinct (initial ν) ops ↔ Guarded step Permitted (initial ν) ops :=
  always_iff_guarded (fun inv _ taken => (step_spec inv taken).1)
    (fun inv distinct taken => (step_spec inv taken).2 distinct) execution initial_inv
    List.nodup_nil

/-- Two VMs ask for uuids, one of which is given other blocks. -/
def twoVms : List (Op Bool) :=
  [.init 1 2, .new true "aaaaaa".toList, .config false (some 5), .new false "aaaaaa".toList,
    .new true "aaaaaa".toList, .new false "bbbbbb".toList]

theorem distinct_iff_twoVms :
    Always step Distinct (initial Bool) twoVms ∧
      ((run step (initial Bool) twoVms).map fun state => state.ids.map String.ofList) =
        some ["1_2_1aaaaaa", "1_2_Xaaaaaa", "1_2_2aaaaaa", "1_2_Ybbbbbb"] := by
  obtain ⟨final, execution⟩ := Option.isSome_iff_exists.mp
    (show (run step (initial Bool) twoVms).isSome by decide +kernel)
  exact ⟨(distinct_iff execution).mpr (by decide +kernel), by decide +kernel⟩

/-- A process with one VM, which has been given so many uuids with the same random characters. -/
structure Solo (state : State Unit) (suffix : List Char) (count : ℕ) : Prop extends Inv state where
  initialised : state.header ≠ []
  ends : state.gIdx = BitVec.ofNat 64 (count + (state.vms ()).cacheNum)
  few : (state.vms ()).cacheNum < 0xffff
  idx : (state.vms ()).cacheIdx = BitVec.ofNat 64 count
  requests : state.requests =
    (List.range count).map fun index => (BitVec.ofNat 64 (index + 1), suffix)

theorem Solo.new {state : State Unit} {count : ℕ}
    (solo : Solo state suffix count) (rand : RandString suffix) (admitted : count < 2 ^ 33) :
    ∃ after, step state (.new () suffix) = some after ∧ Solo after suffix (count + 1) := by
  have few := solo.few
  have admits : state.Admits := by
    unfold State.Admits
    rw [solo.ends, BitVec.toNat_ofNat]
    omega
  have taken : step state (.new () suffix) = some (state.new () suffix) :=
    if_pos ⟨rand, admits⟩
  refine ⟨_, taken, ?_⟩
  have next := (step_spec solo.toInv taken).1
  have refilled : ∃ vms gIdx, state.refill () = { state with vms, gIdx } ∧
      0 < (vms ()).cacheNum ∧ (vms ()).cacheNum < 0xffff ∧
      (vms ()).cacheIdx = BitVec.ofNat 64 count ∧
      gIdx = BitVec.ofNat 64 (count + (vms ()).cacheNum) := by
    unfold State.refill
    dsimp only
    split
    · next empty =>
        have positive := (state.vms ()).grow.positive
        have small := (state.vms ()).grow.small
        have ends := solo.ends
        rw [empty, Nat.add_zero] at ends
        rw [luuidApply_eq _ positive small]
        refine ⟨_, _, rfl, ?_⟩
        rw [Function.update_self, BitVec.ofNat_add, ← ends]
        exact ⟨positive, small, rfl, rfl⟩
    · next some => exact ⟨_, _, rfl, Nat.pos_of_ne_zero some, few, solo.idx, solo.ends⟩
  obtain ⟨vms, gIdx, parts, positive, small, idx, ends⟩ := refilled
  unfold State.new State.take at next ⊢
  rw [parts] at next ⊢
  dsimp only at next ⊢
  rw [luuidNew_eq _ solo.initialised solo.short] at next ⊢
  refine ⟨next, solo.initialised, ?_, ?_, ?_, ?_⟩
  · dsimp only
    rw [Function.update_self, ends]
    congr 1
    dsimp only
    omega
  · dsimp only
    rw [Function.update_self]
    dsimp only
    omega
  · dsimp only
    rw [Function.update_self, BitVec.ofNat_add]
    rw [idx]
    rfl
  · rw [solo.requests, List.range_succ, List.map_append, List.map_singleton, BitVec.ofNat_add, idx]
    rfl

theorem Solo.run {state : State Unit} {count more : ℕ}
    (solo : Solo state suffix count) (rand : RandString suffix) (admitted : count + more ≤ 2 ^ 33) :
    ∃ final, run step state (List.replicate more (.new () suffix)) = some final ∧
      Solo final suffix (count + more) := by
  induction more generalizing state count with
  | zero => exact ⟨state, rfl, solo⟩
  | succ more ih =>
      obtain ⟨after, taken, next⟩ := solo.new rand (by omega)
      obtain ⟨final, execution, last⟩ := ih next (by omega)
      refine ⟨final, ?_, by rwa [Nat.add_right_comm] at last⟩
      rw [List.replicate_succ, run_cons, taken]
      exact execution

theorem Solo.not_distinct {state : State Unit}
    (solo : Solo state suffix (2 ^ 32 + 1)) : ¬ Distinct state := by
  intro distinct
  unfold Distinct at distinct
  rw [solo.ids, solo.requests, List.map_map] at distinct
  have equal : uuid state.header (BitVec.ofNat 64 (0 + 1), suffix) =
      uuid state.header (BitVec.ofNat 64 (2 ^ 32 + 1), suffix) := by
    have numbers : (BitVec.ofNat 64 (0 + 1)).toNat % 2 ^ 32 =
        (BitVec.ofNat 64 (2 ^ 32 + 1)).toNat % 2 ^ 32 := by decide
    refine (uuid_inj ?_).mpr ⟨numbers, rfl⟩
    rfl
  have same := List.inj_on_of_nodup_map distinct (List.mem_range.mpr (Nat.succ_pos (2 ^ 32)))
    (List.mem_range.mpr (Nat.lt_succ_self (2 ^ 32))) equal
  cases same

/-- One VM asks for 2 ^ 32 + 1 uuids, and is given the same random characters each time. -/
theorem longRun_not_distinct :
    ¬ Always step Distinct (initial Unit)
      (.init 1 2 :: List.replicate (2 ^ 32 + 1) (.new () "aaaaaa".toList)) := by
  intro always
  have solo : Solo { initial Unit with header := "1_2_".toList } "aaaaaa".toList 0 :=
    ⟨(step_spec initial_inv (show step (initial Unit) (.init 1 2) = some _ from rfl)).1,
      by decide, rfl, by decide, rfl, rfl⟩
  obtain ⟨final, execution, last⟩ := solo.run (by decide) (show 0 + (2 ^ 32 + 1) ≤ 2 ^ 33 by omega)
  exact last.not_distinct ((always.2 _ rfl).last execution)

end UEServer.Uuid
