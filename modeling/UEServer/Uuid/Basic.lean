import Mathlib
import UEServer.Library.Execution

/-!
# Generated uuids

`lua-uuid.c` and `uuid.lua`.  The Lua VMs of a process share a counter of 64 bits, from which a VM
takes a block at a time.  The index inside its block is a Lua integer, which the C function that makes
the uuid of it stores in an `int`.
-/

namespace UEServer.Uuid

def charMap : List Char := "0123456789ABCDEFGHIJKLMNOPQRSTUVWXYZ".toList

/-- `num2str`, for the base 36: a number is written in front of what has been written, as long as the
buffer has room. -/
def num2str : ℕ → ℕ → List Char → List Char
  | 0, _, ret => ret
  | startPos + 1, num, ret =>
      if num < 36 then charMap.getD num '0' :: ret
      else num2str startPos (num / 36) (charMap.getD (num % 36) '0' :: ret)

/-- `luuid_init`: the type, a separator, the action, a separator; it raises if the ids are too large. -/
def luuidInit (typeId actionId : BitVec 64) : Option (List Char) :=
  if 0xffffffff < typeId.toNat then none
  else if 0xffffffff < actionId.toNat then none
  else
    let action := '_' :: num2str 63 actionId.toNat ['_']
    some (num2str (64 - action.length) typeId.toNat action)

/-- `luuid_apply`: the first index of the block, and the counter after it; the size is an `int`. -/
def luuidApply (gIdx count : BitVec 64) : Option (BitVec 64 × BitVec 64) :=
  let count := count.setWidth 32
  if count.toInt ≤ 0 then none else some (gIdx, gIdx + count.signExtend 64)

/-- The number of which `luuid_new` makes the uuid: an `int`, which `num2str` takes as a `uint64_t`. -/
def idxNum (idx : BitVec 64) : BitVec 64 := (idx.setWidth 32).signExtend 64

/-- `luuid_new`, which raises before `init`, and if the uuid does not fit into its buffer. -/
def luuidNew (header : List Char) (idx : BitVec 64) : Option (List Char) :=
  if header = [] then none
  else
    let uuid := header ++ num2str 128 (idxNum idx).toNat []
    if 128 < uuid.length then none else some uuid

structure Vm where
  /-- `g_cache_max`. -/
  cacheMax : ℕ
  /-- `g_cache_num`. -/
  cacheNum : ℕ
  /-- `g_cache_idx`. -/
  cacheIdx : BitVec 64
  /-- `config` refuses what is not positive. -/
  positive : 0 < cacheMax
  /-- `config` refuses what is too large. -/
  small : cacheMax < 0xffff

namespace Vm

def fresh : Vm := ⟨16, 0, 0, by decide, by decide⟩

/-- `config`, which raises for other values. -/
def config (vm : Vm) (cacheMax : Option ℤ) : Vm :=
  let cacheMax := cacheMax.getD 16
  if legal : 0 < cacheMax ∧ cacheMax < 0xffff then
    { vm with
      cacheMax := cacheMax.toNat
      positive := by omega
      small := by omega }
  else vm

/-- The blocks grow as long as they are small. -/
def grow (vm : Vm) : Vm :=
  if few : vm.cacheMax < 1024 then
    { vm with
      cacheMax := vm.cacheMax * 2
      positive := Nat.mul_pos vm.positive Nat.two_pos
      small := by omega }
  else vm

theorem config_parts (vm : Vm) (cacheMax : Option ℤ) :
    (vm.config cacheMax).cacheNum = vm.cacheNum ∧
      (vm.config cacheMax).cacheIdx = vm.cacheIdx := by
  unfold config
  dsimp only
  split <;> exact ⟨rfl, rfl⟩

end Vm

structure State (ν : Type*) where
  /-- `g_header_str`, which is empty before `init`. -/
  header : List Char
  gIdx : BitVec 64
  vms : ν → Vm
  /-- The indices that have been used, each with the random characters after it. -/
  requests : List (BitVec 64 × List Char)
  ids : List (List Char)

def initial (ν : Type*) : State ν := ⟨[], 0, fun _ => .fresh, [], []⟩

variable {ν : Type*} [DecidableEq ν]

namespace State

/-- The first part of `new`: a VM that has used up its block takes the next one. -/
def refill (state : State ν) (vm : ν) : State ν :=
  let cache := state.vms vm
  if cache.cacheNum = 0 then
    let cache := cache.grow
    match luuidApply state.gIdx (BitVec.ofNat 64 cache.cacheMax) with
    | none => { state with vms := Function.update state.vms vm cache }
    | some (begin_idx, gIdx) =>
        { state with
          gIdx
          vms := Function.update state.vms vm
            { cache with cacheIdx := begin_idx, cacheNum := cache.cacheMax } }
  else state

/-- The second part of `new`: the next index of the block is used. -/
def take (state : State ν) (vm : ν) (suffix : List Char) : State ν :=
  let cache := state.vms vm
  let idx := cache.cacheIdx + 1
  let state :=
    { state with
      vms := Function.update state.vms vm
        { cache with cacheIdx := idx, cacheNum := cache.cacheNum - 1 } }
  match luuidNew state.header idx with
  | none => state
  | some uuid =>
      { state with
        requests := state.requests ++ [(idx, suffix)]
        ids := state.ids ++ [uuid ++ suffix] }

/-- `new`, with the random characters. -/
def new (state : State ν) (vm : ν) (suffix : List Char) : State ν :=
  (state.refill vm).take vm suffix

def nextIdx (state : State ν) (vm : ν) : BitVec 64 := ((state.refill vm).vms vm).cacheIdx + 1

/-- The counter admits another block of any size. -/
def Admits (state : State ν) : Prop := state.gIdx.toNat + 0xffff < 2 ^ 64

instance (state : State ν) : Decidable state.Admits := inferInstanceAs (Decidable (_ < _))

end State

inductive Op (ν : Type*) where
  | init (typeId actionId : BitVec 64)
  /-- `config` of a VM, with what `math.tointeger` makes of its argument. -/
  | config (vm : ν) (cacheMax : Option ℤ)
  /-- A VM asks for a uuid, and `rand_string` gives these characters. -/
  | new (vm : ν) (suffix : List Char)

/-- What `rand_string(6)` may give. -/
def RandString (suffix : List Char) : Prop :=
  suffix.length = 6 ∧ ∀ letter ∈ suffix, letter.isAlphanum

instance (suffix : List Char) : Decidable (RandString suffix) :=
  @instDecidableAnd _ _ _ (List.decidableBAll _ suffix)

/-- One operation, as long as the counter admits it. -/
def step (state : State ν) : Op ν → Option (State ν)
  | .init typeId actionId =>
      if state.header = [] then
        some { state with header := (luuidInit typeId actionId).getD [] }
      else some state
  | .config vm cacheMax =>
      some { state with vms := Function.update state.vms vm ((state.vms vm).config cacheMax) }
  | .new vm suffix =>
      if RandString suffix ∧ state.Admits then some (state.new vm suffix) else none

def Distinct (state : State ν) : Prop := state.ids.Nodup

/-- The random characters of a request differ from those of the earlier ones whose indices differ from
its own by a multiple of 2 ^ 32. -/
def Permitted (state : State ν) : Op ν → Prop
  | .new vm suffix => ∀ request ∈ state.requests, request.1 ≠ state.nextIdx vm →
      request.1.toNat % 2 ^ 32 = (state.nextIdx vm).toNat % 2 ^ 32 → request.2 ≠ suffix
  | _ => True

instance (state : State ν) : (op : Op ν) → Decidable (Permitted state op)
  | .init _ _ => isTrue trivial
  | .config _ _ => isTrue trivial
  | .new vm suffix => inferInstanceAs (Decidable (∀ request ∈ state.requests,
      request.1 ≠ state.nextIdx vm →
        request.1.toNat % 2 ^ 32 = (state.nextIdx vm).toNat % 2 ^ 32 → request.2 ≠ suffix))

end UEServer.Uuid
