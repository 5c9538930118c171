import UEServer.Library.Bytes
import UEServer.Lua.Value

/-!
# Packed lists of integers

`lualib_c/bin_utils/lbin_utils.c`.  The sums of `lua_Integer` and of `int` wrap around.
-/

namespace UEServer.BinUtils

open Lua

/-- Conversion to `int`. -/
@[irreducible]
def toInt (value : ℤ) : ℤ := Int.bmod value 4294967296

def packInt32 (i : ℤ) : Bytes :=
  [UInt8.ofInt i, UInt8.ofInt (i >>> (8 : ℕ)), UInt8.ofInt (i >>> (16 : ℕ)),
    UInt8.ofInt (i >>> (24 : ℕ))]

def unpackInt32 (p0 p1 p2 p3 : UInt8) : ℤ :=
  toInt (p0.toNat ||| p1.toNat <<< 8 ||| p2.toNat <<< 16 ||| p3.toNat <<< 24 : ℕ)

/-- What a call does. -/
inductive Result where
  | raises
  | pushes (buffer : Bytes)
  /-- It reads beside what it has written. -/
  | undefined

/-- `lua_tointegerx`, where a text may denote a number. -/
def toIntegerx (tonumber : String → Option Key) : Value → Option ℤ
  | .int value => some value
  | .flt value => if value.den = 1 then some value.num else none
  | .str text =>
      match tonumber text with
      | some (.int value) => some value
      | some (.flt value) => if value.den = 1 then some value.num else none
      | _ => none
  | _ => none

/-- `lua_geti`, with `none` for `nil`. -/
def geti (list : List Value) (i : ℤ) : Option Value :=
  if 1 ≤ i then list[(i - 1).toNat]? else none

variable (tonumber : String → Option Key)

/-- The element at a position, if it is packed. -/
def elem (list : List Value) (i : ℤ) : Option ℤ := do
  let number ← toIntegerx tonumber (← geti list i)
  if number ≥ 2 ^ 31 ∨ number < -2 ^ 31 then none else some number

/-- The loop of `lpack_int32_list`, from a position on. -/
def packLoop (list : List Value) (i : ℤ) : ℕ → Option Bytes
  | 0 => some []
  | count + 1 => do
      let number ← elem tonumber list i
      let buffer ← packLoop list (i + 1) count
      return packInt32 number ++ buffer

/-- The last position, with `to_pos` clipped to the length. -/
def last (list : List Value) (toPos : Option ℤ) : ℤ :=
  min (toPos.getD list.length) list.length

/-- `lpack_int32_list`. -/
def packInt32List (list : List Value) (fromPos toPos : Option ℤ) : Result :=
  let i := fromPos.getD 1
  let len := max (Int.bmod (last list toPos - i + 1) 18446744073709551616) 0
  match packLoop tonumber list i (last list toPos - i + 1).toNat with
  | none => .raises
  | some buffer =>
      if 4 * len % 18446744073709551616 = buffer.length then .pushes buffer
      -- a text that is too long, or what the allocated memory held before
      else .undefined

/-- `unpack_int32` at an offset, if it does not read beside the buffer. -/
def readInt32 (buffer : Bytes) (offset : ℤ) : Option ℤ :=
  match if offset < 0 then [] else buffer.drop offset.toNat with
  | p0 :: p1 :: p2 :: p3 :: _ => some (unpackInt32 p0 p1 p2 p3)
  | _ => none

/-- The loop of `lunpack_int32_list`. -/
def unpackLoop (buffer : Bytes) (i : ℕ) : ℕ → Option (List ℤ)
  | 0 => some []
  | count + 1 => do
      let number ← readInt32 buffer (toInt (4 * i))
      let numbers ← unpackLoop buffer (i + 1) count
      return number :: numbers

/-- `lunpack_int32_list`. -/
def unpackInt32List (buffer : Bytes) : Option (List ℤ) :=
  unpackLoop buffer 0 (toInt (buffer.length / 4 : ℕ)).toNat

/-- The positions that are selected. -/
def positions (list : List Value) (fromPos toPos : Option ℤ) : List ℤ :=
  (List.range (last list toPos - fromPos.getD 1 + 1).toNat).map fun i : ℕ => fromPos.getD 1 + i

theorem or_shiftLeft {low k : ℕ} (less : low < 2 ^ k) (high : ℕ) : low ||| high <<< k = low + high * 2 ^ k := by
  rw [Nat.or_comm, ← Nat.shiftLeft_add_eq_or_of_lt less, Nat.shiftLeft_eq, Nat.add_comm]

theorem unpackInt32_eq (p0 p1 p2 p3 : UInt8) :
    unpackInt32 p0 p1 p2 p3 = toInt (Bytes.toNatLe [p0, p1, p2, p3]) := by
  have first := p0.toNat_lt
  have second := p1.toNat_lt
  have third := p2.toNat_lt
  have low := or_shiftLeft first p1.toNat
  have middle := @or_shiftLeft (p0.toNat + p1.toNat * 2 ^ 8) 16 (by omega) p2.toNat
  have high := @or_shiftLeft (p0.toNat + p1.toNat * 2 ^ 8 + p2.toNat * 2 ^ 16) 24 (by omega) p3.toNat
  refine congrArg (fun number : ℕ => toInt number) ?_
  rw [low, middle, high]
  simp only [Bytes.toNatLe]
  omega

theorem toInt_eq (value : ℤ) : toInt value =
    if value % 4294967296 < 2147483648 then value % 4294967296 else value % 4294967296 - 4294967296 := by
  unfold toInt
  exact Int.bmod_def value 4294967296

theorem packInt32_eq (i : ℤ) : packInt32 i = Bytes.ofNatLe 4 (i % 4294967296).toNat := by
  have byte : ∀ (value : ℤ) (number : ℕ), value % 256 = (number % 256 : ℕ) →
      UInt8.ofInt value = UInt8.ofNat number := by
    intro value number same
    apply UInt8.toNat_inj.mp
    rw [UInt8.ofInt, UInt8.toNat_ofNat', UInt8.toNat_ofNat']
    omega
  simp only [packInt32, Bytes.ofNatLe, Int.shiftRight_eq_div_pow, List.cons.injEq, and_true]
  exact ⟨byte _ _ (by omega), byte _ _ (by omega), byte _ _ (by omega), byte _ _ (by omega)⟩

theorem unpackInt32_packInt32 {i : ℤ} (low : -2 ^ 31 ≤ i) (high : i < 2 ^ 31) :
    ∃ p0 p1 p2 p3, packInt32 i = [p0, p1, p2, p3] ∧ unpackInt32 p0 p1 p2 p3 = i := by
  refine ⟨_, _, _, _, rfl, ?_⟩
  rw [unpackInt32_eq, toInt_eq]
  have number : Bytes.toNatLe (packInt32 i) = (i % 4294967296).toNat := by
    rw [packInt32_eq, Bytes.toNatLe_ofNatLe_of_lt (by omega)]
  rw [packInt32] at number
  omega

theorem packInt32_unpackInt32 (p0 p1 p2 p3 : UInt8) :
    packInt32 (unpackInt32 p0 p1 p2 p3) = [p0, p1, p2, p3] := by
  have less := Bytes.toNatLe_lt [p0, p1, p2, p3]
  have number : (unpackInt32 p0 p1 p2 p3 % 4294967296).toNat = Bytes.toNatLe [p0, p1, p2, p3] := by
    simp only [List.length_cons, List.length_nil] at less
    rw [unpackInt32_eq, toInt_eq]
    omega
  rw [packInt32_eq, number]
  exact Bytes.ofNatLe_toNatLe [p0, p1, p2, p3]

/-- An `int`. -/
def Fits (number : ℤ) : Prop := -2 ^ 31 ≤ number ∧ number < 2 ^ 31

section
variable {tonumber} {list : List Value} {i : ℤ}

theorem fits_of_elem {number : ℤ} (packed : elem tonumber list i = some number) : Fits number := by
  obtain ⟨value, -, rest⟩ := Option.bind_eq_some_iff.mp packed
  obtain ⟨other, -, rest⟩ := Option.bind_eq_some_iff.mp rest
  split at rest
  · cases rest
  · cases rest
    exact ⟨by omega, by omega⟩

theorem packLoop_eq_some {count : ℕ} {buffer : Bytes} :
    packLoop tonumber list i count = some buffer ↔ ∃ numbers : List ℤ,
      (List.range count).map (fun k : ℕ => elem tonumber list (i + k)) = numbers.map some ∧
        numbers.flatMap packInt32 = buffer := by
  induction count generalizing i buffer with
  | zero => simp [packLoop]
  | succ count ih =>
      have next : (List.range (count + 1)).map (fun k : ℕ => elem tonumber list (i + k)) =
          elem tonumber list i :: (List.range count).map fun k : ℕ => elem tonumber list (i + 1 + k) := by
        rw [List.range_succ_eq_map, List.map_cons, List.map_map]
        simp [Function.comp_def, add_assoc, add_comm (1 : ℤ)]
      simp only [next, packLoop, bind, Option.bind_eq_some_iff, ih]
      constructor
      · rintro ⟨number, first, _, ⟨numbers, same, rfl⟩, done⟩
        exact ⟨number :: numbers, congrArg₂ List.cons first same, Option.some.inj done⟩
      · rintro ⟨numbers, same, rfl⟩
        obtain ⟨number, numbers, rfl, first, same⟩ := List.map_eq_cons_iff.mp same.symm
        exact ⟨number, first.symm, _, ⟨numbers, same.symm, rfl⟩, rfl⟩

theorem packLoop_eq_none {count : ℕ} :
    packLoop tonumber list i count = none ↔ ∃ k < count, elem tonumber list (i + k) = none := by
  induction count generalizing i with
  | zero => exact ⟨nofun, nofun⟩
  | succ count ih =>
      have split : (∃ k < count + 1, elem tonumber list (i + k) = none) ↔
          elem tonumber list i = none ∨ ∃ k < count, elem tonumber list (i + 1 + k) = none := by
        rw [Nat.exists_lt_succ_left]
        simp only [Nat.cast_zero, add_zero, Nat.cast_succ, add_assoc, add_comm (1 : ℤ)]
      rw [split, ← ih]
      cases first : elem tonumber list i <;> cases rest : packLoop tonumber list (i + 1) count <;>
        simp [packLoop, first, rest]

end

theorem length_flatMap_packInt32 (numbers : List ℤ) : (numbers.flatMap packInt32).length = 4 * numbers.length := by
  induction numbers with
  | nil => rfl
  | cons number numbers ih =>
      rw [List.flatMap_cons, List.length_append, ih, List.length_cons, packInt32]
      simp only [List.length_cons, List.length_nil]
      omega

theorem unpackLoop_flatMap {numbers : List ℤ} (fits : ∀ number ∈ numbers, Fits number) {front : Bytes} {i : ℕ}
    (read : front.length = 4 * i) (short : i + numbers.length ≤ 536870912) :
    unpackLoop (front ++ numbers.flatMap packInt32) i numbers.length = some numbers := by
  induction numbers generalizing front i with
  | nil => rfl
  | cons number numbers ih =>
      obtain ⟨first, others⟩ := List.forall_mem_cons.mp fits
      obtain ⟨p0, p1, p2, p3, bytes, same⟩ := unpackInt32_packInt32 first.1 first.2
      rw [List.length_cons] at short
      have offset : toInt (4 * i) = front.length := by
        rw [toInt_eq]
        omega
      have rest : unpackLoop (front ++ packInt32 number ++ numbers.flatMap packInt32) (i + 1) numbers.length =
          some numbers := by
        refine ih others ?_ (by omega)
        rw [List.length_append, read, bytes]
        rfl
      have window : readInt32 (front ++ packInt32 number ++ numbers.flatMap packInt32) front.length =
          some number := by
        rw [readInt32, if_neg (Int.not_lt.mpr (Int.natCast_nonneg _)), Int.toNat_natCast, List.append_assoc,
          List.drop_left, bytes, ← same]
        rfl
      rw [List.flatMap_cons, ← List.append_assoc]
      have read := (congrArg (readInt32 _) offset).trans window
      exact Option.bind_eq_some_iff.mpr ⟨number, read, Option.bind_eq_some_iff.mpr ⟨numbers, rest, rfl⟩⟩

theorem unpackInt32List_flatMap {numbers : List ℤ} (fits : ∀ number ∈ numbers, Fits number)
    (short : numbers.length ≤ 536870912) : unpackInt32List (numbers.flatMap packInt32) = some numbers := by
  have count : (toInt ((numbers.flatMap packInt32).length / 4 : ℕ)).toNat = numbers.length := by
    rw [length_flatMap_packInt32, toInt_eq]
    omega
  rw [unpackInt32List, count]
  exact @unpackLoop_flatMap numbers fits [] 0 rfl (by omega)

theorem exists_packed {count : ℕ} {buffer : Bytes} (length : buffer.length = 4 * count) :
    ∃ numbers : List ℤ, numbers.length = count ∧ (∀ number ∈ numbers, Fits number) ∧
      buffer = numbers.flatMap packInt32 := by
  induction count generalizing buffer with
  | zero => exact ⟨[], rfl, nofun, List.length_eq_zero_iff.mp length⟩
  | succ count ih =>
      match buffer, length with
      | p0 :: p1 :: p2 :: p3 :: buffer, length =>
          simp only [List.length_cons] at length
          obtain ⟨numbers, enough, fits, rfl⟩ := @ih buffer (by omega)
          refine ⟨unpackInt32 p0 p1 p2 p3 :: numbers, by rw [List.length_cons, enough],
            List.forall_mem_cons.mpr ⟨?_, fits⟩, ?_⟩
          · have int := toInt_eq (Bytes.toNatLe [p0, p1, p2, p3])
            rw [← unpackInt32_eq] at int
            exact ⟨by omega, by omega⟩
          · rw [List.flatMap_cons, packInt32_unpackInt32]
            rfl
      | [], length | [_], length | [_, _], length | [_, _, _], length =>
          simp only [List.length_cons, List.length_nil] at length
          omega

section
variable {tonumber : String → Option Key}

theorem elem_int {numbers : List ℤ} (fits : ∀ number ∈ numbers, Fits number) :
    (List.range numbers.length).map (fun k : ℕ => elem tonumber (numbers.map .int) (1 + k)) = numbers.map some := by
  refine List.ext_getElem (by simp) fun k _ less => ?_
  rw [List.length_map] at less
  have fit := fits numbers[k] (List.getElem_mem less)
  have found : geti (numbers.map .int) (1 + k) = some (.int numbers[k]) := by
    rw [geti, if_pos (by omega), show (1 + (k : ℤ) - 1).toNat = k by omega, List.getElem?_map,
      List.getElem?_eq_getElem less, Option.map_some]
  rw [List.getElem_map, List.getElem_range, List.getElem_map, elem, found]
  exact if_neg (not_or.mpr ⟨not_le.mpr fit.2, not_lt.mpr fit.1⟩)

theorem packInt32List_eq {list : List Value} {fromPos toPos : Option ℤ} {count : ℕ}
    (range : (last list toPos - fromPos.getD 1 + 1).toNat = count) (short : count ≤ 536870912)
    (close : -9223372036854775808 ≤ last list toPos - fromPos.getD 1 + 1) :
    packInt32List tonumber list fromPos toPos =
      match packLoop tonumber list (fromPos.getD 1) count with
      | none => .raises
      | some buffer => .pushes buffer := by
  rw [packInt32List, range]
  cases packed : packLoop tonumber list (fromPos.getD 1) count with
  | none => rfl
  | some buffer =>
      obtain ⟨numbers, same, rfl⟩ := packLoop_eq_some.mp packed
      have length : count = numbers.length := by simpa using congrArg List.length same
      refine if_pos ?_
      rw [length_flatMap_packInt32, Int.bmod_def]
      omega

theorem raises_iff {list : List Value} {fromPos toPos : Option ℤ} :
    packInt32List tonumber list fromPos toPos = .raises ↔
      ∃ i ∈ positions list fromPos toPos, elem tonumber list i = none := by
  have loop : packInt32List tonumber list fromPos toPos = .raises ↔
      packLoop tonumber list (fromPos.getD 1) (last list toPos - fromPos.getD 1 + 1).toNat = none := by
    rw [packInt32List]
    cases packLoop tonumber list (fromPos.getD 1) (last list toPos - fromPos.getD 1 + 1).toNat with
    | none => exact ⟨fun _ => rfl, fun _ => rfl⟩
    | some buffer =>
        dsimp only
        split <;> exact ⟨nofun, nofun⟩
  simp only [loop, packLoop_eq_none, positions, List.mem_map, List.mem_range, exists_exists_and_eq_and]

end

/-- **Lists are packed and unpacked**, where the list has at most `2^29` elements and the range does not end `2^63`
positions before it begins: the call raises exactly when an element of the range is no integer of 32 bits, and what
it pushes otherwise is unpacked to these integers; and a byte string of whole integers is packed again. -/
theorem packed_right (tonumber : String → Option Key) :
    (∀ (list : List Value) (fromPos toPos : Option ℤ), list.length ≤ 536870912 →
      -9223372036854775808 ≤ last list toPos - fromPos.getD 1 + 1 →
      (packInt32List tonumber list fromPos toPos = .raises ↔
        ∃ i ∈ positions list fromPos toPos, elem tonumber list i = none) ∧
      (packInt32List tonumber list fromPos toPos ≠ .raises → ∃ buffer numbers,
        packInt32List tonumber list fromPos toPos = .pushes buffer ∧ unpackInt32List buffer = some numbers ∧
          (positions list fromPos toPos).map (elem tonumber list) = numbers.map some)) ∧
    ∀ buffer : Bytes, 4 ∣ buffer.length → buffer.length ≤ 2147483648 → ∃ numbers,
      unpackInt32List buffer = some numbers ∧
        packInt32List tonumber (numbers.map .int) none none = .pushes buffer := by
  refine ⟨fun list fromPos toPos short close => ⟨raises_iff, fun quiet => ?_⟩, fun buffer whole short => ?_⟩
  · -- a range that begins before the list raises, and so the range is not longer than the list
    have inside : (last list toPos - fromPos.getD 1 + 1).toNat ≤ 536870912 := by
      by_contra long
      have top : last list toPos ≤ list.length := min_le_right _ _
      have before : ¬ 1 ≤ fromPos.getD 1 := by omega
      refine quiet (raises_iff.mpr ⟨fromPos.getD 1, ?_, ?_⟩)
      · exact List.mem_map.mpr ⟨0, List.mem_range.mpr (by omega), by omega⟩
      · rw [elem, geti, if_neg before]
        rfl
    rw [packInt32List_eq rfl inside close] at quiet ⊢
    cases packed : packLoop tonumber list (fromPos.getD 1) (last list toPos - fromPos.getD 1 + 1).toNat with
    | none => exact absurd (by rw [packed]) quiet
    | some buffer =>
        obtain ⟨numbers, same, rfl⟩ := packLoop_eq_some.mp packed
        have fits : ∀ number ∈ numbers, Fits number := by
          intro number mem
          obtain ⟨k, -, packed⟩ := List.mem_map.mp (same ▸ List.mem_map_of_mem mem)
          exact fits_of_elem packed
        have length := congrArg List.length same
        simp only [List.length_map, List.length_range] at length
        exact ⟨_, numbers, rfl, unpackInt32List_flatMap fits (length ▸ inside), (List.map_map ..).trans same⟩
  · obtain ⟨count, length⟩ := whole
    obtain ⟨numbers, enough, fits, rfl⟩ := exists_packed length
    have top : last (numbers.map .int) none = numbers.length := by simp [last]
    refine ⟨numbers, unpackInt32List_flatMap fits (by omega), ?_⟩
    have call := @packInt32List_eq tonumber (numbers.map .int) none none numbers.length
      (by rw [top, Option.getD_none]; omega) (by omega) (by rw [top, Option.getD_none]; omega)
    have packed : packLoop tonumber (numbers.map .int) 1 numbers.length = some (numbers.flatMap packInt32) :=
      packLoop_eq_some.mpr ⟨numbers, elem_int fits, rfl⟩
    rw [call, Option.getD_none, packed]

/-- A text that denotes an integer. -/
def ten (text : String) : Option Key := if text = "10" then some (.int 10) else none

theorem packed_right_ten : packInt32List ten [.str "10", .int (-1)] none none ≠ .raises → ∃ buffer numbers,
    packInt32List ten [.str "10", .int (-1)] none none = .pushes buffer ∧ unpackInt32List buffer = some numbers ∧
      (positions [.str "10", .int (-1)] none none).map (elem ten [.str "10", .int (-1)]) = numbers.map some :=
  ((packed_right ten).1 [.str "10", .int (-1)] none none (by decide) (by decide)).2

/-- A text is no integer, and is packed. -/
theorem text_packed :
    ¬ (packInt32List ten [.str "10"] none none = .raises ↔
      ∃ i ∈ positions [.str "10"] none none, ∀ number, Fits number → geti [.str "10"] i ≠ some (.int number)) := by
  intro same
  obtain ⟨i, mem, bad⟩ := raises_iff.mp (same.mpr ⟨1, by decide, fun _ _ => nofun⟩)
  obtain rfl : i = 1 := by simpa [positions, last] using mem
  cases bad

end UEServer.BinUtils
