import Mathlib.Tactic.Ring

/-!
# Byte strings

Naturals as a fixed number of bytes, in both orders, and the reader of a given number of bytes.
-/

/-- A byte string. -/
abbrev Bytes := List UInt8

namespace Bytes

/-- The lowest bytes of a natural, the lowest first. -/
def ofNatLe : Nat → Nat → Bytes
  | 0, _ => []
  | width + 1, value => UInt8.ofNat value :: ofNatLe width (value / 256)

/-- The natural with the bytes, the lowest first. -/
def toNatLe : Bytes → Nat
  | [] => 0
  | byte :: bytes => byte.toNat + 256 * toNatLe bytes

/-- The lowest bytes of a natural, the highest first. -/
def ofNatBe (width value : Nat) : Bytes :=
  (ofNatLe width value).reverse

/-- The natural with the bytes, the highest first. -/
def toNatBe (bytes : Bytes) : Nat :=
  toNatLe bytes.reverse

@[simp]
theorem length_ofNatLe (width value : Nat) : (ofNatLe width value).length = width := by
  induction width generalizing value with
  | zero => rfl
  | succ width ih => rw [ofNatLe, List.length_cons, ih]

@[simp]
theorem length_ofNatBe (width value : Nat) : (ofNatBe width value).length = width := by
  rw [ofNatBe, List.length_reverse, length_ofNatLe]

theorem toNatLe_ofNatLe (width value : Nat) :
    toNatLe (ofNatLe width value) = value % 256 ^ width := by
  induction width generalizing value with
  | zero => rw [ofNatLe, toNatLe, pow_zero, Nat.mod_one]
  | succ width ih =>
      rw [ofNatLe, toNatLe, ih, UInt8.toNat_ofNat', pow_succ' 256]
      exact Nat.mod_mul.symm

theorem toNatLe_ofNatLe_of_lt {width value : Nat} (fits : value < 256 ^ width) :
    toNatLe (ofNatLe width value) = value := by
  rw [toNatLe_ofNatLe, Nat.mod_eq_of_lt fits]

theorem toNatLe_lt (bytes : Bytes) : toNatLe bytes < 256 ^ bytes.length := by
  induction bytes with
  | nil => exact Nat.zero_lt_one
  | cons byte bytes ih =>
      have less := byte.toNat_lt
      rw [toNatLe, List.length_cons, pow_succ]
      omega

theorem ofNatLe_toNatLe (bytes : Bytes) : ofNatLe bytes.length (toNatLe bytes) = bytes := by
  induction bytes with
  | nil => rfl
  | cons byte bytes ih =>
      have less := byte.toNat_lt
      have first : UInt8.ofNat (byte.toNat + 256 * toNatLe bytes) = byte := by
        apply UInt8.toNat_inj.mp
        rw [UInt8.toNat_ofNat']
        omega
      have rest : (byte.toNat + 256 * toNatLe bytes) / 256 = toNatLe bytes := by omega
      rw [List.length_cons, ofNatLe, toNatLe, first, rest, ih]

theorem toNatBe_ofNatBe_of_lt {width value : Nat} (fits : value < 256 ^ width) :
    toNatBe (ofNatBe width value) = value := by
  rw [toNatBe, ofNatBe, List.reverse_reverse, toNatLe_ofNatLe_of_lt fits]

/-- The bytes of a string of ASCII characters. -/
def ofAscii (text : String) : Bytes :=
  text.toList.map fun char => UInt8.ofNat char.toNat

/-- The first bytes and the others, if there are enough. -/
def read (count : Nat) (bytes : Bytes) : Option (Bytes × Bytes) :=
  if count ≤ bytes.length then some (bytes.take count, bytes.drop count) else none

theorem read_append (front rest : Bytes) : read front.length (front ++ rest) = some (front, rest) := by
  have enough : front.length ≤ (front ++ rest).length := by simp
  rw [read, if_pos enough, List.take_left, List.drop_left]

theorem read_append_of_length {count : Nat} {front : Bytes} (rest : Bytes)
    (length : front.length = count) : read count (front ++ rest) = some (front, rest) := by
  rw [← length, read_append]

end Bytes
