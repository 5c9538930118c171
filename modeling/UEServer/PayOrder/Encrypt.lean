import Mathlib.Data.Int.Cast.Basic
import Std.Data.String.ToNat

/-!
# Payment payloads

`encryptData` and `decryptData` of `service/world/pay_order.lua`.  Texts are lists of characters.
-/

namespace UEServer.PayOrder

/-- `tostring` of a natural number. -/
def tostring (number : ℕ) : List Char := Nat.toDigits 10 number

/-- `tonumber` of a decimal text. -/
def tonumber (text : List Char) : Option ℕ := (String.ofList text).toNat?

/-- `quick_split`: the longest runs of other characters. -/
def quickSplit (reps : Char) : List Char → List (List Char)
  | [] => []
  | char :: text =>
      if char = reps then quickSplit reps text
      else (char :: text.takeWhile (· ≠ reps)) :: quickSplit reps (text.dropWhile (· ≠ reps))
termination_by text => text.length
decreasing_by
  · exact Nat.lt_succ_self _
  · exact Nat.lt_succ_of_le (List.dropWhile_sublist _).length_le

/-- The byte of the key at an index of the data.  The key has none if it is empty, and Lua then divides by 0. -/
def keyAt (keys : List UInt8) (index : ℕ) : Option UInt8 := keys[(index - 1) % keys.length]?

def encryptLoop (keys : List UInt8) (result : List Char) (index : ℕ) : List UInt8 → Option (List Char)
  | [] => some result
  | value :: data => do
      let key ← keyAt keys index
      encryptLoop keys (result ++ '@' :: tostring (value.toNat + key.toNat)) (index + 1) data

def encryptData (data keys : List UInt8) : Option (List Char) := encryptLoop keys [] 1 data

def decryptLoop (keys : List UInt8) (result : List UInt8) (index : ℕ) : List (List Char) → Option (List UInt8)
  | [] => some result
  | value :: values => do
      let number ← tonumber value
      let key ← keyAt keys index
      let bytes : ℤ := number - key.toNat
      -- `string.char` takes bytes only
      if 0 ≤ bytes ∧ bytes ≤ 255 then decryptLoop keys (result ++ [UInt8.ofNat bytes.toNat]) (index + 1) values
      else none

def decryptData (data : List Char) (keys : List UInt8) : Option (List UInt8) :=
  decryptLoop keys [] 1 (quickSplit '@' data)

theorem tonumber_tostring (number : ℕ) : tonumber (tostring number) = some number :=
  Nat.toNat?_repr number

theorem tostring_plain (number : ℕ) : tostring number ≠ [] ∧ ∀ char ∈ tostring number, char ≠ '@' := by
  refine ⟨Nat.toDigits_ne_nil, fun char mem same => ?_⟩
  have digit := Nat.isDigit_of_mem_toDigits (by decide) (Nat.le_refl 10) mem
  rw [same] at digit
  cases digit

theorem quickSplit_flatMap (numbers : List ℕ) :
    quickSplit '@' (numbers.flatMap fun number => '@' :: tostring number) = numbers.map tostring := by
  induction numbers with
  | nil => rw [List.flatMap_nil, quickSplit, List.map_nil]
  | cons number numbers ih =>
      have behind : (numbers.flatMap fun number => '@' :: tostring number).takeWhile (· ≠ '@') = [] ∧
          (numbers.flatMap fun number => '@' :: tostring number).dropWhile (· ≠ '@') =
            numbers.flatMap fun number => '@' :: tostring number := by
        cases numbers <;> simp
      obtain ⟨taken, dropped⟩ := behind
      obtain ⟨nonempty, plain⟩ := tostring_plain number
      obtain ⟨first, digits, written⟩ := List.exists_cons_of_ne_nil nonempty
      rw [written] at plain
      obtain ⟨first_plain, digits_plain⟩ := List.forall_mem_cons.mp plain
      rw [List.flatMap_cons, List.cons_append, quickSplit, if_pos rfl, written, List.cons_append, quickSplit,
        if_neg first_plain, List.takeWhile_append_of_pos (by simpa using digits_plain), taken, List.append_nil,
        List.dropWhile_append_of_pos (by simpa using digits_plain), dropped, ih, List.map_cons, written]

/-- The sums of the bytes of the data and of the key. -/
def sums (keys : List UInt8) (index : ℕ) : List UInt8 → List ℕ
  | [] => []
  | value :: data => (value.toNat + ((keyAt keys index).getD 0).toNat) :: sums keys (index + 1) data

section
variable {keys : List UInt8} (nonempty : keys ≠ [])
include nonempty

theorem keyAt_eq (index : ℕ) : keyAt keys index = some ((keyAt keys index).getD 0) := by
  have inside : (index - 1) % keys.length < keys.length := Nat.mod_lt _ (List.length_pos_iff.mpr nonempty)
  rw [keyAt, List.getElem?_eq_getElem inside, Option.getD_some]

theorem encryptLoop_eq (result : List Char) (index : ℕ) (data : List UInt8) :
    encryptLoop keys result index data =
      some (result ++ (sums keys index data).flatMap fun number => '@' :: tostring number) := by
  induction data generalizing result index with
  | nil => rw [encryptLoop, sums, List.flatMap_nil, List.append_nil]
  | cons value data ih =>
      rw [encryptLoop, keyAt_eq nonempty index]
      change encryptLoop keys _ (index + 1) data = _
      rw [ih, sums, List.flatMap_cons, List.append_assoc]

theorem decryptLoop_sums (result : List UInt8) (index : ℕ) (data : List UInt8) :
    decryptLoop keys result index ((sums keys index data).map tostring) = some (result ++ data) := by
  induction data generalizing result index with
  | nil => rw [sums, List.map_nil, decryptLoop, List.append_nil]
  | cons value data ih =>
      have byte := value.toNat_lt
      rw [sums, List.map_cons, decryptLoop, tonumber_tostring, keyAt_eq nonempty index]
      simp only [Option.bind_eq_bind, Option.bind_some, Option.getD_some, Int.natCast_add, Int.add_sub_cancel]
      rw [if_pos (by omega), Int.toNat_natCast, UInt8.ofNat_toNat, ih, List.append_assoc, List.singleton_append]

end

/-- **Decryption undoes encryption.** -/
theorem decryptData_encryptData {keys : List UInt8} (nonempty : keys ≠ []) (data : List UInt8) :
    (encryptData data keys).bind (fun text => decryptData text keys) = some data := by
  rw [encryptData, encryptLoop_eq nonempty, Option.bind_some, List.nil_append, decryptData, quickSplit_flatMap,
    decryptLoop_sums nonempty, List.nil_append]

theorem decryptData_encryptData_maximal :
    (encryptData [255, 0, 255] [255, 1]).bind (fun text => decryptData text [255, 1]) = some [255, 0, 255] :=
  decryptData_encryptData (by decide) _

end UEServer.PayOrder
