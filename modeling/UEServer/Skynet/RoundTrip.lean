import UEServer.Skynet.Seri

/-!
# Serialized values come back

What `unpack` reads from what `pack` wrote are the values that were packed.
-/

namespace UEServer.Skynet

section
variable {type cookie : Nat} (type_lt : type < 8) (cookie_lt : cookie < 32)
include type_lt cookie_lt

theorem combineType_toNat : (combineType type cookie).toNat = cookie * 8 + type := by
  have shifted : type ||| cookie <<< 3 = cookie * 8 + type := by
    rw [Nat.or_comm, ← Nat.shiftLeft_add_eq_or_of_lt type_lt, Nat.shiftLeft_eq]
  rw [combineType, shifted, UInt8.toNat_ofNat']
  exact Nat.mod_eq_of_lt (by omega)

theorem combineType_type : (combineType type cookie).toNat &&& 7 = type := by
  rw [combineType_toNat type_lt cookie_lt, Nat.and_two_pow_sub_one_eq_mod _ 3]
  omega

theorem combineType_cookie : (combineType type cookie).toNat >>> 3 = cookie := by
  rw [combineType_toNat type_lt cookie_lt, Nat.shiftRight_eq_div_pow]
  omega

end

theorem getInteger_wbInteger (value : BitVec 64) :
    ∃ cookie tail, cookie < 8 ∧ wbInteger value = combineType 2 cookie :: tail ∧
      ∀ rest, getInteger cookie (tail ++ rest) = some (value, rest) := by
  unfold wbInteger
  split
  · rename_i zero
    exact ⟨0, [], by omega, rfl, fun rest => by rw [zero]; rfl⟩
  · split
    · refine ⟨6, _, by omega, rfl, fun rest => ?_⟩
      have fits : value.toNat < 256 ^ 8 := value.isLt
      simp only [getInteger, Bytes.read_append_of_length rest (Bytes.length_ofNatLe 8 value.toNat)]
      simp [Bytes.toNatLe_ofNatLe_of_lt fits]
    · rename_i narrow
      have narrow : (value.setWidth 32).signExtend 64 = value := by
        simpa using (not_not.mp narrow).symm
      have dword : ∀ rest, getInteger 4
          (Bytes.ofNatLe 4 (value.setWidth 32).toNat ++ rest) = some (value, rest) := by
        intro rest
        have fits : (value.setWidth 32).toNat < 256 ^ 4 := (value.setWidth 32).isLt
        have back : BitVec.ofNat 32 (Bytes.ofNatLe 4 (value.setWidth 32).toNat).toNatLe =
            value.setWidth 32 := by
          rw [Bytes.toNatLe_ofNatLe_of_lt fits, BitVec.ofNat_toNat, BitVec.setWidth_eq]
        simp only [getInteger, Bytes.read_append_of_length rest
          (Bytes.length_ofNatLe 4 (value.setWidth 32).toNat), Option.bind_eq_bind,
          Option.bind_some, back, narrow]
        rfl
      split
      · exact ⟨4, _, by omega, rfl, dword⟩
      · split
        · rename_i byte
          have fits : value.toNat < 256 ^ 1 := byte
          refine ⟨1, _, by omega, rfl, fun rest => ?_⟩
          simp only [getInteger,
            Bytes.read_append_of_length rest (Bytes.length_ofNatLe 1 value.toNat)]
          simp [Bytes.toNatLe_ofNatLe_of_lt fits]
        · split
          · rename_i word
            have fits : value.toNat < 256 ^ 2 := word
            refine ⟨2, _, by omega, rfl, fun rest => ?_⟩
            simp only [getInteger,
              Bytes.read_append_of_length rest (Bytes.length_ofNatLe 2 value.toNat)]
            simp [Bytes.toNatLe_ofNatLe_of_lt fits]
          · exact ⟨4, _, by omega, rfl, dword⟩

theorem getString_append (bytes rest : Bytes) :
    getString bytes.length (bytes ++ rest) = some (.string bytes, rest) := by
  simp [getString, Bytes.read_append]

/-- What is packed is read as the value, whatever follows. -/
def Reads (packed : Bytes) (value : Value) : Prop :=
  ∀ depth rest, packed.length ≤ depth → unpackOne depth (packed ++ rest) = some (value, rest)

theorem reads_of_pushValue {type cookie : Nat} {tail : Bytes} {value : Value} (type_lt : type < 8)
    (cookie_lt : cookie < 32)
    (pushed : ∀ read rest, pushValue read type cookie (tail ++ rest) = some (value, rest)) :
    Reads (combineType type cookie :: tail) value := by
  intro depth rest enough
  obtain ⟨depth, rfl⟩ : ∃ less, depth = less + 1 := ⟨depth - 1, by simp at enough; omega⟩
  rw [List.cons_append, unpackOne, combineType_type type_lt cookie_lt,
    combineType_cookie type_lt cookie_lt]
  exact pushed _ rest

theorem reads_nil : Reads [combineType 0 0] .nil :=
  reads_of_pushValue (by omega) (by omega) fun _ _ => rfl

theorem reads_wbInteger (value : BitVec 64) : Reads (wbInteger value) (.integer value) := by
  obtain ⟨cookie, tail, cookie_lt, packed, read⟩ := getInteger_wbInteger value
  rw [packed]
  refine reads_of_pushValue (by omega) (by omega) fun _ rest => ?_
  have integral : cookie ≠ 8 := by omega
  simp [pushValue, integral, read rest]

theorem reads_wbString {bytes : Bytes} (short : bytes.length < 2 ^ 31) :
    Reads (wbString bytes) (.string bytes) := by
  unfold wbString
  split
  · rename_i cookie
    exact reads_of_pushValue (by omega) cookie fun _ rest => getString_append bytes rest
  · split
    · rename_i word
      have fits : bytes.length < 256 ^ 2 := word
      refine reads_of_pushValue (by omega) (by omega) fun _ rest => ?_
      have read := Bytes.read_append_of_length (bytes ++ rest)
        (Bytes.length_ofNatLe 2 bytes.length)
      simp [pushValue, read, Bytes.toNatLe_ofNatLe_of_lt fits, getString_append]
    · refine reads_of_pushValue (by omega) (by omega) fun _ rest => ?_
      have fits : bytes.length < 256 ^ 4 := by omega
      have read := Bytes.read_append_of_length (bytes ++ rest)
        (Bytes.length_ofNatLe 4 bytes.length)
      simp [pushValue, read, Bytes.toNatLe_ofNatLe_of_lt fits, getString_append]

theorem length_le_wbString (bytes : Bytes) : bytes.length ≤ (wbString bytes).length := by
  unfold wbString
  split
  · simp
  · split
    · simp
      omega
    · simp
      omega

theorem getArraySize_wbArraySize {size : Nat} (short : size < 2 ^ 31) :
    ∃ cookie tail, cookie < 32 ∧ wbArraySize size = combineType 6 cookie :: tail ∧
      ∀ rest, getArraySize cookie (tail ++ rest) = some (size, rest) := by
  unfold wbArraySize
  split
  · obtain ⟨cookie, tail, cookie_lt, packed, read⟩ := getInteger_wbInteger (BitVec.ofNat 64 size)
    refine ⟨maxCookie - 1, _, by decide, rfl, fun rest => ?_⟩
    have positive : ((BitVec.ofNat 64 size).setWidth 32).toInt = size := by
      rw [BitVec.toInt_eq_toNat_of_lt]
      · simp
        omega
      · simp
        omega
    have integral : cookie ≠ 8 := by omega
    rw [packed, List.cons_append, getArraySize, if_pos rfl]
    simp only [combineType_type (show 2 < 8 by omega) (show cookie < 32 by omega),
      combineType_cookie (show 2 < 8 by omega) (show cookie < 32 by omega), read rest]
    simp only [ne_eq, not_true_eq_false, integral, or_self, if_false, Option.bind_eq_bind,
      Option.bind_some, positive]
    rfl
  · rename_i cookie
    have cookie : size < maxCookie - 1 := not_le.mp cookie
    refine ⟨size, [], ?_, rfl, fun rest => ?_⟩
    · exact cookie.trans (by decide)
    · unfold getArraySize
      rw [if_neg cookie.ne]
      rfl

theorem wbInteger_length_pos (value : BitVec 64) : 0 < (wbInteger value).length := by
  obtain ⟨cookie, tail, -, packed, -⟩ := getInteger_wbInteger value
  rw [packed]
  exact Nat.succ_pos _

theorem isNil_of_isKey {value : Value} (key : value.isKey) : value.isNil = false := by
  cases value with
  | nil => cases key
  | _ => rfl

theorem packOne_length_pos {value : Value} {depth : Nat} {packed : Bytes}
    (written : packOne value depth = some packed) : 0 < packed.length := by
  unfold packOne at written
  split at written
  · cases written
  · cases value with
    | nil | boolean _ | real _ | userdata _ =>
        cases written
        exact Nat.succ_pos _
    | integer value =>
        cases written
        exact wbInteger_length_pos value
    | string bytes =>
        cases written
        unfold wbString
        split
        · exact Nat.succ_pos _
        · split <;> exact Nat.succ_pos _
    | table array hash =>
        obtain ⟨items, -, written⟩ := Option.bind_eq_some_iff.mp written
        obtain ⟨pairs, -, written⟩ := Option.bind_eq_some_iff.mp written
        cases written
        simp

theorem length_le_packItems {values : List Value} {depth : Nat} {packed : Bytes}
    (written : packItems values depth = some packed) : values.length ≤ packed.length := by
  induction values generalizing packed with
  | nil => exact Nat.zero_le _
  | cons value values ih =>
      obtain ⟨front, first, written⟩ := Option.bind_eq_some_iff.mp written
      obtain ⟨others, later, written⟩ := Option.bind_eq_some_iff.mp written
      cases written
      have positive := packOne_length_pos first
      have enough := ih later
      rw [List.length_append, List.length_cons]
      omega

theorem reads_table {array : List Value} {hash : List (Value × Value)} {items pairs : Bytes}
    (array_short : array.length < 2 ^ 31)
    (read_items : ∀ depth rest, items.length ≤ depth →
      unpackItems (unpackOne depth) array.length (items ++ rest) = some (array, rest))
    (read_pairs : ∀ depth rounds rest, pairs.length < depth → pairs.length < rounds →
      unpackPairs (unpackOne depth) rounds (pairs ++ combineType 0 0 :: rest) =
        some (hash, rest)) :
    Reads (wbArraySize array.length ++ items ++ pairs ++ [combineType 0 0])
      (.table array hash) := by
  intro depth rest enough
  obtain ⟨cookie, tail, cookie_lt, packed, read⟩ := getArraySize_wbArraySize array_short
  rw [packed] at enough ⊢
  simp only [List.length_append, List.length_cons, List.length_nil] at enough
  obtain ⟨depth, rfl⟩ : ∃ less, depth = less + 1 := ⟨depth - 1, by omega⟩
  simp only [List.append_assoc, List.cons_append, List.nil_append]
  rw [unpackOne, combineType_type (by omega) cookie_lt, combineType_cookie (by omega) cookie_lt]
  simp only [pushValue, unpackTable, read, Option.bind_eq_bind, Option.bind_some]
  rw [read_items depth _ (by omega), Option.bind_some,
    read_pairs depth _ rest (by omega) (by simp)]
  rfl

mutual

theorem reads_packOne : ∀ {value : Value} {depth : Nat} {packed : Bytes}, value.valid →
    packOne value depth = some packed → packed.length < 2 ^ 31 → Reads packed value
  | .table array hash, depth, packed, valid, written, short => by
      obtain ⟨valid_items, valid_pairs⟩ := Bool.and_eq_true_iff.mp valid
      rw [packOne] at written
      split at written
      · cases written
      · obtain ⟨items, written_items, written⟩ := Option.bind_eq_some_iff.mp written
        obtain ⟨pairs, written_pairs, written⟩ := Option.bind_eq_some_iff.mp written
        obtain rfl := Option.some.inj written
        simp only [List.length_append] at short
        have enough := length_le_packItems written_items
        exact reads_table (by omega)
          (reads_packItems valid_items written_items (by omega))
          (reads_packPairs valid_pairs written_pairs (by omega))
  | .nil, depth, packed, _, written, _ => by
      rw [packOne] at written
      split at written
      · cases written
      · obtain rfl := Option.some.inj written
        exact reads_nil
  | .boolean value, depth, packed, _, written, _ => by
      rw [packOne] at written
      split at written
      · cases written
      · obtain rfl := Option.some.inj written
        refine reads_of_pushValue (by omega) (Bool.toNat_lt value |>.trans (by omega)) ?_
        intro _ rest
        cases value <;> rfl
  | .integer value, depth, packed, _, written, _ => by
      rw [packOne] at written
      split at written
      · cases written
      · obtain rfl := Option.some.inj written
        exact reads_wbInteger value
  | .real bits, depth, packed, _, written, _ => by
      rw [packOne] at written
      split at written
      · cases written
      · obtain rfl := Option.some.inj written
        refine reads_of_pushValue (by omega) (by omega) fun _ rest => ?_
        have fits : bits.toNat < 256 ^ 8 := bits.isLt
        have read := Bytes.read_append_of_length rest (Bytes.length_ofNatLe 8 bits.toNat)
        simp [pushValue, read, Bytes.toNatLe_ofNatLe_of_lt fits]
  | .userdata pointer, depth, packed, _, written, _ => by
      rw [packOne] at written
      split at written
      · cases written
      · obtain rfl := Option.some.inj written
        refine reads_of_pushValue (by omega) (by omega) fun _ rest => ?_
        have fits : pointer.toNat < 256 ^ 8 := pointer.isLt
        have read := Bytes.read_append_of_length rest (Bytes.length_ofNatLe 8 pointer.toNat)
        simp [pushValue, read, Bytes.toNatLe_ofNatLe_of_lt fits]
  | .string bytes, depth, packed, _, written, short => by
      rw [packOne] at written
      split at written
      · cases written
      · obtain rfl := Option.some.inj written
        refine reads_wbString (lt_of_le_of_lt ?_ short)
        exact length_le_wbString bytes

theorem reads_packItems : ∀ {values : List Value} {depth : Nat} {packed : Bytes},
    validItems values → packItems values depth = some packed → packed.length < 2 ^ 31 →
      ∀ depth rest, packed.length ≤ depth →
        unpackItems (unpackOne depth) values.length (packed ++ rest) = some (values, rest)
  | [], _, packed, _, written, _ => by
      intro depth rest enough
      obtain rfl := Option.some.inj written
      rfl
  | value :: values, _, packed, valid, written, short => by
      intro depth rest enough
      obtain ⟨valid_value, valid_values⟩ := Bool.and_eq_true_iff.mp valid
      obtain ⟨front, first, written⟩ := Option.bind_eq_some_iff.mp written
      obtain ⟨others, later, written⟩ := Option.bind_eq_some_iff.mp written
      obtain rfl := Option.some.inj written
      rw [List.length_append] at short enough
      have read := reads_packOne valid_value first (by omega) depth (others ++ rest) (by omega)
      have read_others := reads_packItems valid_values later (by omega) depth rest (by omega)
      rw [List.length_cons, unpackItems, List.append_assoc]
      simp only [read, read_others, Option.bind_eq_bind, Option.bind_some]
      rfl

theorem reads_packPairs : ∀ {pairs : List (Value × Value)} {depth : Nat} {packed : Bytes},
    validPairs pairs → packPairs pairs depth = some packed → packed.length < 2 ^ 31 →
      ∀ depth rounds rest, packed.length < depth → packed.length < rounds →
        unpackPairs (unpackOne depth) rounds (packed ++ combineType 0 0 :: rest) =
          some (pairs, rest)
  | [], _, packed, _, written, _ => by
      intro depth rounds rest deep enough
      obtain rfl := Option.some.inj written
      obtain ⟨rounds, rfl⟩ : ∃ less, rounds = less + 1 := ⟨rounds - 1, by omega⟩
      have read := reads_nil depth rest deep
      rw [List.singleton_append] at read
      rw [List.nil_append, unpackPairs]
      simp only [read, Option.bind_eq_bind, Option.bind_some]
      rfl
  | (key, value) :: pairs, _, packed, valid, written, short => by
      intro depth rounds rest deep enough
      obtain ⟨valid, valid_pairs⟩ := Bool.and_eq_true_iff.mp valid
      obtain ⟨valid, valid_value⟩ := Bool.and_eq_true_iff.mp valid
      obtain ⟨is_key, valid_key⟩ := Bool.and_eq_true_iff.mp valid
      obtain ⟨front, first, written⟩ := Option.bind_eq_some_iff.mp written
      obtain ⟨middle, second, written⟩ := Option.bind_eq_some_iff.mp written
      obtain ⟨others, later, written⟩ := Option.bind_eq_some_iff.mp written
      obtain rfl := Option.some.inj written
      have positive := packOne_length_pos first
      simp only [List.length_append] at short deep enough
      obtain ⟨rounds, rfl⟩ : ∃ less, rounds = less + 1 := ⟨rounds - 1, by omega⟩
      have read_key := reads_packOne valid_key first (by omega) depth
        (middle ++ (others ++ combineType 0 0 :: rest)) (by omega)
      have read_value := reads_packOne valid_value second (by omega) depth
        (others ++ combineType 0 0 :: rest) (by omega)
      have read_others := reads_packPairs valid_pairs later (by omega) depth rounds rest
        (by omega) (by omega)
      rw [unpackPairs, List.append_assoc, List.append_assoc]
      simp only [read_key, read_value, read_others, Option.bind_eq_bind, Option.bind_some,
        isNil_of_isKey is_key, is_key]
      rfl

end

theorem unpackValues_packItems {values : List Value} {depth : Nat} {packed : Bytes}
    (valid : validItems values) (written : packItems values depth = some packed)
    (short : packed.length < 2 ^ 31) {deep rounds : Nat} (deep_enough : packed.length ≤ deep)
    (enough : packed.length ≤ rounds) :
    unpackValues (unpackOne deep) rounds packed = some values := by
  induction values generalizing packed rounds with
  | nil =>
      cases written
      rw [unpackValues.eq_def]
  | cons value values ih =>
      obtain ⟨valid_value, valid_values⟩ := Bool.and_eq_true_iff.mp valid
      obtain ⟨front, first, written⟩ := Option.bind_eq_some_iff.mp written
      obtain ⟨others, later, written⟩ := Option.bind_eq_some_iff.mp written
      cases written
      have positive := packOne_length_pos first
      rw [List.length_append] at short deep_enough enough
      obtain ⟨rounds, rfl⟩ : ∃ less, rounds = less + 1 := ⟨rounds - 1, by omega⟩
      have read := reads_packOne valid_value first (by omega) deep others (by omega)
      obtain ⟨head, tail, rfl⟩ := List.exists_cons_of_length_pos positive
      rw [List.cons_append] at read ⊢
      rw [unpackValues]
      simp only [read, ih valid_values later (by omega) (by omega) (show _ ≤ rounds by
        omega), Option.bind_eq_bind, Option.bind_some]
      rfl

theorem packItems_of_pack {values : List Value} {packed : Bytes}
    (packs : pack values = some packed) :
    packItems values 0 = some packed ∧ packed.length < 2 ^ 31 := by
  obtain ⟨bytes, written, bounded⟩ := Option.bind_eq_some_iff.mp packs
  split at bounded
  · rename_i short
    cases bounded
    exact ⟨written, short⟩
  · cases bounded

theorem unpack_pack {values : List Value} {packed : Bytes} (valid : validItems values)
    (packs : pack values = some packed) : unpack packed = some values := by
  obtain ⟨written, short⟩ := packItems_of_pack packs
  exact unpackValues_packItems valid written short le_rfl le_rfl

end UEServer.Skynet
