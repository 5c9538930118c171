import UEServer.Skynet.RoundTrip

/-!
# Plain Lua data

The tables of which the configuration consists: their keys are strings and numbers, their values
booleans, numbers, strings and tables.  What `skynet.packstring` and `skynet.unpack` do with them.
-/

namespace UEServer.ExcelData

/-- A key of a table.  A float with the value of an integer is that integer. -/
inductive Key where
  | integer (value : BitVec 64)
  | real (bits : BitVec 64)
  | string (bytes : Bytes)
  deriving DecidableEq

/-- A value of a table, or `nil`.  A table is given by its values with the keys from one to its length,
some of which may be `nil`, and by its other entries. -/
inductive Data where
  | nil
  | boolean (value : Bool)
  | integer (value : BitVec 64)
  | real (bits : BitVec 64)
  | string (bytes : Bytes)
  | table (array : List Data) (hash : List (Key × Data))

namespace Data

/-- The value is `nil`. -/
def isNil : Data → Bool
  | .nil => true
  | _ => false

/-- `type(value) == 'table'`. -/
def isTable : Data → Bool
  | .table _ _ => true
  | _ => false

/-- The entries of the array of a table, from a position on. -/
def itemPairs : ℕ → List Data → List (Key × Data)
  | _, [] => []
  | position, value :: values =>
      if value.isNil then itemPairs (position + 1) values
      else (.integer (BitVec.ofNat 64 position), value) :: itemPairs (position + 1) values

/-- `pairs`, on a table. -/
def pairs : Data → List (Key × Data)
  | .table array hash => itemPairs 1 array ++ hash
  | _ => []

/-- The keys of a table, in the order of `pairs`. -/
def keys (value : Data) : List Key :=
  value.pairs.map Prod.fst

/-- `#`, on a table. -/
def length : Data → ℕ
  | .table array _ => array.length
  | _ => 0

/-- The value under a key in a list of entries. -/
def lookup (key : Key) : List (Key × Data) → Data
  | [] => .nil
  | (other, value) :: entries => if other = key then value else lookup key entries

def index (value : Data) (key : Key) : Data :=
  lookup key value.pairs

/-- The value at the end of a path.  Only a table can be indexed. -/
def read : Data → List Key → Option Data
  | value, [] => some value
  | value, key :: path => if value.isTable then (value.index key).read path else none

end Data

def Key.isKey : Key → Bool
  | .real bits => !Skynet.isNaN bits
  | _ => true

mutual

/-- The tables in the value are tables: their keys are different from each other, and their entries are
not `nil`. -/
def Data.Valid : Data → Prop
  | .table array hash =>
      ((Data.itemPairs 1 array ++ hash).map Prod.fst).Nodup ∧ ValidItems array ∧ ValidEntries hash
  | _ => True

def ValidItems : List Data → Prop
  | [] => True
  | value :: values => value.Valid ∧ ValidItems values

/-- The keys can be keys, and the values are there. -/
def ValidEntries : List (Key × Data) → Prop
  | [] => True
  | (key, value) :: entries =>
      key.isKey ∧ value.isNil = false ∧ value.Valid ∧ ValidEntries entries

end

def Key.toValue : Key → Skynet.Value
  | .integer value => .integer value
  | .real bits => .real bits
  | .string bytes => .string bytes

def Key.ofValue : Skynet.Value → Option Key
  | .integer value => some (.integer value)
  | .real bits => some (.real bits)
  | .string bytes => some (.string bytes)
  | _ => none

mutual

def Data.toValue : Data → Skynet.Value
  | .nil => .nil
  | .boolean value => .boolean value
  | .integer value => .integer value
  | .real bits => .real bits
  | .string bytes => .string bytes
  | .table array hash => .table (toItems array) (toEntries hash)

/-- The values of an array as values that can be packed. -/
def toItems : List Data → List Skynet.Value
  | [] => []
  | value :: values => value.toValue :: toItems values

def toEntries : List (Key × Data) → List (Skynet.Value × Skynet.Value)
  | [] => []
  | (key, value) :: entries => (key.toValue, value.toValue) :: toEntries entries

end

mutual

/-- The data that an unpacked value is. -/
def Data.ofValue : Skynet.Value → Option Data
  | .nil => some .nil
  | .boolean value => some (.boolean value)
  | .integer value => some (.integer value)
  | .real bits => some (.real bits)
  | .userdata _ => none
  | .string bytes => some (.string bytes)
  | .table array hash => do
      let array ← ofItems array
      let hash ← ofEntries hash
      return .table array hash

def ofItems : List Skynet.Value → Option (List Data)
  | [] => some []
  | value :: values => do
      let value ← Data.ofValue value
      let values ← ofItems values
      return value :: values

def ofEntries : List (Skynet.Value × Skynet.Value) → Option (List (Key × Data))
  | [] => some []
  | (key, value) :: entries => do
      let key ← Key.ofValue key
      let value ← Data.ofValue value
      let entries ← ofEntries entries
      return (key, value) :: entries

end

/-- `skynet.packstring`, which raises for tables too deep in each other. -/
def packstring (value : Data) : Option Bytes :=
  Skynet.pack [value.toValue]

/-- `skynet.unpack`, of one value. -/
def unpack (bytes : Bytes) : Option Data := do
  let values ← Skynet.unpack bytes
  match values with
  | [value] => Data.ofValue value
  | _ => none

theorem Key.ofValue_toValue (key : Key) : Key.ofValue key.toValue = some key := by
  cases key <;> rfl

mutual

theorem ofValue_toValue : ∀ value : Data, Data.ofValue value.toValue = some value
  | .nil | .boolean _ | .integer _ | .real _ | .string _ => rfl
  | .table array hash => by
      simp only [Data.toValue, Data.ofValue, ofItems_toItems array, ofEntries_toEntries hash,
        Option.bind_eq_bind, Option.bind_some]
      rfl

theorem ofItems_toItems : ∀ values : List Data, ofItems (toItems values) = some values
  | [] => rfl
  | value :: values => by
      simp only [toItems, ofItems, ofValue_toValue value, ofItems_toItems values,
        Option.bind_eq_bind, Option.bind_some]
      rfl

theorem ofEntries_toEntries : ∀ entries : List (Key × Data),
    ofEntries (toEntries entries) = some entries
  | [] => rfl
  | (key, value) :: entries => by
      simp only [toEntries, ofEntries, Key.ofValue_toValue key, ofValue_toValue value,
        ofEntries_toEntries entries, Option.bind_eq_bind, Option.bind_some]
      rfl

end

mutual

theorem valid_toValue : ∀ value : Data, value.Valid → value.toValue.valid = true
  | .nil, _ | .boolean _, _ | .integer _, _ | .real _, _ | .string _, _ => rfl
  | .table array hash, valid => by
      simp only [Data.toValue, Skynet.Value.valid, validItems_toItems array valid.2.1,
        validPairs_toEntries hash valid.2.2, Bool.and_self]

theorem validItems_toItems : ∀ values : List Data, ValidItems values →
    Skynet.validItems (toItems values) = true
  | [], _ => rfl
  | value :: values, valid => by
      simp only [toItems, Skynet.validItems, valid_toValue value valid.1,
        validItems_toItems values valid.2, Bool.and_self]

theorem validPairs_toEntries : ∀ entries : List (Key × Data), ValidEntries entries →
    Skynet.validPairs (toEntries entries) = true
  | [], _ => rfl
  | (key, value) :: entries, valid => by
      have isKey : key.toValue.isKey = true := by
        cases key with
        | integer => rfl
        | real bits => exact valid.1
        | string => rfl
      have plain : key.toValue.valid = true := by cases key <;> rfl
      simp only [toEntries, Skynet.validPairs, isKey, plain, valid_toValue value valid.2.2.1,
        validPairs_toEntries entries valid.2.2.2, Bool.and_self]

end

theorem unpack_packstring {value : Data} {bytes : Bytes} (valid : value.Valid)
    (packs : packstring value = some bytes) : unpack bytes = some value := by
  have whole : Skynet.validItems [value.toValue] = true := by
    simp only [Skynet.validItems, valid_toValue value valid, Bool.and_self]
  rw [unpack, Skynet.unpack_pack whole packs]
  exact ofValue_toValue value

end UEServer.ExcelData
