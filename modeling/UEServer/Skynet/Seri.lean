import UEServer.Library.Bytes

/-!
# Serialized Lua values

`lualib-src/lua-seri.c` of skynet: `pack` and `unpack`.  Integers and lengths are written as the
host has them in memory, which is with the lowest byte first.
-/

namespace UEServer.Skynet

/-- A Lua value that can be serialized.  A table is given by its entries with the keys from one to
its length, and by the other entries in the order of `lua_next`. -/
inductive Value where
  | nil
  | boolean (value : Bool)
  | integer (value : BitVec 64)
  | real (bits : BitVec 64)
  | userdata (pointer : BitVec 64)
  | string (bytes : Bytes)
  | table (array : List Value) (hash : List (Value × Value))

/-- `lua_isnil`. -/
def Value.isNil : Value → Bool
  | .nil => true
  | _ => false

def isNaN (bits : BitVec 64) : Bool :=
  bits.extractLsb' 52 11 == BitVec.allOnes 11 && bits.extractLsb' 0 52 != 0

def Value.isKey : Value → Bool
  | .nil => false
  | .real bits => !isNaN bits
  | _ => true

mutual

def Value.valid : Value → Bool
  | .table array hash => validItems array && validPairs hash
  | _ => true

def validItems : List Value → Bool
  | [] => true
  | value :: values => value.valid && validItems values

/-- The keys can be keys, and the tables in the entries are tables. -/
def validPairs : List (Value × Value) → Bool
  | [] => true
  | (key, value) :: pairs => key.isKey && key.valid && value.valid && validPairs pairs

end

def combineType (type cookie : Nat) : UInt8 :=
  UInt8.ofNat (type ||| cookie <<< 3)

def maxCookie : Nat := 32

def maxDepth : Nat := 32

def wbInteger (value : BitVec 64) : Bytes :=
  if value = 0 then [combineType 2 0]
  else if value ≠ (value.setWidth 32).signExtend 64 then
    combineType 2 6 :: Bytes.ofNatLe 8 value.toNat
  else if value.slt 0 then combineType 2 4 :: Bytes.ofNatLe 4 (value.setWidth 32).toNat
  else if value.toNat < 0x100 then combineType 2 1 :: Bytes.ofNatLe 1 value.toNat
  else if value.toNat < 0x10000 then combineType 2 2 :: Bytes.ofNatLe 2 value.toNat
  else combineType 2 4 :: Bytes.ofNatLe 4 (value.setWidth 32).toNat

def wbString (bytes : Bytes) : Bytes :=
  if bytes.length < maxCookie then combineType 4 bytes.length :: bytes
  else if bytes.length < 0x10000 then
    combineType 5 2 :: (Bytes.ofNatLe 2 bytes.length ++ bytes)
  else combineType 5 4 :: (Bytes.ofNatLe 4 bytes.length ++ bytes)

/-- The type and the length of a table in `wb_table_array`. -/
def wbArraySize (size : Nat) : Bytes :=
  if maxCookie - 1 ≤ size then
    combineType 6 (maxCookie - 1) :: wbInteger (BitVec.ofNat 64 size)
  else [combineType 6 size]

mutual

/-- `pack_one`, which raises for tables too deep in each other. -/
def packOne : Value → Nat → Option Bytes
  | value, depth =>
      if maxDepth < depth then none
      else
        match value with
        | .nil => some [combineType 0 0]
        | .boolean value => some [combineType 1 value.toNat]
        | .integer value => some (wbInteger value)
        | .real bits => some (combineType 2 8 :: Bytes.ofNatLe 8 bits.toNat)
        | .userdata pointer => some (combineType 3 0 :: Bytes.ofNatLe 8 pointer.toNat)
        | .string bytes => some (wbString bytes)
        | .table array hash => do
            let items ← packItems array (depth + 1)
            let pairs ← packPairs hash (depth + 1)
            return wbArraySize array.length ++ items ++ pairs ++ [combineType 0 0]

def packItems : List Value → Nat → Option Bytes
  | [], _ => some []
  | value :: values, depth => do
      let front ← packOne value depth
      let rest ← packItems values depth
      return front ++ rest

/-- Keys with their values, one after the other. -/
def packPairs : List (Value × Value) → Nat → Option Bytes
  | [], _ => some []
  | (key, value) :: pairs, depth => do
      let front ← packOne key depth
      let middle ← packOne value depth
      let rest ← packPairs pairs depth
      return front ++ middle ++ rest

end

/-- `luaseri_pack`.  The lengths are of the type `int`, in which longer strings have none. -/
def pack (values : List Value) : Option Bytes :=
  (packItems values 0).bind fun bytes => if bytes.length < 2 ^ 31 then some bytes else none

def getInteger (cookie : Nat) (bytes : Bytes) : Option (BitVec 64 × Bytes) :=
  match cookie with
  | 0 => some (0, bytes)
  | 1 => do
      let (front, rest) ← Bytes.read 1 bytes
      return (BitVec.ofNat 64 front.toNatLe, rest)
  | 2 => do
      let (front, rest) ← Bytes.read 2 bytes
      return (BitVec.ofNat 64 front.toNatLe, rest)
  | 4 => do
      let (front, rest) ← Bytes.read 4 bytes
      return ((BitVec.ofNat 32 front.toNatLe).signExtend 64, rest)
  | 6 => do
      let (front, rest) ← Bytes.read 8 bytes
      return (BitVec.ofNat 64 front.toNatLe, rest)
  | _ => none

/-- `get_buffer`, of a string. -/
def getString (length : Nat) (bytes : Bytes) : Option (Value × Bytes) := do
  let (front, rest) ← Bytes.read length bytes
  return (.string front, rest)

/-- The length of a table in `unpack_table`. -/
def getArraySize (cookie : Nat) (bytes : Bytes) : Option (Nat × Bytes) :=
  if cookie = maxCookie - 1 then
    match bytes with
    | [] => none
    | head :: bytes =>
        if head.toNat &&& 7 ≠ 2 ∨ head.toNat >>> 3 = 8 then none
        else do
          let (size, rest) ← getInteger (head.toNat >>> 3) bytes
          return ((size.setWidth 32).toInt.toNat, rest)
  else some (cookie, bytes)

/-- The first loop of `unpack_table`. -/
def unpackItems (unpackOne : Bytes → Option (Value × Bytes)) :
    Nat → Bytes → Option (List Value × Bytes)
  | 0, bytes => some ([], bytes)
  | size + 1, bytes => do
      let (value, bytes) ← unpackOne bytes
      let (values, bytes) ← unpackItems unpackOne size bytes
      return (value :: values, bytes)

/-- The second loop of `unpack_table`, for as many rounds as there are bytes.  `lua_rawset` raises
for NaN. -/
def unpackPairs (unpackOne : Bytes → Option (Value × Bytes)) :
    Nat → Bytes → Option (List (Value × Value) × Bytes)
  | 0, _ => none
  | rounds + 1, bytes => do
      let (key, bytes) ← unpackOne bytes
      if key.isNil then some ([], bytes)
      else do
        let (value, bytes) ← unpackOne bytes
        if key.isKey then do
          let (pairs, bytes) ← unpackPairs unpackOne rounds bytes
          return ((key, value) :: pairs, bytes)
        else none

def unpackTable (unpackOne : Bytes → Option (Value × Bytes)) (cookie : Nat) (bytes : Bytes) :
    Option (Value × Bytes) := do
  let (size, bytes) ← getArraySize cookie bytes
  let (array, bytes) ← unpackItems unpackOne size bytes
  let (hash, bytes) ← unpackPairs unpackOne bytes.length bytes
  return (.table array hash, bytes)

def pushValue (unpackOne : Bytes → Option (Value × Bytes)) (type cookie : Nat) (bytes : Bytes) :
    Option (Value × Bytes) :=
  match type with
  | 0 => some (.nil, bytes)
  | 1 => some (.boolean (cookie ≠ 0), bytes)
  | 2 =>
      if cookie = 8 then do
        let (front, rest) ← Bytes.read 8 bytes
        return (.real (BitVec.ofNat 64 front.toNatLe), rest)
      else do
        let (value, rest) ← getInteger cookie bytes
        return (.integer value, rest)
  | 3 => do
      let (front, rest) ← Bytes.read 8 bytes
      return (.userdata (BitVec.ofNat 64 front.toNatLe), rest)
  | 4 => getString cookie bytes
  | 5 =>
      if cookie = 2 then do
        let (front, rest) ← Bytes.read 2 bytes
        getString front.toNatLe rest
      else if cookie = 4 then do
        let (front, rest) ← Bytes.read 4 bytes
        getString front.toNatLe rest
      else none
  | 6 => unpackTable unpackOne cookie bytes
  | _ => none

/-- `unpack_one`, for tables in each other that are no deeper than there are bytes. -/
def unpackOne : Nat → Bytes → Option (Value × Bytes)
  | 0, _ => none
  | _ + 1, [] => none
  | depth + 1, head :: bytes =>
      pushValue (unpackOne depth) (head.toNat &&& 7) (head.toNat >>> 3) bytes

/-- The loop of `luaseri_unpack`, for as many rounds as there are bytes. -/
def unpackValues (unpackOne : Bytes → Option (Value × Bytes)) : Nat → Bytes → Option (List Value)
  | _, [] => some []
  | 0, _ :: _ => none
  | rounds + 1, head :: bytes => do
      let (value, rest) ← unpackOne (head :: bytes)
      let values ← unpackValues unpackOne rounds rest
      return value :: values

/-- `luaseri_unpack`. -/
def unpack (bytes : Bytes) : Option (List Value) :=
  unpackValues (unpackOne bytes.length) bytes.length bytes

end UEServer.Skynet
