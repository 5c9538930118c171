import UEServer.ExcelData.Data

/-!
# The shared configuration

`excel_data.lua`: the tables of the configuration are cut into pieces, which are packed and put into a
dictionary that all services share, each under the names and keys on the way to it; every service
reads them through proxies that fetch a piece when it is read.
-/

namespace UEServer.ExcelData

/-- The strings of `share_dict`. -/
abbrev ShareDict := Bytes → Option Bytes

/-- An integer as `string.format` writes it. -/
def integerText (value : BitVec 64) : Bytes :=
  let digits := (Nat.toDigits 10 value.toInt.natAbs).map fun digit => UInt8.ofNat digit.toNat
  if value.toInt < 0 then 45 :: digits else digits

/-- A key as `string.format` writes it.  The text of a float is a parameter. -/
def Key.text (realText : BitVec 64 → Bytes) : Key → Bytes
  | .integer value => integerText value
  | .real bits => realText bits
  | .string bytes => bytes

/-- `string.format("%s:%s", prefix, k)`. -/
def under (realText : BitVec 64 → Bytes) (address : Bytes) (key : Key) : Bytes :=
  address ++ 58 :: key.text realText

def tyPack : Data := .integer 1

def needSplit (t : Data) (isTop : Bool) : Bool :=
  match t with
  | .table array hash => isTop ||
      (array.all fun value => value.isNil || value.isTable) && hash.all fun entry => entry.2.isTable
  | _ => false

mutual

/-- `push_data`: the dictionary of the keys, and the pieces with their addresses. -/
def pushData (realText : BitVec 64 → Bytes) (address : Bytes) (t : Data) (isTop : Bool) :
    Data × List (Bytes × Data) :=
  match t with
  | .table array hash =>
      if needSplit (.table array hash) isTop then
        let items := pushItems realText address 1 array
        let entries := pushEntries realText address hash
        (.table items.1 entries.1, items.2 ++ entries.2)
      else (tyPack, [(address, .table array hash)])
  | t => (tyPack, [(address, t)])

/-- The loop of `push_data`, over the keys from a position on. -/
def pushItems (realText : BitVec 64 → Bytes) (address : Bytes) :
    ℕ → List Data → List Data × List (Bytes × Data)
  | _, [] => ([], [])
  | position, value :: values =>
      let rest := pushItems realText address (position + 1) values
      if value.isNil then (value :: rest.1, rest.2)
      else
        let pushed := pushData realText
          (under realText address (.integer (BitVec.ofNat 64 position))) value false
        (pushed.1 :: rest.1, pushed.2 ++ rest.2)

/-- The loop of `push_data`, over the other keys. -/
def pushEntries (realText : BitVec 64 → Bytes) (address : Bytes) :
    List (Key × Data) → List (Key × Data) × List (Bytes × Data)
  | [] => ([], [])
  | (key, value) :: entries =>
      let pushed := pushData realText (under realText address key) value false
      let rest := pushEntries realText address entries
      ((key, pushed.1) :: rest.1, pushed.2 ++ rest.2)

end

/-- The address of the dictionaries of the keys. -/
def allExcel : Bytes := Bytes.ofAscii "__all_excel"

/-- `all_excel`. -/
def keyDicts (realText : BitVec 64 → Bytes) (tables : List (Bytes × Data)) : Data :=
  .table [] (tables.map fun table => (.string table.1, (pushData realText table.1 table.2 true).1))

def pieces (realText : BitVec 64 → Bytes) (tables : List (Bytes × Data)) : List (Bytes × Data) :=
  tables.flatMap fun table => (pushData realText table.1 table.2 true).2

def put (dict : ShareDict) (piece : Bytes × Bytes) : ShareDict :=
  Function.update dict piece.1 (some piece.2)

/-- `excel_data.load`, with the order in which the pieces are put.  It raises for a file that is not a
table, and for tables too deep in each other. -/
def load (realText : BitVec 64 → Bytes) (tables : List (Bytes × Data))
    (order : List (Bytes × Bytes)) : Option ShareDict := do
  let packed ← (pieces realText tables).mapM fun piece =>
    (packstring piece.2).map fun bin => (piece.1, bin)
  let all ← packstring (keyDicts realText tables)
  if (tables.all fun table => table.2.isTable) ∧ order.Perm packed then
    some (Function.update (order.foldl put fun _ => none) allExcel (some all))
  else none

/-- What reading the configuration gives. -/
inductive View where
  | plain (value : Data)
  | proxy (address : Bytes) (keyDict : Data)
  | readonly (raw : Data)
  | field

/-- The fields of a `DataProxy`. -/
def proxyFields : List Key :=
  ["__tmp", "__prefix", "__key_dict"].map fun name => .string (Bytes.ofAscii name)

/-- The fields of a `ReadonlyCls`. -/
def readonlyFields : List Key :=
  ["__raw", "__tmp"].map fun name => .string (Bytes.ofAscii name)

/-- `excel_data.__readonly`. -/
def asReadonly (raw : Data) : View :=
  if raw.isTable then .readonly raw else .plain raw

/-- The value is neither `nil` nor `false`. -/
def Data.truthy : Data → Bool
  | .nil | .boolean false => false
  | _ => true

/-- `v == TY_PACK`. -/
def Data.isPack : Data → Bool
  | .integer value => value == 1
  | _ => false

namespace View

/-- `#`, on a view. -/
def len : View → ℕ
  | .proxy _ keyDict => keyDict.length
  | .readonly raw => raw.length
  | _ => 0

/-- The keys of a view, in the order of its `__next`. -/
def nextKeys : View → List Key
  | .proxy _ keyDict => keyDict.keys
  | .readonly raw => raw.keys
  | _ => []

def owns : View → Key → Bool
  | .proxy _ _, key => key ∈ proxyFields
  | .readonly _, key => key ∈ readonlyFields
  | _, _ => false

/-- `__index`, for a value that has not been read before. -/
def fetch (realText : BitVec 64 → Bytes) (dict : ShareDict) : View → Key → Option View
  | .plain _, _ => none
  | .field, _ => some .field
  | .readonly raw, key => some (asReadonly (raw.index key))
  | .proxy address keyDict, key =>
      let v := keyDict.index key
      if v.truthy then
        if v.isTable then some (.proxy (under realText address key) v)
        else
          match dict (under realText address key) with
          | none => some (.plain .nil)
          | some bin => if v.isPack then (unpack bin).map asReadonly else some (.plain (.string bin))
      else some (.plain .nil)

/-- The view stands for `nil`. -/
def isNil : View → Bool
  | .plain value => value.isNil
  | _ => false

end View

/-- The fields `__tmp` of the proxies of a table, by the way to the value. -/
abbrev Tmp := List Key → Option View

namespace View

/-- A view is indexed. -/
def index (realText : BitVec 64 → Bytes) (dict : ShareDict) (tmp : Tmp) (way : List Key)
    (view : View) (key : Key) : Option (View × Tmp) :=
  if view.owns key then some (.field, tmp)
  else
    match tmp (way ++ [key]) with
    | some value => some (value, tmp)
    | none =>
        (view.fetch realText dict key).map fun value =>
          (value, if value.isNil then tmp else Function.update tmp (way ++ [key]) (some value))

/-- A path is read, from a view that is found on some way. -/
def read (realText : BitVec 64 → Bytes) (dict : ShareDict) :
    Tmp → List Key → View → List Key → Option View × Tmp
  | tmp, _, view, [] => (some view, tmp)
  | tmp, way, view, key :: path =>
      match view.index realText dict tmp way key with
      | none => (none, tmp)
      | some (value, tmp) => value.read realText dict tmp (way ++ [key]) path

def reads (realText : BitVec 64 → Bytes) (dict : ShareDict) (view : View) :
    Tmp → List (List Key) → Tmp
  | tmp, [] => tmp
  | tmp, path :: paths => view.reads realText dict (view.read realText dict tmp [] path).2 paths

def Shows : View → Data → Prop
  | .plain shown, value => shown = value ∧ value.isTable = false
  | .field, _ => False
  | view, value => value.isTable ∧ view.len = value.length ∧ view.nextKeys.Perm value.keys

end View

/-- `excel_data[name]`, after `excel_data.__fetch`. -/
def fetched (dict : ShareDict) (name : Bytes) : Option View := do
  let bin ← dict allExcel
  let all ← unpack bin
  let keyDict := all.index (.string name)
  if keyDict.isNil then none else some (.proxy name keyDict)

/-- What is read is what the table has.  A field of a proxy is read where the table has nothing. -/
def Agrees : Option View → Option Data → Prop
  | some .field, value => value = none ∨ value = some .nil
  | some view, some value => view.Shows value
  | none, none => True
  | _, _ => False

/-- Whatever has been read before, reading any path of the view of any table gives what the table has
there. -/
def Equal (realText : BitVec 64 → Bytes) (tables : List (Bytes × Data)) (dict : ShareDict) : Prop :=
  ∀ table ∈ tables, ∃ view, fetched dict table.1 = some view ∧ ∀ earlier path,
    Agrees (view.read realText dict (view.reads realText dict (fun _ => none) earlier) [] path).1
      (table.2.read path)

end UEServer.ExcelData
