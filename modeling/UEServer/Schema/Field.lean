import UEServer.Lua.Json
import UEServer.Schema.Container

/-!
# Schema fields

The field classes of `db/schema.lua`.  As in the source, compiling a field makes a class: its
converter, its default and its conversions to and from SQL, built from those of its parts.  Values
are never `nil`; where `nil` is possible the functions work on options.
-/

namespace UEServer.Schema

open Lua FieldContainer

inductive Val where
  /-- A value that is not an object or a container of a schema. -/
  | plain (value : Value)
  /-- An object of a class, with its `__CON`. -/
  | obj (cls : Nat) (con : List (String × Val))
  /-- A container of a class, with its `__CON`. -/
  | container (cls : Nat) (con : List (Key × Val))

/-- A field as the schema declares it. Objects and containers carry the identity of their class. -/
inductive Field where
  | any (defaultValue : Option Value)
  | int (defaultValue : Option Value)
  | num (defaultValue : Option Value)
  | bool (defaultValue : Option Value)
  | str (defaultValue : Option Value)
  | obj (id : Nat) (fields : List (String × Field)) (hasDefault : Bool)
  | container (id : Nat) (keyField : KeyField) (value : Field) (hasDefault : Bool)

/-- A compiled class. Where a function gives nothing, the source raises. -/
structure Cls where
  /-- `__F_IS_PLAIN`. -/
  isPlain : Bool
  /-- `__F_CONVERTER`. -/
  converter : Val → Option Val
  /-- `__F_MAKE_DEFAULT`; nothing stands for `nil`. -/
  makeDefault : Option Val
  /-- `__F_TO_SQL`. -/
  toSql : Val → Option Value
  /-- `__F_FROM_SQL`. -/
  fromSql : Value → Option Val
  /-- `__F_COPY`. -/
  copy : Val → Option Val

def assign {κ ν : Type*} [DecidableEq κ] (con : List (κ × ν)) (key : κ) (value : ν) :
    List (κ × ν) :=
  con.filter (fun entry => entry.1 ≠ key) ++ [(key, value)]

/-- The table that assigning the entries in their order gives. -/
def assignAll {κ ν : Type*} [DecidableEq κ] (entries : List (κ × ν)) : List (κ × ν) :=
  entries.foldl (fun con entry => assign con entry.1 entry.2) []

/-- `FieldAny.new`. -/
def fieldAny (defaultValue : Option Value) : Cls where
  isPlain := false
  converter v := some v
  makeDefault :=
    match defaultValue with
    | some (.list _) | some (.dict _) => some (.plain (.list []))
    | some value => some (.plain value)
    | none => none
  toSql
    | .plain value => some value
    | .obj id _ | .container id _ => some (.foreign id)
  fromSql data := some (.plain data)
  copy v := some v

/-- The classes of plain columns, which differ in converter and conversions. -/
def fieldPlain (defaultValue : Option Value) (accepts : Value → Bool)
    (toSql : Value → Value) (fromSql : Value → Option Value) : Cls where
  isPlain := true
  converter
    | .plain value => if accepts value then some (.plain value) else none
    | .obj _ _ | .container _ _ => none
  makeDefault := defaultValue.map .plain
  toSql
    | .plain value => some (toSql value)
    | .obj id _ | .container id _ => some (.foreign id)
  fromSql data := (fromSql data).map .plain
  copy v := some v

/-- `math.type(v) == 'integer'`, or `v` is false. -/
def acceptsInt : Value → Bool
  | .int _ | .bool false => true
  | _ => false

/-- `type(v) == 'number'`. -/
def acceptsNum : Value → Bool
  | .int _ | .flt _ | .inf _ | .nan => true
  | _ => false

/-- `type(v) == 'boolean'`. -/
def acceptsBool : Value → Bool
  | .bool _ => true
  | _ => false

/-- `type(v) == 'string'`. -/
def acceptsStr : Value → Bool
  | .str _ => true
  | _ => false

mutual

/-- No object declares a field twice, and the defaults of plain columns pass their own check. -/
def Field.WellFormed : Field → Prop
  | .any _ => True
  | .int defaultValue => ∀ value ∈ defaultValue, acceptsInt value
  | .num defaultValue => ∀ value ∈ defaultValue, acceptsNum value
  | .bool defaultValue => ∀ value ∈ defaultValue, acceptsBool value
  | .str defaultValue => ∀ value ∈ defaultValue, acceptsStr value
  | .obj _ fields _ => (fields.map Prod.fst).Nodup ∧ WellFormedFields fields
  | .container _ _ value _ => value.WellFormed

/-- The fields of these names are well formed. -/
def WellFormedFields : List (String × Field) → Prop
  | [] => True
  | (_, field) :: fields => field.WellFormed ∧ WellFormedFields fields

end

def floor (texts : Texts) : Value → Option Value
  | .int value => some (.int value)
  | .flt value => some (.int value.floor)
  | .inf negative => some (.inf negative)
  | .nan => some .nan
  | .str text =>
      match texts.tonumber text with
      | some (.int value) => some (.int value)
      | some (.flt value) => some (.int value.floor)
      | some (.inf negative) => some (.inf negative)
      | _ => none
  | _ => none

/-- `v and 1 or 0`. -/
def boolToSql : Value → Value
  | .bool false => .int 0
  | _ => .int 1

/-- `data == 1`. -/
def boolFromSql : Value → Value
  | .int value => .bool (value = 1)
  | .flt value => .bool (value = 1)
  | _ => .bool false

/-- `FieldInt.new`. -/
def fieldInt (texts : Texts) (defaultValue : Option Value) : Cls :=
  fieldPlain defaultValue acceptsInt id (floor texts)

/-- `FieldNum.new`. -/
def fieldNum (defaultValue : Option Value) : Cls :=
  fieldPlain defaultValue acceptsNum id some

/-- `FieldBool.new`. -/
def fieldBool (defaultValue : Option Value) : Cls :=
  fieldPlain defaultValue acceptsBool boolToSql fun data => some (boolFromSql data)

/-- `FieldStr.new`. -/
def fieldStr (defaultValue : Option Value) : Cls :=
  fieldPlain defaultValue acceptsStr id some

/-- The entries of the argument of `__F_FROM_SQL`: a table, or the text of one. -/
def sqlEntries (texts : Texts) (data : Value) : Option (List (Key × Value)) :=
  match data with
  | .list _ | .dict _ => data.pairs?
  | .str text => (texts.jsonDecode text).bind Value.pairs?
  | _ => none

/-- `pairs` over the table that a converter is given; not for `nil`, a value that is no table or one
with a metatable. -/
def convertedEntries : Val → Option (List (Key × Val))
  | .plain value =>
      value.pairs?.map fun entries => entries.map fun (key, value) => (key, .plain value)
  | .obj _ _ | .container _ _ => none

/-- Apply the field of each name to its value; undeclared names are left out. -/
def mapFields {α β : Type*} (fieldDict : List (String × Cls)) (convert : Cls → α → Option β) :
    List (String × α) → Option (List (String × β))
  | [] => some []
  | (name, value) :: entries =>
      match fieldDict.lookup name with
      | none => mapFields fieldDict convert entries
      | some field =>
          (convert field value).bind fun first =>
            (mapFields fieldDict convert entries).map fun rest => (name, first) :: rest

/-- The entries with string keys; no field has another name. -/
def named {α : Type*} (entries : List (Key × α)) : List (String × α) :=
  entries.filterMap fun
    | (.str name, value) => some (name, value)
    | _ => none

/-- `FieldObj.new`, without `is_sql_table`. -/
def fieldObj (texts : Texts) (id : Nat) (fieldDict : List (String × Cls)) (hasDefault : Bool) :
    Cls where
  isPlain := false
  converter v :=
    match v with
    | .obj cls con => if cls = id then some (.obj cls con) else none
    | .container _ _ => none
    | .plain _ =>
        (convertedEntries v).bind fun entries =>
          (mapFields fieldDict Cls.converter (named entries)).map fun con =>
            .obj id (assignAll con)
  makeDefault := if hasDefault then some (.obj id []) else none
  toSql
    | .obj cls con =>
        if cls = id then
          (mapFields fieldDict Cls.toSql con).map fun entries =>
            .ofEntries (entries.map fun (name, value) => (.str name, value))
        else none
    | .plain _ | .container _ _ => none
  fromSql data :=
    (sqlEntries texts data).bind fun entries =>
      (mapFields fieldDict Cls.fromSql (named entries)).map (.obj id)
  copy
    | .obj cls con =>
        if cls = id then (mapFields fieldDict Cls.copy con).map (.obj id) else none
    | .plain _ | .container _ _ => none

/-- `__F_USE_NUM_KEY`. -/
def useNumKey (keyField : KeyField) : Bool :=
  keyField ≠ .str

/-- The keys that the converter of a container accepts. -/
def acceptsKey (keyField : KeyField) : Key → Bool
  | .int _ | .flt _ | .inf _ => useNumKey keyField
  | .str _ => !useNumKey keyField
  | .bool _ | .ref _ => false

/-- The key under which `__F_TO_SQL` writes. -/
def keyToSql (texts : Texts) (keyField : KeyField) (key : Key) : Key :=
  if useNumKey keyField then .str (texts.tostring key) else key

/-- `tonumber`, on a key. -/
def keyToNumber (texts : Texts) : Key → Option Key
  | .int value => some (.int value)
  | .flt value => some (.flt value)
  | .inf negative => some (.inf negative)
  | .str text => texts.tonumber text
  | .bool _ | .ref _ => none

/-- The key under which `__F_FROM_SQL` stores; `nil` as a key raises. -/
def keyFromSql (texts : Texts) (keyField : KeyField) (key : Key) : Option Key :=
  if useNumKey keyField then keyToNumber texts key else some key

def mapEntries {α β : Type*} (convertKey : Key → Option Key) (convert : α → Option β) :
    List (Key × α) → Option (List (Key × β))
  | [] => some []
  | (key, value) :: entries =>
      (convertKey key).bind fun key =>
        (convert value).bind fun first =>
          (mapEntries convertKey convert entries).map fun rest => (key, first) :: rest

/-- `FieldContainer.new`. -/
def fieldContainer (texts : Texts) (id : Nat) (keyField : KeyField) (value : Cls)
    (hasDefault : Bool) : Cls where
  isPlain := false
  converter v :=
    match v with
    | .container cls con => if cls = id then some (.container cls con) else none
    | .obj _ _ => none
    | .plain _ =>
        (convertedEntries v).bind fun entries =>
          (mapEntries (fun key => if acceptsKey keyField key then some key else none)
            value.converter entries).map fun con => .container id (assignAll con)
  makeDefault := if hasDefault then some (.container id []) else none
  toSql
    | .container cls con =>
        if cls = id then
          (mapEntries (fun key => some (keyToSql texts keyField key)) value.toSql con).map
            fun entries => .ofEntries (assignAll entries)
        else none
    | .plain _ | .obj _ _ => none
  fromSql data :=
    (sqlEntries texts data).bind fun entries =>
      (mapEntries (keyFromSql texts keyField) value.fromSql entries).map fun con =>
        .container id (assignAll con)
  copy
    | .container cls con =>
        if cls = id then (mapEntries some value.copy con).map (.container id) else none
    | .plain _ | .obj _ _ => none

mutual

def compile (texts : Texts) : Field → Cls
  | .any defaultValue => fieldAny defaultValue
  | .int defaultValue => fieldInt texts defaultValue
  | .num defaultValue => fieldNum defaultValue
  | .bool defaultValue => fieldBool defaultValue
  | .str defaultValue => fieldStr defaultValue
  | .obj id fields hasDefault => fieldObj texts id (compileFields texts fields) hasDefault
  | .container id keyField value hasDefault =>
      fieldContainer texts id keyField (compile texts value) hasDefault

/-- The `__F_FIELD_DICT` of an object class. -/
def compileFields (texts : Texts) : List (String × Field) → List (String × Cls)
  | [] => []
  | (name, field) :: fields => (name, compile texts field) :: compileFields texts fields

end

/-- A value is a table, so a default that has it is stored when it is read. -/
def Val.isTable : Val → Bool
  | .plain (.list _) | .plain (.dict _) | .obj _ _ | .container _ _ => true
  | .plain _ => false

/-- `__CON[k]` or else the default, and `__CON` after the read. -/
def indexed {κ : Type*} [DecidableEq κ] (con : List (κ × Val)) (key : κ)
    (defaultValue : Option Val) : Option Val × List (κ × Val) :=
  match con.lookup key, defaultValue with
  | some value, _ => (some value, con)
  | none, some value => (some value, if value.isTable then assign con key value else con)
  | none, none => (none, con)

/-- `__CON[k] = v`. -/
def stored {κ : Type*} [DecidableEq κ] (con : List (κ × Val)) (key : κ) :
    Option Val → List (κ × Val)
  | some value => assign con key value
  | none => con.filter fun entry => entry.1 ≠ key

/-- `__F_CONVERTER`, also on `nil`. -/
def Cls.convert (field : Cls) : Option Val → Option (Option Val)
  | some value => (field.converter value).map some
  | none => some none

/-- `__F_INDEX` of an object: the value read, and `__CON` after the read. -/
def objIndex (fieldDict : List (String × Cls)) (con : List (String × Val)) (name : String) :
    Option Val × List (String × Val) :=
  match fieldDict.lookup name with
  | none => (none, con)
  | some field => indexed con name field.makeDefault

/-- `__F_NEWINDEX` of an object: `__CON` after it, if it does not raise. -/
def objNewIndex (fieldDict : List (String × Cls)) (con : List (String × Val)) (name : String)
    (value : Option Val) : Option (List (String × Val)) :=
  (fieldDict.lookup name).bind fun field => (field.convert value).map (stored con name)

/-- `__F_INDEX` of a container. -/
def dictIndex (value : Cls) (con : List (Key × Val)) (key : Key) :
    Option Val × List (Key × Val) :=
  indexed con key value.makeDefault

/-- `__F_NEWINDEX` of a container: `__CON` after it, if it does not raise. -/
def dictNewIndex (keyField : KeyField) (field : Cls) (con : List (Key × Val)) (k : Lua.Index)
    (value : Option Val) : Option (List (Key × Val)) :=
  ((keyField.converter k).bind Lua.Index.key?).bind fun key =>
    (field.convert value).map (stored con key)

end UEServer.Schema
