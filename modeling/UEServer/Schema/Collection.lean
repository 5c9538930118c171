import UEServer.Schema.Field

/-!
# Collections

`Collection` of `db/schema.lua`: the object of a row, its conversions to and from the row, and
`read_field`.  The root object of a collection also remembers which fields were deleted.
-/

namespace UEServer.Schema

open Lua

def sqlNull : String := "____wpx_skynet_mysql_null____"

inductive Cell where
  | null
  | int (value : Int)
  | flt (value : Rat)
  | str (value : String)
  | text (json : Json)

abbrev Row := String → Cell

structure Collection where
  primary : String
  fields : List (String × Field)
  nodup : (fields.map Prod.fst).Nodup
  wellFormed : WellFormedFields fields

structure Obj where
  con : List (String × Val)
  del : List String

section
variable (texts : Texts) (collection : Collection)

/-- `root_obj_cls.__F_FIELD_DICT`. -/
def Collection.fieldDict : List (String × Cls) :=
  compileFields texts collection.fields

/-- `attach`, on a plain table. -/
def Collection.attach (doc : List (String × Val)) : Option Obj :=
  (mapFields (collection.fieldDict texts) Cls.converter doc).map fun con =>
    { con := assignAll con, del := [] }

def Collection.newObj (key : Value) : Option Obj :=
  collection.attach texts [(collection.primary, .plain key)]

/-- `__F_INDEX` of the root object: the value read, and the object after the read. A default that
is stored is not deleted any more. -/
def Collection.read (obj : Obj) (name : String) : Option Val × Obj :=
  match (collection.fieldDict texts).lookup name with
  | none => (none, obj)
  | some field =>
      let (value, con) := indexed obj.con name field.makeDefault
      match obj.con.lookup name, con.lookup name with
      | none, some _ => (value, { con, del := obj.del.filter (· ≠ name) })
      | _, _ => (value, obj)

/-- `__F_NEWINDEX` of the root object, if it does not raise. -/
def Collection.write (obj : Obj) (name : String) (value : Option Val) : Option Obj :=
  (objNewIndex (collection.fieldDict texts) obj.con name value).map fun con =>
    { con
      del :=
        match value with
        | none => name :: obj.del
        | some _ => obj.del.filter (· ≠ name) }

/-- The number that the text of a number denotes. -/
def throughText (number : Key) : Option Value :=
  match texts.tonumber (texts.tostring number) with
  | some (.int value) => some (.int value)
  | some (.flt value) => some (.flt value)
  | _ => none

def Cell.ofNumber? : Value → Option Cell
  | .int value => some (.int value)
  | .flt value => some (.flt value)
  | _ => none

/-- `convert_value` of the client, and what the column then holds; the text of a number goes to the
database. A value that is no SQL value raises. -/
def convertValue : Value → Option Cell
  | .bool value => some (.int (if value then 1 else 0))
  | .int value => (throughText texts (.int value)).bind Cell.ofNumber?
  | .flt value => (throughText texts (.flt value)).bind Cell.ofNumber?
  | .str value => some (if value = sqlNull then .null else .str value)
  | .inf _ | .nan | .list _ | .dict _ | .foreign _ => none

/-- The column that a value is written to: columns that are not plain hold JSON. -/
def writeCell (field : Cls) (data : Value) : Option Cell :=
  if field.isPlain then convertValue texts data else (encode texts data).map .text

/-- `to_sql`: the columns that are written, deleted fields last. -/
def Collection.toSql (obj : Obj) : Option (List (String × Cell)) :=
  (mapFields (collection.fieldDict texts)
      (fun field value => (field.toSql value).bind (writeCell texts field)) obj.con).map
    fun columns =>
      columns.filter (fun column => column.1 ∉ obj.del) ++ obj.del.map fun name => (name, .null)

/-- The row after these columns have been written; the others are `NULL`. -/
def rowOf (columns : List (String × Cell)) : Row :=
  fun name => (columns.lookup name).getD .null

def Cell.value? : Cell → Option Value
  | .int value => some (.int value)
  | .flt value => some (.flt value)
  | .str value => some (.str value)
  | .null | .text _ => none

/-- `json.decode` of a column. -/
def Cell.decode? : Cell → Option Value
  | .text json => some (decode json)
  | .str content => texts.jsonDecode content
  | .int value => throughText texts (.int value)
  | .flt value => throughText texts (.flt value)
  | .null => none

/-- What `from_sql` makes of a column that is not `NULL`. -/
def readCell (field : Cls) (cell : Cell) : Option Val :=
  (if field.isPlain then cell.value? else cell.decode? texts).bind field.fromSql

/-- A column that is not `NULL`; the others are not in the result of a query. -/
def Cell.present? : Cell → Option Cell
  | .null => none
  | cell => some cell

/-- The columns of a row that are not `NULL`, converted. -/
def readCells (row : Row) : List (String × Cls) → Option (List (String × Val))
  | [] => some []
  | (name, field) :: fields =>
      match (row name).present? with
      | none => readCells row fields
      | some cell =>
          (readCell texts field cell).bind fun value =>
            (readCells row fields).map fun rest => (name, value) :: rest

/-- `from_sql`, and so what `load` returns for a row. -/
def Collection.fromSql (row : Row) : Option Obj :=
  (readCells texts row (collection.fieldDict texts)).map fun con => { con, del := [] }

end

end UEServer.Schema
