import Mathlib.Data.Option.Basic

/-!
# The table of a collection

What the database holds for one collection, and the `ALTER` statements of the client in
`db/mysql_db.lua`.  A column that is dropped leaves the indexes on it, and an index without columns
is dropped with its last one.
-/

namespace UEServer.Migration

inductive IndexKind where
  | primary
  | plain
  | unique
  deriving DecidableEq

structure Index where
  kind : IndexKind
  name : String
  columns : List String
  deriving DecidableEq

structure Table where
  columns : String → Option String
  indexes : List Index

def Index.without (names : List String) (index : Index) : Index :=
  { index with columns := index.columns.filter (· ∉ names) }

def lose (names : List String) (indexes : List Index) : List Index :=
  (indexes.map (Index.without names)).filter (·.columns ≠ [])

/-- What an `ALTER` statement does. -/
inductive Action where
  | addColumn (name define : String)
  | dropColumn (name : String)
  | modifyColumn (name define : String)
  | changeColumn (oldName newName define : String)
  | dropIndex (name : String)
  | addIndex (index : Index)
  deriving DecidableEq

/-- The table after the action; the database raises for a column or an index that is missing, and
for a column that exists. -/
def Action.apply (table : Table) : Action → Option Table
  | .addColumn name define =>
      if (table.columns name).isSome then none
      else some { table with columns := Function.update table.columns name (some define) }
  | .dropColumn name =>
      if (table.columns name).isNone then none
      else some
        { columns := Function.update table.columns name none, indexes := lose [name] table.indexes }
  | .modifyColumn name define =>
      if (table.columns name).isNone then none
      else some { table with columns := Function.update table.columns name (some define) }
  | .changeColumn oldName newName define =>
      if (table.columns oldName).isNone ∨ oldName ≠ newName ∧ (table.columns newName).isSome then
        none
      else some
        { columns :=
            Function.update (Function.update table.columns oldName none) newName (some define)
          indexes := table.indexes.map fun index =>
            { index with
              columns := index.columns.map fun name => if name = oldName then newName else name } }
  | .dropIndex name =>
      if ∃ index ∈ table.indexes, index.name = name then
        some { table with indexes := table.indexes.filter (·.name ≠ name) }
      else none
  | .addIndex index =>
      if ∃ other ∈ table.indexes, other.name = index.name then none
      else some { table with indexes := table.indexes ++ [index] }

/-- A statement that starts with these words. -/
structure Alter where
  verb : String
  action : Action
  deriving DecidableEq

def addColumn (name define : String) : Alter :=
  { verb := "alter table", action := .addColumn name define }

def dropColumn (name : String) : Alter :=
  { verb := "alter table", action := .dropColumn name }

def modifyColumn (name define : String) : Alter :=
  { verb := "alter table", action := .modifyColumn name define }

def changeColumn (oldName newName define : String) : Alter :=
  { verb := "alter table", action := .changeColumn oldName newName define }

def dropIndex (name : String) : Alter :=
  { verb := "alter table", action := .dropIndex name }

def addIndex (name : String) (columns : List String) : Alter :=
  { verb := "alter talbe", action := .addIndex { kind := .plain, name, columns } }

structure IndexDefine where
  keyword : String
  index : Index
  deriving DecidableEq

/-- What `string.match(idx, "index%s+([%w_]+)")` finds: the name after the word `index`. -/
def IndexDefine.matched (define : IndexDefine) : Option String :=
  if define.keyword = "index" ∨ define.keyword = "unique index" then some define.index.name
  else none

structure Schema where
  /-- `sql_field_define_dict()`. -/
  fieldDefine : List (String × String)
  /-- `sql_index_define_list()`. -/
  indexDefine : List IndexDefine
  nodup : (fieldDefine.map Prod.fst).Nodup
  named : ∀ define ∈ indexDefine, ∀ other ∈ indexDefine,
    define.index.name = other.index.name → define = other
  covered : ∀ define ∈ indexDefine, define.index.columns ≠ [] ∧
    ∀ name ∈ define.index.columns, (fieldDefine.lookup name).isSome

/-- A row of `t_lua_schema`. -/
structure Record extends Schema where
  debugVersion : Option Int

/-- The database, as far as it is about one collection. -/
structure Database where
  table : Option Table
  /-- `t_lua_schema`, with the row of the collection. -/
  luaSchema : Option (Option Record)
  /-- The `ALTER` statements that were issued. -/
  alters : List Alter

/-- Issue a statement. One that is not well formed raises. -/
def Database.execute (db : Database) (alter : Alter) : Option Database :=
  if alter.verb = "alter table" then
    (db.table.bind fun table => alter.action.apply table).map fun table =>
      { db with table := some table, alters := db.alters ++ [alter] }
  else none

end UEServer.Migration
