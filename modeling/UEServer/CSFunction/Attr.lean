import UEServer.Library.Dict

/-!
# Final attributes

`MODIFY_MAPPER`, `FORMULA_DICT`, `on_modify_raw` and `refresh_all_attr` of `CSCommon/CSFunction.lua`, for
any table of attributes.  Nothing is used of the numbers but that they can be added and multiplied.
-/

namespace UEServer.CSFunction

/-- A row of `AttributeData`. -/
structure Row where
  name : String
  pctAttr : Option String
  deriving DecidableEq

/-- `AttributeData`, in the order in which `pairs` gives the rows. -/
structure AttributeData where
  rows : List Row
  nodup : (rows.map Row.name).Nodup

/-- The rows of `ParamData` that the formulas read, and what a percentage is multiplied by. -/
structure ParamData (ρ : Type*) where
  businessToHpRatio : ρ
  managementToHpRatio : ρ
  renownToHpRatio : ρ
  fightToAttRatio : ρ
  /-- `0.01`. -/
  percent : ρ

/-- A dictionary of attributes. -/
abbrev AttrDict (ρ : Type*) := Table String ρ

/-- For each attribute those that are to be computed anew when it has changed. -/
abbrev Mapper := String → Option (List String)

namespace Row

/-- The attributes under which this one is inserted into `MODIFY_MAPPER`. -/
def dependencies (row : Row) : List (Option String) :=
  if row.name = "max_hp" then
    [some "business", some "business_pct", some "management", some "management_pct", some "renown",
      some "renown_pct", row.pctAttr]
  else if row.name = "att" then [some "fight", some "fight_pct", row.pctAttr]
  else row.pctAttr.toList.map some

section
variable {ρ : Type*} [Zero ρ] [One ρ] [Add ρ] [Mul ρ]

/-- A number that may be missing, with the factor of its percentage. -/
def grown (param : ParamData ρ) (x : String → Option ρ) (value : ρ) (pct : Option String) : ρ :=
  value * (1 + param.percent * (pct.bind x).getD 0)

/-- `FORMULA_DICT`: nothing if it raises, otherwise the number or `nil`. -/
def formula (param : ParamData ρ) (row : Row) (x : String → Option ρ) : Option (Option ρ) :=
  if row.name = "max_hp" then
    (x row.name).map fun value =>
      some (grown param x
        (value
          + grown param x ((x "business").getD 0) (some "business_pct") * param.businessToHpRatio
          + grown param x ((x "management").getD 0) (some "management_pct") * param.managementToHpRatio
          + grown param x ((x "renown").getD 0) (some "renown_pct") * param.renownToHpRatio)
        row.pctAttr)
  else if row.name = "att" then
    (x row.name).map fun value =>
      some (grown param x
        (value + grown param x ((x "fight").getD 0) (some "fight_pct") * param.fightToAttRatio)
        row.pctAttr)
  else
    match row.pctAttr with
    | some pct => (x row.name).map fun value => some (grown param x value (some pct))
    | none => some (x row.name)

end
end Row

/-- `table.insert(MODIFY_MAPPER[key], name)`, which raises if there is no such list. -/
def insert (name : String) (mapper : Mapper) (key : Option String) : Option Mapper :=
  key.bind fun key =>
    (mapper key).map fun names => Function.update mapper key (some (names ++ [name]))

namespace AttributeData

def row (data : AttributeData) (name : String) : Option Row :=
  data.rows.find? fun row => row.name = name

/-- `MODIFY_MAPPER`, unless loading it raises. -/
def modifyMapper (data : AttributeData) : Option Mapper :=
  data.rows.foldlM (fun mapper row => row.dependencies.foldlM (insert row.name) mapper)
    fun name => (data.row name).map fun _ => [name]

section
variable {ρ : Type*} [Zero ρ] [One ρ] [Add ρ] [Mul ρ]

/-- The value of a formula is assigned to each of some names, unless one of the formulas raises. -/
def assignAll (data : AttributeData) (param : ParamData ρ) (raw : AttrDict ρ) :
    List String → AttrDict ρ → Option (AttrDict ρ)
  | [], dict => some dict
  | name :: names, dict =>
      ((data.row name).bind fun row => row.formula param raw.get).bind fun value =>
        data.assignAll param raw names (dict.set name value)

def onModifyRaw (data : AttributeData) (param : ParamData ρ) (mapper : Mapper) (raw : AttrDict ρ)
    (name : String) : Option (AttrDict ρ) :=
  (mapper name).bind fun names => data.assignAll param raw names Table.empty

def refreshAllAttr (data : AttributeData) (param : ParamData ρ) (raw : AttrDict ρ) :
    Option (AttrDict ρ) :=
  data.assignAll param raw raw.keys Table.empty

end
end AttributeData

end UEServer.CSFunction
