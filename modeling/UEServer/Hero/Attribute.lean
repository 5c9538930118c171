import UEServer.Library.Dict
import Mathlib.Data.Rat.Floor

/-!
# Attributes

The attributes of `AttributeData` and the functions of `attr_utils.lua`, `CSCommon/CSFunction.lua`
and `role_utils.lua` on dictionaries of them.  A running sum of raw attributes is kept together with
the attributes and the score computed from it.  Numbers are exact.
-/

namespace UEServer.Hero

/-- The rows of `AttributeData`. -/
inductive Attribute where
  | addFinalHurt | addHurt | angerRecover | att | attPct | business | businessPct | charm | crit
  | critDef | culture | defense | defensePct | etiquette | fight | fightPct | finalHurtDef | hit
  | hurtDef | initAnger | management | managementPct | maxHp | maxHpPct | miss | planning | renown
  | renownPct
  deriving DecidableEq

namespace Attribute

def all : List Attribute :=
  [addFinalHurt, addHurt, angerRecover, att, attPct, business, businessPct, charm, crit, critDef,
    culture, defense, defensePct, etiquette, fight, fightPct, finalHurtDef, hit, hurtDef, initAnger,
    management, managementPct, maxHp, maxHpPct, miss, planning, renown, renownPct]

def isPct : Attribute → Bool
  | addFinalHurt | addHurt | attPct | businessPct | crit | critDef | defensePct | fightPct
  | finalHurtDef | hit | hurtDef | managementPct | maxHpPct | miss | renownPct => true
  | _ => false

def pctAttr : Attribute → Option Attribute
  | att => some attPct
  | business => some businessPct
  | defense => some defensePct
  | fight => some fightPct
  | management => some managementPct
  | maxHp => some maxHpPct
  | renown => some renownPct
  | _ => none

/-- The attributes other than itself that the formula of an attribute reads. -/
def inputs : Attribute → List Attribute
  | maxHp =>
      [business, businessPct, management, managementPct, renown, renownPct, maxHpPct]
  | att => [fight, fightPct, attPct]
  | attr => attr.pctAttr.toList

/-- `MODIFY_MAPPER`: the attributes whose formulas read an attribute. -/
def modifyMapper (name : Attribute) : List Attribute :=
  name :: all.filter fun attr => name ∈ attr.inputs

theorem mem_all (attr : Attribute) : attr ∈ all := by
  cases attr <;> decide

theorem mem_modifyMapper {attr name : Attribute} :
    attr ∈ modifyMapper name ↔ attr = name ∨ name ∈ attr.inputs := by
  simp [modifyMapper, mem_all]

end Attribute

/-- A dictionary of attributes; it reads as zero where it has no entry. -/
abbrev AttrDict := Table Attribute ℚ

/-- The rows of `ParamData` that the formulas read. -/
structure ParamData where
  businessToHpRatio : ℚ
  managementToHpRatio : ℚ
  renownToHpRatio : ℚ
  fightToAttRatio : ℚ
  attackConstant : ℚ
  hpConstant : ℚ
  defenseConstant : ℚ

def grown (x : Attribute → ℚ) (pct : Attribute) : ℚ :=
  1 + 1 / 100 * x pct

section
variable (param : ParamData)

/-- `FORMULA_DICT`. -/
def formula : Attribute → (Attribute → ℚ) → ℚ
  | .maxHp, x =>
      (x .maxHp + x .business * grown x .businessPct * param.businessToHpRatio
          + x .management * grown x .managementPct * param.managementToHpRatio
          + x .renown * grown x .renownPct * param.renownToHpRatio) * grown x .maxHpPct
  | .att, x =>
      (x .att + x .fight * grown x .fightPct * param.fightToAttRatio) * grown x .attPct
  | attr, x =>
      match attr.pctAttr with
      | some pct => x attr * grown x pct
      | none => x attr

def onModifyRaw (raw : AttrDict) (name : Attribute) : AttrDict :=
  Table.tabulate (fun attr => formula param attr raw.read) name.modifyMapper

def refreshAllAttr (raw : AttrDict) : AttrDict :=
  Table.tabulate (fun attr => formula param attr raw.read) raw.keys

def evalHeroScore (attr : Attribute → ℚ) : ℤ :=
  ⌊(param.attackConstant * attr .att + param.hpConstant * attr .maxHp
      + param.defenseConstant * attr .defense)
    * (1 + 1 / 100 * (attr .hit + attr .miss + attr .crit + attr .critDef + attr .addHurt
      + attr .hurtDef))
    * (1 + 1 / 100 * attr .addFinalHurt)⌋

theorem formula_congr {attr : Attribute} {x y : Attribute → ℚ} (same : x attr = y attr)
    (same_inputs : ∀ name ∈ attr.inputs, x name = y name) :
    formula param attr x = formula param attr y := by
  cases attr <;> simp_all [formula, Attribute.inputs, Attribute.pctAttr, grown]

theorem formula_of_not_mem {attr name : Attribute} (outside : attr ∉ name.modifyMapper)
    (raw : AttrDict) (amount : ℚ) :
    formula param attr (raw.increase name amount).read = formula param attr raw.read := by
  rw [Attribute.mem_modifyMapper, not_or] at outside
  refine formula_congr param ?_ fun input reads => ?_
  · rw [Table.read_increase, if_neg outside.1, add_zero]
  · have different : input ≠ name := by
      rintro rfl
      exact outside.2 reads
    rw [Table.read_increase, if_neg different, add_zero]

end

def getAttrDictDiff (old new : Option AttrDict) : Option AttrDict :=
  match old, new with
  | none, none => none
  | none, some new => some new.nonzero
  | some old, new => some (Table.difference old (new.getD Table.empty))

def readOpt (dict : Option AttrDict) (attr : Attribute) : ℚ :=
  (dict.getD Table.empty).read attr

theorem read_getAttrDictDiff (old new : Option AttrDict) (attr : Attribute) :
    readOpt (getAttrDictDiff old new) attr = readOpt new attr - readOpt old attr := by
  cases old with
  | none =>
      cases new with
      | none => simp [readOpt, getAttrDictDiff]
      | some new => simp [readOpt, getAttrDictDiff]
  | some old => simp [readOpt, getAttrDictDiff]

/-- The fields of a hero that `refresh_hero_attr` computes. -/
structure Computed where
  rawAttrDict : AttrDict
  attrDict : AttrDict
  score : ℤ

section
variable (param : ParamData)

/-- The loop of `modify_hero_attr` over the names of the difference: the raw attributes and the
attributes to assign. -/
def modifyRaw (diff : AttrDict) (names : List Attribute) (raw ret : AttrDict) :
    AttrDict × AttrDict :=
  names.foldl (fun (raw, ret) name =>
    (raw.increase name (diff.read name),
      ret.update (onModifyRaw param (raw.increase name (diff.read name)) name))) (raw, ret)

/-- What `modify_hero_attr` does to a hero, for a difference that is not empty. -/
def Computed.modify (computed : Computed) (diff : AttrDict) : Computed :=
  let modified := modifyRaw param diff diff.keys computed.rawAttrDict Table.empty
  let attrDict := computed.attrDict.update modified.2
  { rawAttrDict := modified.1, attrDict, score := evalHeroScore param attrDict.read }

/-- The attributes and the score are those of the raw attributes. -/
structure Computed.Coherent (computed : Computed) : Prop where
  attrs : ∀ attr, computed.attrDict.read attr = formula param attr computed.rawAttrDict.read
  score : computed.score = evalHeroScore param computed.attrDict.read

/-- The attributes to assign are those of the raw attributes, and the others have not changed. -/
structure Recomputed (before raw ret : AttrDict) : Prop where
  assigned : ∀ attr value, ret.get attr = some value → value = formula param attr raw.read
  unchanged : ∀ attr, ret.get attr = none →
    formula param attr raw.read = formula param attr before.read

variable {param}

theorem Recomputed.step {before raw ret : AttrDict} (recomputed : Recomputed param before raw ret)
    (name : Attribute) (amount : ℚ) :
    Recomputed param before (raw.increase name amount)
      (ret.update (onModifyRaw param (raw.increase name amount) name)) := by
  have found : ∀ attr, (ret.update (onModifyRaw param (raw.increase name amount) name)).get attr =
      if attr ∈ name.modifyMapper then
        some (formula param attr (raw.increase name amount).read) else ret.get attr := by
    intro attr
    rw [Table.get_update, onModifyRaw, Table.get_tabulate]
    split
    · rfl
    · rfl
  constructor
  · intro attr value get
    rw [found] at get
    by_cases reads : attr ∈ name.modifyMapper
    · rw [if_pos reads] at get
      exact (Option.some.inj get).symm
    · rw [if_neg reads] at get
      rw [recomputed.assigned attr value get, formula_of_not_mem param reads]
  · intro attr get
    rw [found] at get
    by_cases reads : attr ∈ name.modifyMapper
    · rw [if_pos reads] at get
      cases get
    · rw [if_neg reads] at get
      rw [formula_of_not_mem param reads, recomputed.unchanged attr get]

theorem Recomputed.modifyRaw {before raw ret : AttrDict}
    (recomputed : Recomputed param before raw ret) (diff : AttrDict) (names : List Attribute) :
    Recomputed param before (modifyRaw param diff names raw ret).1
      (modifyRaw param diff names raw ret).2 := by
  induction names generalizing raw ret with
  | nil => exact recomputed
  | cons name names ih => exact ih (recomputed.step name (diff.read name))

theorem modifyRaw_fst (diff : AttrDict) (names : List Attribute) (raw ret : AttrDict) :
    (modifyRaw param diff names raw ret).1 =
      names.foldl (fun raw name => raw.increase name (diff.read name)) raw := by
  induction names generalizing raw ret with
  | nil => rfl
  | cons name names ih => exact ih _ _

theorem Computed.read_modify (computed : Computed) (diff : AttrDict) (attr : Attribute) :
    (computed.modify param diff).rawAttrDict.read attr =
      computed.rawAttrDict.read attr + diff.read attr := by
  dsimp only [Computed.modify]
  rw [modifyRaw_fst, ← Table.read_addAll]
  rfl

theorem Computed.Coherent.modify {computed : Computed} (coherent : computed.Coherent param)
    (diff : AttrDict) : (computed.modify param diff).Coherent param := by
  have start : Recomputed param computed.rawAttrDict computed.rawAttrDict Table.empty :=
    ⟨fun attr value get => absurd get (by simp), fun _ _ => rfl⟩
  have recomputed := start.modifyRaw diff diff.keys
  refine ⟨fun attr => ?_, rfl⟩
  dsimp only [Computed.modify]
  rw [Table.read, Table.get_update]
  cases get : (Hero.modifyRaw param diff diff.keys computed.rawAttrDict Table.empty).2.get attr with
  | none => exact (coherent.attrs attr).trans (recomputed.unchanged attr get).symm
  | some value => exact recomputed.assigned attr value get

end

end UEServer.Hero
