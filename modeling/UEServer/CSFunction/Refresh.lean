import Mathlib.Algebra.Field.Rat
import UEServer.CSFunction.Attr
import UEServer.Library.Execution

/-!
# The attributes that are refreshed

A change of one raw attribute is followed by the formulas that read it.  They give what all formulas
would give, as long as none of them misses its own attribute.
-/

namespace UEServer.CSFunction

variable {ρ : Type*} [Zero ρ] [One ρ] [Add ρ] [Mul ρ]

/-- The raw attributes and the final ones, if no formula has raised. -/
structure State (ρ : Type*) where
  raw : AttrDict ρ
  attr : Option (AttrDict ρ)

/-- A raw attribute gets a value, and `on_modify_raw` is applied to the final attributes. -/
def step (data : AttributeData) (param : ParamData ρ) (mapper : Mapper) (state : State ρ)
    (change : String × ρ) : Option (State ρ) :=
  if (mapper change.1).isSome then
    let raw := state.raw.set change.1 (some change.2)
    some
      { raw := raw
        attr := state.attr.bind fun attr =>
          (data.onModifyRaw param mapper raw change.1).map fun ret => attr.update ret }
  else none

/-- The final attributes are those that `refresh_all_attr` gives. -/
def Refreshed (data : AttributeData) (param : ParamData ρ) (state : State ρ) : Prop :=
  ∃ attr full, state.attr = some attr ∧ data.refreshAllAttr param state.raw = some full ∧
    ∀ name, attr.get name = full.get name

/-- The attributes that the changed one is a percentage of are there. -/
def Based (data : AttributeData) (state : State ρ) (change : String × ρ) : Prop :=
  ∀ row ∈ data.rows, row.pctAttr = some change.1 →
    ((state.raw.set change.1 (some change.2)).get row.name).isSome

instance (data : AttributeData) (state : State ρ) (change : String × ρ) :
    Decidable (Based data state change) :=
  List.decidableBAll _ data.rows

/-- The raw attributes are in the table, and those that are needed are there. -/
structure Proper (data : AttributeData) (raw : AttrDict ρ) : Prop where
  listed : ∀ name, (raw.get name).isSome → (data.row name).isSome
  maxHp : (raw.get "max_hp").isSome
  att : (raw.get "att").isSome

variable {data : AttributeData} {param : ParamData ρ} {mapper : Mapper} {raw : AttrDict ρ}
  {state after : State ρ} {row : Row} {name : String} {change : String × ρ}

theorem row_name (found : data.row name = some row) : row.name = name := by
  have same := @List.find?_some Row (fun row : Row => decide (row.name = name)) _ _ found
  exact of_decide_eq_true same

theorem row_mem (found : data.row name = some row) : row ∈ data.rows :=
  List.mem_of_find?_eq_some found

theorem row_of_mem (mem : row ∈ data.rows) : data.row row.name = some row := by
  cases found : data.row row.name with
  | none =>
      have absent := List.find?_eq_none.mp found row mem
      exact absurd (decide_eq_true rfl) absent
  | some other =>
      rw [List.inj_on_of_nodup_map data.nodup (row_mem found) mem (row_name found)]

/-- What is inserted under a key is added to its list. -/
def Grown (before after : Mapper) (added : String → String → Prop) : Prop :=
  ∀ key, Option.Rel (fun names later => ∀ name, name ∈ later ↔ name ∈ names ∨ added key name)
    (before key) (after key)

theorem insert_grown {before after : Mapper} {key : Option String}
    (inserted : insert name before key = some after) :
    Grown before after fun other added => key = some other ∧ added = name := by
  obtain ⟨key, rfl, inserted⟩ := Option.bind_eq_some_iff.mp inserted
  obtain ⟨names, found, rfl⟩ := Option.map_eq_some_iff.mp inserted
  intro other
  by_cases same : other = key
  · subst same
    rw [Function.update_self, found]
    exact .some fun added => by simp
  · rw [Function.update_of_ne same]
    cases before other with
    | none => exact .none
    | some names => exact .some fun added => by simp [Ne.symm same]

theorem Grown.trans {before middle after : Mapper} {first second : String → String → Prop}
    (left : Grown before middle first) (right : Grown middle after second) :
    Grown before after fun key name => first key name ∨ second key name := by
  intro key
  have left := left key
  have right := right key
  generalize before key = names at left ⊢
  generalize middle key = between at left right
  generalize after key = later at right ⊢
  cases left with
  | none =>
      cases right
      exact .none
  | some left =>
      cases right with
      | some right => exact .some fun name => by rw [right, left, or_assoc]

theorem Grown.congr {before after : Mapper} {first second : String → String → Prop}
    (grown : Grown before after first) (same : ∀ key name, first key name ↔ second key name) :
    Grown before after second := by
  have equal : first = second := by
    funext key name
    exact propext (same key name)
  rwa [← equal]

theorem Grown.refl (mapper : Mapper) : Grown mapper mapper fun _ _ => False := by
  intro key
  cases mapper key with
  | none => exact .none
  | some names => exact .some fun name => by simp

theorem dependencies_grown {before after : Mapper} {keys : List (Option String)}
    (inserted : keys.foldlM (insert name) before = some after) :
    Grown before after fun key added => some key ∈ keys ∧ added = name := by
  induction keys generalizing before with
  | nil =>
      obtain rfl := Option.some.inj inserted
      exact (Grown.refl before).congr fun key added => by simp
  | cons key keys ih =>
      obtain ⟨middle, first, rest⟩ := Option.bind_eq_some_iff.mp inserted
      refine ((insert_grown first).trans (ih rest)).congr fun other added => ?_
      rw [List.mem_cons, eq_comm]
      exact or_and_right.symm

theorem rows_grown {before after : Mapper} {rows : List Row}
    (inserted : rows.foldlM (fun mapper row => row.dependencies.foldlM (insert row.name) mapper)
      before = some after) :
    Grown before after fun key added => ∃ row ∈ rows, some key ∈ row.dependencies ∧ added = row.name := by
  induction rows generalizing before with
  | nil =>
      obtain rfl := Option.some.inj inserted
      exact (Grown.refl before).congr fun key added => by simp
  | cons row rows ih =>
      obtain ⟨middle, first, rest⟩ := Option.bind_eq_some_iff.mp inserted
      refine ((dependencies_grown first).trans (ih rest)).congr fun key added => ?_
      rw [List.exists_mem_cons_iff]

variable {names : List String}

/-- An attribute is computed anew exactly if it has changed or its formula reads what has. -/
theorem mem_modifyMapper (loaded : data.modifyMapper = some mapper)
    (found : mapper name = some names) (other : String) :
    other ∈ names ↔
      other = name ∨ ∃ row ∈ data.rows, some name ∈ row.dependencies ∧ other = row.name := by
  have grown := rows_grown loaded name
  rw [found] at grown
  cases listed : data.row name with
  | none =>
      rw [listed] at grown
      cases grown
  | some row =>
      rw [listed] at grown
      cases grown with
      | some same => rw [same, List.mem_singleton]

theorem modifyMapper_isSome (loaded : data.modifyMapper = some mapper) (name : String) :
    (mapper name).isSome ↔ (data.row name).isSome := by
  have grown := rows_grown loaded name
  generalize mapper name = names at grown ⊢
  cases listed : data.row name with
  | none =>
      rw [listed] at grown
      cases grown
      exact Iff.rfl
  | some row =>
      rw [listed] at grown
      cases grown
      exact iff_of_true rfl rfl

/-- A formula depends on its attribute and those under which it is inserted. -/
theorem formula_congr {x y : String → Option ρ} (same : x row.name = y row.name)
    (same_inputs : ∀ name, some name ∈ row.dependencies → x name = y name) :
    row.formula param x = row.formula param y := by
  have pct : row.pctAttr.bind x = row.pctAttr.bind y := by
    cases link : row.pctAttr with
    | none => rfl
    | some pct =>
        refine same_inputs pct ?_
        rw [Row.dependencies, link]
        split
        · simp
        · split <;> simp
  unfold Row.dependencies at same_inputs
  unfold Row.formula
  by_cases maxHp : row.name = "max_hp"
  · rw [if_pos maxHp] at same_inputs
    simp only [if_pos maxHp, Row.grown, Option.bind_some, same, pct,
      same_inputs "business" (by simp), same_inputs "business_pct" (by simp),
      same_inputs "management" (by simp), same_inputs "management_pct" (by simp),
      same_inputs "renown" (by simp), same_inputs "renown_pct" (by simp)]
  · by_cases att : row.name = "att"
    · rw [if_neg maxHp, if_pos att] at same_inputs
      simp only [if_neg maxHp, if_pos att, Row.grown, Option.bind_some, same, pct,
        same_inputs "fight" (by simp), same_inputs "fight_pct" (by simp)]
    · rw [if_neg maxHp, if_neg att, if_neg maxHp, if_neg att]
      cases link : row.pctAttr with
      | none => exact congrArg some same
      | some name =>
          rw [link, Option.bind_some, Option.bind_some] at pct
          simp only [Row.grown, Option.bind_some, same, pct]

theorem formula_of_present {x : String → Option ρ} (present : (x row.name).isSome) :
    ∃ value, row.formula param x = some (some value) := by
  obtain ⟨value, found⟩ := Option.isSome_iff_exists.mp present
  unfold Row.formula
  split
  · exact ⟨_, by rw [found]; rfl⟩
  · split
    · exact ⟨_, by rw [found]; rfl⟩
    · split
      · exact ⟨_, by rw [found]; rfl⟩
      · exact ⟨value, congrArg some found⟩

/-- The formula of an attribute that is a number with a percentage raises if it is not there. -/
theorem formula_of_absent {x : String → Option ρ} (absent : x row.name = none) {pct : String}
    (link : row.pctAttr = some pct) : row.formula param x = none := by
  unfold Row.formula
  split
  · rw [absent, Option.map_none]
  · split
    · rw [absent, Option.map_none]
    · rw [link, absent]
      rfl

def valueOf (data : AttributeData) (param : ParamData ρ) (raw : AttrDict ρ) (name : String) :
    Option (Option ρ) :=
  (data.row name).bind fun row => row.formula param raw.get

theorem assignAll_spec (dict : AttrDict ρ)
    (valued : ∀ name ∈ names, ∃ value, valueOf data param raw name = some (some value)) :
    ∃ all, data.assignAll param raw names dict = some all ∧ ∀ name,
      all.get name = if name ∈ names then (valueOf data param raw name).join else dict.get name := by
  induction names generalizing dict with
  | nil => exact ⟨dict, rfl, fun name => by simp⟩
  | cons first names ih =>
      obtain ⟨value, computed⟩ := valued first List.mem_cons_self
      obtain ⟨all, assigned, values⟩ := ih (dict.set first (some value))
        fun name mem => valued name (List.mem_cons_of_mem first mem)
      refine ⟨all, ?_, fun name => ?_⟩
      · change (valueOf data param raw first).bind _ = _
        rw [computed, Option.bind_some, assigned]
      · rw [values, Table.get_set]
        by_cases later : name ∈ names
        · rw [if_pos later, if_pos (List.mem_cons_of_mem first later)]
        · rw [if_neg later]
          by_cases here : name = first
          · subst here
            rw [if_pos rfl, if_pos List.mem_cons_self, computed]
            rfl
          · rw [if_neg here, if_neg fun mem => (List.mem_cons.mp mem).elim here later]

theorem assignAll_raises (dict : AttrDict ρ) (mem : name ∈ names)
    (raises : valueOf data param raw name = none) :
    data.assignAll param raw names dict = none := by
  induction names generalizing dict with
  | nil => cases mem
  | cons first names ih =>
      change (valueOf data param raw first).bind _ = _
      rcases List.mem_cons.mp mem with rfl | mem
      · rw [raises, Option.bind_none]
      · cases valueOf data param raw first with
        | none => rfl
        | some value => exact ih _ mem

theorem Proper.valued (proper : Proper data raw) (present : (raw.get name).isSome) :
    ∃ value, valueOf data param raw name = some (some value) := by
  obtain ⟨row, found⟩ := Option.isSome_iff_exists.mp (proper.listed name present)
  rw [← row_name found] at present
  obtain ⟨value, computed⟩ := @formula_of_present _ _ _ _ _ param _ _ present
  exact ⟨value, by rw [valueOf, found]; exact computed⟩

theorem Proper.refresh (proper : Proper data raw) :
    ∃ full, data.refreshAllAttr param raw = some full ∧ ∀ name,
      full.get name = if (raw.get name).isSome then (valueOf data param raw name).join else none := by
  have valued : ∀ name ∈ raw.keys, ∃ value, valueOf data param raw name = some (some value) :=
    fun name mem => proper.valued (Option.isSome_iff_ne_none.mpr ((raw.mem_keys name).mp mem))
  obtain ⟨full, refreshed, values⟩ := assignAll_spec Table.empty valued
  refine ⟨full, refreshed, fun name => ?_⟩
  rw [values, Table.get_empty]
  simp only [Table.mem_keys, Option.isSome_iff_ne_none]

omit [Zero ρ] [One ρ] [Add ρ] [Mul ρ] in
theorem Proper.set (proper : Proper data raw) (listed : (data.row name).isSome) (value : ρ) :
    Proper data (raw.set name (some value)) := by
  have kept : ∀ other, (raw.get other).isSome → ((raw.set name (some value)).get other).isSome := by
    intro other present
    rw [Table.get_set]
    split
    · rfl
    · exact present
  refine ⟨fun other present => ?_, kept _ proper.maxHp, kept _ proper.att⟩
  rw [Table.get_set] at present
  split at present
  · rename_i same
    rwa [same]
  · exact proper.listed other present

theorem pct_mem_dependencies {pct : String} (link : row.pctAttr = some pct) :
    some pct ∈ row.dependencies := by
  rw [Row.dependencies, link]
  split
  · simp
  · split <;> simp

omit [Zero ρ] [One ρ] [Add ρ] [Mul ρ] in
theorem present_of_mem (loaded : data.modifyMapper = some mapper)
    (proper : Proper data (state.raw.set change.1 (some change.2))) (based : Based data state change) (found : mapper change.1 = some names) {other : String}
    (mem : other ∈ names) : ((state.raw.set change.1 (some change.2)).get other).isSome := by
  rcases (mem_modifyMapper loaded found other).mp mem with rfl | ⟨row, listed, reads, rfl⟩
  · rw [Table.get_set_self]
    rfl
  · rw [Row.dependencies] at reads
    split at reads
    · rename_i maxHp
      rw [maxHp]
      exact proper.maxHp
    · split at reads
      · rename_i att
        rw [att]
        exact proper.att
      · obtain ⟨pct, link, same⟩ := List.mem_map.mp reads
        obtain rfl := Option.some.inj same
        exact based row listed (Option.mem_toList.mp link)

theorem valueOf_set (loaded : data.modifyMapper = some mapper)
    (found : mapper name = some names) {other : String} (outside : other ∉ names) (value : ρ) :
    valueOf data param (raw.set name (some value)) other = valueOf data param raw other := by
  rw [mem_modifyMapper loaded found, not_or] at outside
  unfold valueOf
  cases listed : data.row other with
  | none => rfl
  | some row =>
      refine formula_congr ?_ fun input reads => ?_
      · rw [row_name listed]
        exact Table.get_set_of_ne _ _ outside.1
      · refine Table.get_set_of_ne _ _ ?_
        rintro rfl
        exact outside.2 ⟨row, row_mem listed, reads, (row_name listed).symm⟩

theorem step_proper (loaded : data.modifyMapper = some mapper) (proper : Proper data state.raw)
    (taken : step data param mapper state change = some after) : Proper data after.raw := by
  obtain ⟨listed, same⟩ := Option.ite_none_right_eq_some.mp taken
  cases same
  exact proper.set ((modifyMapper_isSome loaded change.1).mp listed) change.2

/-- One change is refreshed exactly if the attributes that it is a percentage of are there. -/
theorem step_refreshed_iff (loaded : data.modifyMapper = some mapper)
    (proper : Proper data state.raw) (refreshed : Refreshed data param state)
    (taken : step data param mapper state change = some after) :
    Refreshed data param after ↔ Based data state change := by
  have kept := step_proper loaded proper taken
  obtain ⟨listed, same⟩ := Option.ite_none_right_eq_some.mp taken
  cases same
  obtain ⟨names, found⟩ := Option.isSome_iff_exists.mp listed
  obtain ⟨attr, before, attr_eq, before_eq, agrees⟩ := refreshed
  constructor
  · rintro ⟨final, full, final_eq, -, -⟩
    by_contra unbased
    simp only [Based, not_forall] at unbased
    obtain ⟨row, mem, link, absent⟩ := unbased
    have raises : valueOf data param (state.raw.set change.1 (some change.2)) row.name = none := by
      rw [valueOf, row_of_mem mem]
      exact formula_of_absent (Option.not_isSome_iff_eq_none.mp absent) link
    have inside : row.name ∈ names :=
      (mem_modifyMapper loaded found row.name).mpr (.inr ⟨row, mem, pct_mem_dependencies link, rfl⟩)
    obtain ⟨attr, -, updated⟩ := Option.bind_eq_some_iff.mp final_eq
    obtain ⟨ret, modified, -⟩ := Option.map_eq_some_iff.mp updated
    rw [AttributeData.onModifyRaw, found, Option.bind_some, assignAll_raises _ inside raises] at modified
    cases modified
  · intro based
    have present : ∀ other ∈ names,
        ((state.raw.set change.1 (some change.2)).get other).isSome := fun other mem =>
      present_of_mem loaded kept based found mem
    obtain ⟨ret, assigned, values⟩ := @assignAll_spec _ _ _ _ _ data param _ names Table.empty
      fun other mem => kept.valued (present other mem)
    obtain ⟨full, full_eq, full_values⟩ := @Proper.refresh _ _ _ _ _ _ param _ kept
    refine ⟨attr.update ret, full, ?_, full_eq, fun other => ?_⟩
    · rw [attr_eq, Option.bind_some, AttributeData.onModifyRaw, found, Option.bind_some, assigned]
      rfl
    · rw [Table.get_update, values, full_values]
      by_cases inside : other ∈ names
      · obtain ⟨value, computed⟩ := @Proper.valued _ _ _ _ _ _ param _ _ kept (present other inside)
        rw [if_pos inside, if_pos (present other inside), computed]
        rfl
      · obtain ⟨old, old_eq, old_values⟩ := @Proper.refresh _ _ _ _ _ _ param _ proper
        cases before_eq.symm.trans old_eq
        have different : other ≠ change.1 := fun same =>
          inside ((mem_modifyMapper loaded found other).mpr (.inl same))
        rw [if_neg inside, Table.get_empty, Option.isSome_none,
          if_neg Bool.false_ne_true, agrees, old_values,
          valueOf_set loaded found inside, Table.get_set_of_ne _ _ different]

/-- A table with the attributes that `max_hp` and `att` need, and a defence. -/
def smallData : AttributeData where
  rows :=
    [⟨"max_hp", some "max_hp_pct"⟩, ⟨"max_hp_pct", none⟩, ⟨"att", some "att_pct"⟩, ⟨"att_pct", none⟩,
      ⟨"business", some "business_pct"⟩, ⟨"business_pct", none⟩, ⟨"management", none⟩,
      ⟨"management_pct", none⟩, ⟨"renown", none⟩, ⟨"renown_pct", none⟩, ⟨"fight", none⟩,
      ⟨"fight_pct", none⟩, ⟨"def", some "def_pct"⟩, ⟨"def_pct", none⟩]
  nodup := by decide

def smallParam : ParamData ℚ := ⟨2, 3, 4, 5, 1 / 100⟩

def smallMapper : Mapper := smallData.modifyMapper.get (by decide +kernel)

/-- The hit points and the attack alone, with the final attributes. -/
def smallState : State ℚ :=
  let raw := (Table.empty.set "max_hp" (some 100)).set "att" (some 10)
  ⟨raw, smallData.refreshAllAttr smallParam raw⟩

theorem smallMapper_loaded : smallData.modifyMapper = some smallMapper :=
  (Option.some_get _).symm

theorem smallState_proper : Proper smallData smallState.raw := by
  refine ⟨fun name present => ?_, by decide +kernel, by decide +kernel⟩
  have raw : smallState.raw = (Table.empty.set "max_hp" (some 100)).set "att" (some 10) := rfl
  rw [raw, Table.get_set] at present
  split at present
  · rename_i att
    rw [att]
    decide +kernel
  · rw [Table.get_set] at present
    split at present
    · rename_i maxHp
      rw [maxHp]
      decide +kernel
    · cases present

theorem smallState_refreshed : Refreshed smallData smallParam smallState := by
  obtain ⟨full, refreshed, -⟩ := @Proper.refresh _ _ _ _ _ _ smallParam _ smallState_proper
  exact ⟨full, full, refreshed, refreshed, fun _ => rfl⟩

end UEServer.CSFunction
