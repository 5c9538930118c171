import UEServer.Schema.Typed

/-!
# Reading fields of a row

`read_field` of `db/schema.lua` converts the selected columns one by one, as often as each is
selected.  This file says for each kind of field when it gives the value that the object of the row
has.
-/

namespace UEServer.Schema

open Lua FieldContainer Assoc

/-- What `data[k]` holds while `read_field` runs. -/
inductive Slot where
  | raw (cell : Cell)
  | converted (value : Val)

/-- `json.decode(data[k])`. -/
def Slot.decode? (texts : Texts) : Slot → Option Value
  | .raw cell => cell.decode? texts
  | .converted (.plain (.int value)) => throughText texts (.int value)
  | .converted (.plain (.flt value)) => throughText texts (.flt value)
  | .converted (.plain (.str text)) => texts.jsonDecode text
  | .converted _ => none

def Slot.value? : Slot → Option Val
  | .raw cell => cell.value?.map .plain
  | .converted value => some value

/-- What `read_field` does with a selected field. -/
def visit (texts : Texts) (field : Cls) : Option Slot → Option (Option Slot)
  | none => some (field.makeDefault.map .converted)
  | some slot =>
      if field.isPlain then some (some slot)
      else ((slot.decode? texts).bind field.fromSql).map fun value => some (.converted value)

/-- The loop of `read_field`. -/
def visitAll (texts : Texts) (fieldDict : List (String × Cls)) :
    List String → (String → Option Slot) → Option (String → Option Slot)
  | [], data => some data
  | key :: selector, data =>
      (fieldDict.lookup key).bind fun field =>
        (visit texts field (data key)).bind fun slot =>
          visitAll texts fieldDict selector (Function.update data key slot)

section
variable (texts : Texts) (collection : Collection)

/-- `read_field`. Without a column the query is not well formed, and raises. -/
def Collection.readField (row : Row) (selector : List String) : Option (String → Option Val) :=
  if selector = [] then none
  else
    (visitAll texts (collection.fieldDict texts) selector fun key =>
      if key ∈ selector then (row key).present?.map .raw else none).map
        fun data key => (data key).bind Slot.value?

end

def visits (texts : Texts) (field : Cls) : Nat → Option Slot → Option (Option Slot)
  | 0, slot => some slot
  | n + 1, slot => (visit texts field slot).bind (visits texts field n)

section
variable {texts : Texts} {fieldDict : List (String × Cls)}

theorem visitAll_eq_some {selector : List String} {data out : String → Option Slot}
    (done : visitAll texts fieldDict selector data = some out) (key : String) :
    (∀ field, fieldDict.lookup key = some field →
      visits texts field (selector.count key) (data key) = some (out key)) ∧
      (key ∉ selector → out key = data key) := by
  induction selector generalizing data with
  | nil =>
      cases done
      exact ⟨fun _ _ => rfl, fun _ => rfl⟩
  | cons first selector ih =>
      obtain ⟨other, declared, done⟩ := Option.bind_eq_some_iff.mp done
      obtain ⟨slot, visited, done⟩ := Option.bind_eq_some_iff.mp done
      obtain ⟨selected, absent⟩ := ih done
      by_cases same : key = first
      · subst same
        refine ⟨fun field found => ?_, fun none => absurd List.mem_cons_self none⟩
        cases declared.symm.trans found
        rw [List.count_cons_self, visits, visited, Option.bind_some]
        simpa using selected other declared
      · rw [Function.update_of_ne same] at selected absent
        refine ⟨fun field found => ?_, fun none => absent fun later => ?_⟩
        · rw [List.count_cons_of_ne (Ne.symm same)]
          exact selected field found
        · exact none (List.mem_cons_of_mem _ later)

theorem exists_visitAll {selector : List String} {data : String → Option Slot}
    (each : ∀ key ∈ selector, ∃ field, fieldDict.lookup key = some field ∧
      ∃ slot, visits texts field (selector.count key) (data key) = some slot) :
    ∃ out, visitAll texts fieldDict selector data = some out := by
  induction selector generalizing data with
  | nil => exact ⟨data, rfl⟩
  | cons first selector ih =>
      obtain ⟨field, declared, slot, visited⟩ := each first List.mem_cons_self
      rw [List.count_cons_self, visits] at visited
      obtain ⟨next, first_visited, visited⟩ := Option.bind_eq_some_iff.mp visited
      obtain ⟨out, done⟩ : ∃ out, visitAll texts fieldDict selector
          (Function.update data first next) = some out := by
        refine ih fun key mem => ?_
        by_cases same : key = first
        · subst same
          exact ⟨field, declared, slot, by rw [Function.update_self]; exact visited⟩
        · obtain ⟨other, found, slot', visited'⟩ := each key (List.mem_cons_of_mem _ mem)
          rw [List.count_cons_of_ne (Ne.symm same)] at visited'
          exact ⟨other, found, slot', by rw [Function.update_of_ne same]; exact visited'⟩
      exact ⟨out, by simp [visitAll, declared, first_visited, done]⟩

end

/-- A JSON value, decoded once more, is itself. -/
def Rereads (texts : Texts) : Value → Prop
  | .int _ => True
  | .flt value => texts.tonumber (texts.tostring (.flt value)) = some (.flt value)
  | _ => False

/-- The field reads alike on both paths: a boolean is `NULL`, an `INT` column holds an integer, and a
JSON column that is selected repeatedly gives nothing or a number. -/
def ReadsAlike (texts : Texts) (cell : Cell) (repeated : Prop) : Field → Prop
  | .bool _ => cell = .null
  | .int _ => cell = .null ∨ ∃ value, cell = .int value
  | .num _ | .str _ => True
  | .any defaultValue => repeated →
      (cell = .null → ∀ value ∈ defaultValue, Rereads texts value) ∧
        ∀ data, cell.decode? texts = some data → Rereads texts data
  | .obj _ _ hasDefault | .container _ _ _ hasDefault =>
      repeated → cell = .null ∧ hasDefault = false

/-- The value that the field has on the object of the row. -/
def loadedValue (texts : Texts) (field : Cls) (cell : Cell) : Option Val :=
  (cell.present?.bind (readCell texts field)).or field.makeDefault

/-- `read_field` gives the value of the object after so many visits. -/
def AlikeAfter (texts : Texts) (field : Cls) (cell : Cell) (n : Nat) : Prop :=
  ∃ slot, visits texts field n (cell.present?.map .raw) = some slot ∧
    slot.bind Slot.value? = loadedValue texts field cell

section
variable {texts : Texts}

variable {field : Cls}

theorem visits_plain (plain : field.isPlain = true) (n : Nat) (slot : Slot) :
    visits texts field n (some slot) = some (some slot) := by
  induction n with
  | zero => rfl
  | succ n ih => simpa [visits, visit, plain] using ih

theorem visits_none (noDefault : field.makeDefault = none) (n : Nat) :
    visits texts field n none = some none := by
  induction n with
  | zero => rfl
  | succ n ih => simpa [visits, visit, noDefault] using ih

/-- A plain column that is `NULL` gives the default, any other the value as it is stored. -/
theorem alikeAfter_plain (plain : field.isPlain = true) (cell : Cell) (n : Nat) :
    AlikeAfter texts field cell (n + 1) ↔ ∀ present, cell.present? = some present →
      present.value?.map .plain = (readCell texts field present).or field.makeDefault := by
  unfold AlikeAfter loadedValue
  cases found : cell.present? with
  | none =>
      refine ⟨fun _ present same => by (cases same), fun _ => ?_⟩
      refine ⟨field.makeDefault.map .converted, ?_, ?_⟩
      · simp only [visits, visit, Option.map_none, Option.bind_some]
        cases made : field.makeDefault with
        | none => exact visits_none made n
        | some value => exact visits_plain plain n _
      · cases field.makeDefault <;> rfl
  | some present =>
      rw [Option.map_some, visits_plain plain]
      constructor
      · rintro ⟨slot, same, equal⟩ other same'
        cases same
        cases same'
        exact equal
      · intro equal
        exact ⟨_, rfl, equal present rfl⟩

variable {cell : Cell}

/-- The first visit of a column that is not plain converts it as `load` does. -/
theorem visits_first (structured : field.isPlain = false)
    (loads : ∀ present, cell.present? = some present →
      ∃ value, readCell texts field present = some value) (n : Nat) :
    visits texts field (n + 1) (cell.present?.map .raw) =
      visits texts field n ((loadedValue texts field cell).map .converted) := by
  unfold loadedValue
  cases found : cell.present? with
  | none => rfl
  | some present =>
      obtain ⟨value, read⟩ := loads present found
      have decoded : (present.decode? texts).bind field.fromSql = some value := by
        simpa [readCell, structured] using read
      simp [visits, visit, structured, Slot.decode?, decoded, read]

/-- The value after it has been decoded so often. -/
def redecode (texts : Texts) : Nat → Value → Option Value
  | 0, data => some data
  | n + 1, data => ((Slot.converted (.plain data)).decode? texts).bind (redecode texts n)

variable {data : Value}

theorem rereads_of_throughText {number : Key}
    (written : throughText texts number = some data) : Rereads texts data := by
  unfold throughText at written
  split at written
  · cases written
    trivial
  · rename_i value denoted
    cases written
    exact texts.tonumber_stable _ _ denoted
  · cases written

theorem redecode_of_rereads (rereads : Rereads texts data) (n : Nat) :
    redecode texts n data = some data := by
  have once : (Slot.converted (.plain data)).decode? texts = some data := by
    cases data with
    | int value => simp [Slot.decode?, throughText, texts.tonumber_tostring]
    | flt value =>
        have denoted : texts.tonumber (texts.tostring (.flt value)) = some (.flt value) := rereads
        simp [Slot.decode?, throughText, denoted]
    | _ => cases rereads
  induction n with
  | zero => rfl
  | succ n ih => rw [redecode, once, Option.bind_some, ih]

/-- A string becomes shorter each time that it is decoded as a JSON text. -/
theorem redecode_str {n : Nat} {text : String}
    (decoded : redecode texts n data = some (.str text)) :
    ∃ other, data = .str other ∧ text.length + n ≤ other.length := by
  induction n generalizing data with
  | zero =>
      cases decoded
      exact ⟨text, rfl, le_rfl⟩
  | succ n ih =>
      obtain ⟨next, once, decoded⟩ := Option.bind_eq_some_iff.mp decoded
      obtain ⟨middle, rfl, shorter⟩ := ih decoded
      cases data with
      | int value | flt value => exact absurd (rereads_of_throughText once) id
      | str other =>
          have once_shorter := texts.jsonDecode_shorter other middle once
          exact ⟨other, rfl, by omega⟩
      | _ => cases once

theorem rereads_of_redecode {n : Nat}
    (decoded : redecode texts (n + 1) data = some data) : Rereads texts data := by
  obtain ⟨next, once, rest⟩ := Option.bind_eq_some_iff.mp decoded
  cases data with
  | int value => trivial
  | flt value =>
      have rereads := rereads_of_throughText once
      cases (redecode_of_rereads rereads n).symm.trans rest
      exact rereads
  | str text =>
      obtain ⟨other, same, shorter⟩ := redecode_str decoded
      cases same
      omega
  | _ => cases once

theorem visits_any (defaultValue : Option Value) (n : Nat) (data : Value) :
    visits texts (fieldAny defaultValue) n (some (.converted (.plain data))) =
      (redecode texts n data).map fun value => some (.converted (.plain value)) := by
  induction n generalizing data with
  | zero => rfl
  | succ n ih =>
      rw [visits, redecode]
      cases once : (Slot.converted (.plain data)).decode? texts with
      | none => simp [visit, fieldAny, once]
      | some value => simpa [visit, fieldAny, once] using ih value

theorem makeDefault_of_loadedValue
    (nothing : loadedValue texts field cell = none) : field.makeDefault = none :=
  (Option.or_eq_none_iff.mp nothing).2

variable {defaultValue : Option Value}

theorem loadedValue_any {v : Val}
    (loaded : loadedValue texts (fieldAny defaultValue) cell = some v) :
    ∃ data, v = .plain data := by
  rcases Option.or_eq_some_iff.mp loaded with read | ⟨-, made⟩
  · obtain ⟨present, -, read⟩ := Option.bind_eq_some_iff.mp read
    obtain ⟨data, -, same⟩ := Option.bind_eq_some_iff.mp read
    exact ⟨data, (Option.some.inj same).symm⟩
  · simp only [fieldAny] at made
    split at made <;> cases made <;> exact ⟨_, rfl⟩

/-- An untyped field that is visited again gives the same value if that is nothing or a number. -/
theorem alikeAfter_any
    (loads : ∀ present, cell.present? = some present →
      ∃ value, readCell texts (fieldAny defaultValue) present = some value) (n : Nat) :
    AlikeAfter texts (fieldAny defaultValue) cell (n + 1) ↔
      (0 < n → ∀ data, loadedValue texts (fieldAny defaultValue) cell = some (.plain data) →
        Rereads texts data) := by
  rw [AlikeAfter, visits_first rfl loads]
  cases loaded : loadedValue texts (fieldAny defaultValue) cell with
  | none =>
      refine ⟨fun _ _ data same => by (cases same), fun _ => ⟨none, ?_, rfl⟩⟩
      exact visits_none (makeDefault_of_loadedValue loaded) n
  | some v =>
      obtain ⟨data, rfl⟩ := loadedValue_any loaded
      rw [Option.map_some, visits_any]
      constructor
      · rintro ⟨slot, visited, same⟩ positive data' same'
        obtain ⟨n, rfl⟩ := Nat.exists_eq_succ_of_ne_zero positive.ne'
        obtain ⟨value, decoded, rfl⟩ := Option.map_eq_some_iff.mp visited
        cases same
        cases same'
        exact rereads_of_redecode decoded
      · intro rereads
        have decoded : redecode texts n data = some data := by
          cases n with
          | zero => rfl
          | succ n => exact redecode_of_rereads (rereads n.succ_pos data rfl) _
        exact ⟨some (.converted (.plain data)), by rw [decoded, Option.map_some], rfl⟩

/-- A field of objects or containers cannot be visited again once it has a value. -/
theorem alikeAfter_table (structured : field.isPlain = false)
    (loads : ∀ present, cell.present? = some present →
      ∃ value, readCell texts field present = some value)
    (table : ∀ v, loadedValue texts field cell = some v →
      (Slot.converted v).decode? texts = none) (n : Nat) :
    AlikeAfter texts field cell (n + 1) ↔ (0 < n → loadedValue texts field cell = none) := by
  rw [AlikeAfter, visits_first structured loads]
  cases loaded : loadedValue texts field cell with
  | none =>
      refine ⟨fun _ _ => rfl, fun _ => ⟨none, ?_, rfl⟩⟩
      exact visits_none (makeDefault_of_loadedValue loaded) n
  | some v =>
      constructor
      · rintro ⟨slot, visited, -⟩ positive
        obtain ⟨n, rfl⟩ := Nat.exists_eq_succ_of_ne_zero positive.ne'
        simp [visits, visit, structured, table v loaded] at visited
      · intro once
        cases n with
        | zero => exact ⟨some (.converted v), rfl, rfl⟩
        | succ n => cases once n.succ_pos

theorem loadedValue_eq_none
    (loads : ∀ present, cell.present? = some present →
      ∃ value, readCell texts field present = some value) :
    loadedValue texts field cell = none ↔ cell = .null ∧ field.makeDefault = none := by
  have null : cell.present? = none ↔ cell = .null := by cases cell <;> simp [Cell.present?]
  rw [loadedValue, Option.or_eq_none_iff, ← null]
  cases found : cell.present? with
  | none => simp
  | some present =>
      obtain ⟨value, read⟩ := loads present found
      simp [read]

theorem loadedValue_any_rereads
    (loads : ∀ present, cell.present? = some present →
      ∃ value, readCell texts (fieldAny defaultValue) present = some value) :
    (∀ data, loadedValue texts (fieldAny defaultValue) cell = some (.plain data) →
        Rereads texts data) ↔
      (cell = .null → ∀ value ∈ defaultValue, Rereads texts value) ∧
        ∀ data, cell.decode? texts = some data → Rereads texts data := by
  by_cases null : cell = .null
  · subst null
    simp only [loadedValue, Cell.present?, Option.bind_none, Option.none_or, Cell.decode?]
    cases defaultValue with
    | none => simp [fieldAny]
    | some value => cases value <;> simp [fieldAny, Rereads]
  · have present : cell.present? = some cell := by
      cases cell with
      | null => exact absurd rfl null
      | _ => rfl
    obtain ⟨value, read⟩ := loads cell present
    obtain ⟨data, decoded, -⟩ := Option.bind_eq_some_iff.mp read
    have decoded : cell.decode? texts = some data := decoded
    have loaded : loadedValue texts (fieldAny defaultValue) cell = some (.plain data) := by
      simp [loadedValue, present, readCell, fieldAny, decoded]
    simp [loaded, decoded, null]

theorem floor_ne_str {text : String} (floored : floor texts data = some (.str text)) :
    False := by
  cases data with
  | str other =>
      simp only [floor] at floored
      split at floored <;> cases floored
  | _ => cases floored

theorem alikeAfter_int
    (loads : ∀ present, cell.present? = some present →
      ∃ value, readCell texts (fieldInt texts defaultValue) present = some value) (n : Nat) :
    AlikeAfter texts (fieldInt texts defaultValue) cell (n + 1) ↔
      cell = .null ∨ ∃ value, cell = .int value := by
  refine (alikeAfter_plain rfl cell n).trans ?_
  cases cell with
  | null => simp [Cell.present?]
  | int value => simp [Cell.present?, Cell.value?, readCell, fieldInt, fieldPlain, floor]
  | flt value => simp [Cell.present?, Cell.value?, readCell, fieldInt, fieldPlain, floor]
  | text json =>
      obtain ⟨value, read⟩ := loads _ rfl
      cases read
  | str text =>
      obtain ⟨value, read⟩ := loads _ rfl
      have different : value ≠ .plain (.str text) := by
        rintro rfl
        obtain ⟨data, floored, same⟩ := Option.map_eq_some_iff.mp read
        cases same
        exact floor_ne_str floored
      refine iff_of_false (fun alike => different ?_) (by simp)
      have same := alike _ rfl
      rw [read, Option.some_or] at same
      exact (Option.some.inj same).symm

theorem alikeAfter_bool
    (loads : ∀ present, cell.present? = some present →
      ∃ value, readCell texts (fieldBool defaultValue) present = some value) (n : Nat) :
    AlikeAfter texts (fieldBool defaultValue) cell (n + 1) ↔ cell = .null := by
  refine (alikeAfter_plain rfl cell n).trans ?_
  cases cell with
  | text json =>
      obtain ⟨value, read⟩ := loads _ rfl
      cases read
  | _ => simp [Cell.present?, Cell.value?, readCell, fieldBool, fieldPlain, boolFromSql]

theorem loadedValue_table {v : Val}
    (loaded : loadedValue texts field cell = some v) :
    (∃ data, field.fromSql data = some v) ∨ field.makeDefault = some v := by
  rcases Option.or_eq_some_iff.mp loaded with read | ⟨-, made⟩
  · obtain ⟨present, -, read⟩ := Option.bind_eq_some_iff.mp read
    obtain ⟨data, -, converted⟩ := Option.bind_eq_some_iff.mp read
    exact .inl ⟨data, converted⟩
  · exact .inr made

theorem loadedValue_obj {id : Nat} {fieldDict : List (String × Cls)} {hasDefault : Bool}
    {v : Val} (loaded : loadedValue texts (fieldObj texts id fieldDict hasDefault) cell = some v) :
    ∃ con, v = .obj id con := by
  rcases loadedValue_table loaded with ⟨data, converted⟩ | made
  · obtain ⟨entries, -, converted⟩ := Option.bind_eq_some_iff.mp converted
    obtain ⟨con, -, rfl⟩ := Option.map_eq_some_iff.mp converted
    exact ⟨con, rfl⟩
  · simp only [fieldObj] at made
    split at made <;> cases made
    exact ⟨[], rfl⟩

theorem loadedValue_container {id : Nat} {keyField : KeyField} {value : Cls} {hasDefault : Bool} {v : Val}
    (loaded : loadedValue texts (fieldContainer texts id keyField value hasDefault) cell = some v) :
    ∃ con, v = .container id con := by
  rcases loadedValue_table loaded with ⟨data, converted⟩ | made
  · obtain ⟨entries, -, converted⟩ := Option.bind_eq_some_iff.mp converted
    obtain ⟨con, -, rfl⟩ := Option.map_eq_some_iff.mp converted
    exact ⟨assignAll con, rfl⟩
  · simp only [fieldContainer] at made
    split at made <;> cases made
    exact ⟨[], rfl⟩

/-- A field that has been visited gives the value of the object exactly if it reads alike. -/
theorem alikeAfter_iff (field : Field)
    (loads : ∀ present, cell.present? = some present →
      ∃ value, readCell texts (compile texts field) present = some value) (n : Nat) :
    AlikeAfter texts (compile texts field) cell (n + 1) ↔ ReadsAlike texts cell (0 < n) field := by
  have raw : ∀ {defaultValue accepts}, (∀ present, cell.present? = some present →
      ∃ value, readCell texts (fieldPlain defaultValue accepts id some) present = some value) →
      AlikeAfter texts (fieldPlain defaultValue accepts id some) cell (n + 1) := by
    intro defaultValue accepts loads
    refine (alikeAfter_plain rfl cell n).mpr fun present found => ?_
    obtain ⟨value, read⟩ := loads present found
    obtain ⟨data, raw, same⟩ := Option.bind_eq_some_iff.mp read
    have raw : present.value? = some data := raw
    rw [read, raw, Option.some_or, ← same]
    rfl
  cases field with
  | any defaultValue =>
      exact (alikeAfter_any loads n).trans
        (imp_congr_right fun _ => loadedValue_any_rereads loads)
  | int defaultValue => exact alikeAfter_int loads n
  | num defaultValue => exact iff_of_true (raw loads) trivial
  | bool defaultValue => exact alikeAfter_bool loads n
  | str defaultValue => exact iff_of_true (raw loads) trivial
  | obj id fields hasDefault =>
      refine (alikeAfter_table rfl loads (fun v loaded => ?_) n).trans
        (imp_congr_right fun _ => ?_)
      · obtain ⟨con, rfl⟩ := loadedValue_obj loaded
        rfl
      · refine (loadedValue_eq_none loads).trans (and_congr_right fun _ => ?_)
        cases hasDefault <;> simp [compile, fieldObj]
  | container id keyField value hasDefault =>
      refine (alikeAfter_table rfl loads (fun v loaded => ?_) n).trans
        (imp_congr_right fun _ => ?_)
      · obtain ⟨con, rfl⟩ := loadedValue_container loaded
        rfl
      · refine (loadedValue_eq_none loads).trans (and_congr_right fun _ => ?_)
        cases hasDefault <;> simp [compile, fieldContainer]

end

end UEServer.Schema
