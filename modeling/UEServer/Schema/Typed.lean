import UEServer.Schema.Collection

/-!
# Typed values

What the converters accept is typed: its parts are of the classes that the schema declares.
-/

namespace UEServer.Schema

open Lua FieldContainer Assoc

theorem Field.induct {motive : Field → Prop}
    (leaf : ∀ field, (∀ id fields hasDefault, field ≠ .obj id fields hasDefault) →
      (∀ id keyField value hasDefault, field ≠ .container id keyField value hasDefault) →
      motive field)
    (object : ∀ id fields hasDefault, (∀ member ∈ fields, motive member.2) →
      motive (.obj id fields hasDefault))
    (dict : ∀ id keyField value hasDefault, motive value →
      motive (.container id keyField value hasDefault))
    (field : Field) : motive field := by
  refine @Field.rec motive (fun fields => ∀ member ∈ fields, motive member.2)
    (fun member => motive member.2) ?_ ?_ ?_ ?_ ?_ ?_ ?_ ?_ ?_ ?_ field
  · exact fun _ => leaf _ (by simp) (by simp)
  · exact fun _ => leaf _ (by simp) (by simp)
  · exact fun _ => leaf _ (by simp) (by simp)
  · exact fun _ => leaf _ (by simp) (by simp)
  · exact fun _ => leaf _ (by simp) (by simp)
  · exact fun id fields hasDefault members => object id fields hasDefault members
  · exact fun id keyField value hasDefault member => dict id keyField value hasDefault member
  · exact fun _ none => by cases none
  · intro member members first rest other mem
    rcases List.mem_cons.mp mem with rfl | later
    · exact first
    · exact rest other later
  · exact fun _ _ member => member

def storedKey (keyField : KeyField) : Key → Bool
  | .bool false => keyField = .int
  | key => acceptsKey keyField key

mutual

/-- The parts of the value are of the classes that the field declares. -/
def Typed : Field → Val → Prop
  | .any _, _ => True
  | .int _, v => ∃ data, v = .plain data ∧ acceptsInt data = true
  | .num _, v => ∃ data, v = .plain data ∧ acceptsNum data = true
  | .bool _, v => ∃ data, v = .plain data ∧ acceptsBool data = true
  | .str _, v => ∃ data, v = .plain data ∧ acceptsStr data = true
  | .obj id fields _, v => ∃ con, v = .obj id con ∧ (con.map Prod.fst).Nodup ∧
      ∀ member ∈ con, TypedMember fields member.1 member.2
  | .container id keyField value _, v => ∃ con, v = .container id con ∧ (con.map Prod.fst).Nodup ∧
      (∀ member ∈ con, storedKey keyField member.1) ∧ ∀ member ∈ con, Typed value member.2

/-- The name is declared, and the value is typed for its field. -/
def TypedMember : List (String × Field) → String → Val → Prop
  | [], _, _ => False
  | (name, field) :: fields, key, v =>
      if key = name then Typed field v else TypedMember fields key v

end

theorem storedKey_of_accepts {keyField : KeyField} {key : Key}
    (accepted : acceptsKey keyField key = true) : storedKey keyField key = true := by
  cases key with
  | bool value => cases accepted
  | _ => exact accepted

theorem typedMember_iff {fields : List (String × Field)} {name : String} {v : Val} :
    TypedMember fields name v ↔ ∃ field, fields.lookup name = some field ∧ Typed field v := by
  induction fields with
  | nil => simp [TypedMember]
  | cons member fields ih =>
      obtain ⟨other, field⟩ := member
      rw [TypedMember, List.lookup_cons]
      by_cases same : name = other
      · simp [same]
      · rw [if_neg same, beq_false_of_ne same]
        exact ih

theorem lookup_compileFields (texts : Texts) (fields : List (String × Field)) (name : String) :
    (compileFields texts fields).lookup name = (fields.lookup name).map (compile texts) := by
  induction fields with
  | nil => rfl
  | cons member fields ih =>
      obtain ⟨other, field⟩ := member
      rw [compileFields, List.lookup_cons, List.lookup_cons, ih]
      cases name == other <;> rfl

section
variable {κ ν : Type*} [DecidableEq κ]

theorem mem_assign {con : List (κ × ν)} {key : κ} {value : ν} {entry : κ × ν} :
    entry ∈ assign con key value ↔ (entry ∈ con ∧ entry.1 ≠ key) ∨ entry = (key, value) := by
  simp [assign]

theorem lookup_assign (con : List (κ × ν)) (key : κ) (value : ν) :
    (assign con key value).lookup key = some value := by
  rw [assign, List.lookup_append, List.lookup_eq_none_iff.mpr]
  · simp
  · intro entry mem
    have different : entry.1 ≠ key := of_decide_eq_true (List.mem_filter.mp mem).2
    simp [different.symm]

theorem lookup_assign_of_ne (con : List (κ × ν)) {key other : κ} (value : ν)
    (different : other ≠ key) : (assign con key value).lookup other = con.lookup other := by
  rw [assign, List.lookup_append, List.lookup_cons, beq_false_of_ne different, List.lookup_nil,
    Option.or_none]
  induction con with
  | nil => rfl
  | cons entry con ih =>
      rw [List.filter_cons]
      by_cases same : entry.1 = key
      · rw [if_neg (by simpa using same), ih, List.lookup_cons, same, beq_false_of_ne different]
      · rw [if_pos (by simpa using same), List.lookup_cons, List.lookup_cons, ih]

theorem assign_nodup {con : List (κ × ν)} (nodup : (con.map Prod.fst).Nodup) (key : κ)
    (value : ν) : ((assign con key value).map Prod.fst).Nodup := by
  rw [assign, List.map_append, List.nodup_append]
  refine ⟨nodup.sublist (List.filter_sublist.map _), List.nodup_singleton _, ?_⟩
  intro first first_mem second second_mem
  obtain ⟨entry, mem, rfl⟩ := List.mem_map.mp first_mem
  obtain rfl : second = key := by simpa using second_mem
  simpa using (List.mem_filter.mp mem).2

theorem foldl_assign_spec (entries con : List (κ × ν)) (nodup : (con.map Prod.fst).Nodup) :
    ((entries.foldl (fun con entry => assign con entry.1 entry.2) con).map Prod.fst).Nodup ∧
      ∀ entry ∈ entries.foldl (fun con entry => assign con entry.1 entry.2) con,
        entry ∈ con ∨ entry ∈ entries := by
  induction entries generalizing con with
  | nil => exact ⟨nodup, fun entry mem => .inl mem⟩
  | cons first entries ih =>
      obtain ⟨nodup', members⟩ := ih (assign con first.1 first.2) (assign_nodup nodup _ _)
      refine ⟨nodup', fun entry mem => ?_⟩
      rcases members entry mem with before | later
      · rcases mem_assign.mp before with ⟨old, -⟩ | rfl
        · exact .inl old
        · exact .inr List.mem_cons_self
      · exact .inr (List.mem_cons_of_mem _ later)

theorem assignAll_nodup (entries : List (κ × ν)) :
    ((assignAll entries).map Prod.fst).Nodup :=
  (foldl_assign_spec entries [] List.nodup_nil).1

theorem mem_of_mem_assignAll {entries : List (κ × ν)} {entry : κ × ν}
    (mem : entry ∈ assignAll entries) : entry ∈ entries := by
  rcases (foldl_assign_spec entries [] List.nodup_nil).2 entry mem with none | found
  · cases none
  · exact found

theorem foldl_assign_of_nodup (entries con : List (κ × ν))
    (nodup : ((con ++ entries).map Prod.fst).Nodup) :
    entries.foldl (fun con entry => assign con entry.1 entry.2) con = con ++ entries := by
  induction entries generalizing con with
  | nil => simp
  | cons first entries ih =>
      have fresh : assign con first.1 first.2 = con ++ [first] := by
        rw [assign, List.filter_eq_self.mpr]
        intro entry mem
        simp only [List.map_append, List.map_cons, List.nodup_append] at nodup
        exact decide_eq_true (nodup.2.2 _ (List.mem_map_of_mem mem) _ List.mem_cons_self)
      rw [List.foldl_cons, fresh, ih (con ++ [first]) (by simpa using nodup)]
      simp

theorem assignAll_of_nodup {entries : List (κ × ν)} (nodup : (entries.map Prod.fst).Nodup) :
    assignAll entries = entries :=
  foldl_assign_of_nodup entries [] nodup

end

theorem mem_of_mapFields {α β : Type*} {fieldDict : List (String × Cls)}
    {convert : Cls → α → Option β} {entries : List (String × α)} {out : List (String × β)}
    (done : mapFields fieldDict convert entries = some out) {name : String} {value : β}
    (mem : (name, value) ∈ out) :
    ∃ data cls, (name, data) ∈ entries ∧ fieldDict.lookup name = some cls ∧
      convert cls data = some value := by
  induction entries generalizing out with
  | nil =>
      cases done
      cases mem
  | cons entry entries ih =>
      obtain ⟨other, data⟩ := entry
      rw [mapFields] at done
      split at done
      · obtain ⟨data', cls, data_mem, rest⟩ := ih done mem
        exact ⟨data', cls, List.mem_cons_of_mem _ data_mem, rest⟩
      · rename_i cls found
        obtain ⟨first, converted, done⟩ := Option.bind_eq_some_iff.mp done
        obtain ⟨rest, rest_done, rfl⟩ := Option.map_eq_some_iff.mp done
        rcases List.mem_cons.mp mem with same | later
        · cases same
          exact ⟨data, cls, List.mem_cons_self, found, converted⟩
        · obtain ⟨data', cls', data_mem, rest⟩ := ih rest_done later
          exact ⟨data', cls', List.mem_cons_of_mem _ data_mem, rest⟩

section
variable {α β : Type*} {convertKey : Key → Option Key} {convert : α → Option β}
  {entries : List (Key × α)} {out : List (Key × β)}
  (done : mapEntries convertKey convert entries = some out)
include done

theorem mem_of_mapEntries {key : Key} {value : β} (mem : (key, value) ∈ out) :
    ∃ other data, (other, data) ∈ entries ∧ convertKey other = some key ∧
      convert data = some value := by
  induction entries generalizing out with
  | nil =>
      cases done
      cases mem
  | cons entry entries ih =>
      obtain ⟨other, data⟩ := entry
      obtain ⟨first_key, key_done, done⟩ := Option.bind_eq_some_iff.mp done
      obtain ⟨first, converted, done⟩ := Option.bind_eq_some_iff.mp done
      obtain ⟨rest, rest_done, rfl⟩ := Option.map_eq_some_iff.mp done
      rcases List.mem_cons.mp mem with same | later
      · cases same
        exact ⟨other, data, List.mem_cons_self, key_done, converted⟩
      · obtain ⟨other', data', data_mem, rest⟩ := ih rest_done later
        exact ⟨other', data', List.mem_cons_of_mem _ data_mem, rest⟩

omit done in
theorem lookup_mapFields {α β : Type*} {fieldDict : List (String × Cls)}
    {convert : Cls → α → Option β} {entries : List (String × α)} {out : List (String × β)}
    (done : mapFields fieldDict convert entries = some out) (name : String) :
    out.lookup name =
      (fieldDict.lookup name).bind fun field => (entries.lookup name).bind (convert field) := by
  induction entries generalizing out with
  | nil =>
      obtain rfl := Option.some.inj done
      simp
  | cons entry entries ih =>
      obtain ⟨other, data⟩ := entry
      rw [mapFields] at done
      rw [List.lookup_cons]
      split at done
      · rename_i absent
        rw [ih done]
        by_cases same : name = other
        · rw [same, absent, Option.bind_none, Option.bind_none]
        · rw [beq_false_of_ne same]
      · rename_i cls found
        obtain ⟨first, converted, done⟩ := Option.bind_eq_some_iff.mp done
        obtain ⟨rest, rest_done, rfl⟩ := Option.map_eq_some_iff.mp done
        rw [List.lookup_cons]
        by_cases same : name = other
        · simp [same, found, converted]
        · rw [beq_false_of_ne same]
          exact ih rest_done

omit done in
theorem exists_mapFields {α β : Type*} {fieldDict : List (String × Cls)}
    {convert : Cls → α → Option β} {entries : List (String × α)}
    (each : ∀ entry ∈ entries, ∀ field, fieldDict.lookup entry.1 = some field →
      ∃ out, convert field entry.2 = some out) :
    ∃ out, mapFields fieldDict convert entries = some out := by
  induction entries with
  | nil => exact ⟨[], rfl⟩
  | cons entry entries ih =>
      obtain ⟨rest, rest_done⟩ := ih fun other mem => each other (List.mem_cons_of_mem _ mem)
      cases found : fieldDict.lookup entry.1 with
      | none => exact ⟨rest, by rw [mapFields, found]; exact rest_done⟩
      | some field =>
          obtain ⟨first, converted⟩ := each entry List.mem_cons_self field found
          exact ⟨(entry.1, first) :: rest, by simp [mapFields, found, converted, rest_done]⟩

theorem key_mem_of_mapEntries {key key' : Key} (converted : convertKey key = some key')
    (mem : key ∈ entries.map Prod.fst) : key' ∈ out.map Prod.fst := by
  induction entries generalizing out with
  | nil => cases mem
  | cons entry entries ih =>
      obtain ⟨other', key_done, done⟩ := Option.bind_eq_some_iff.mp done
      obtain ⟨first, -, done⟩ := Option.bind_eq_some_iff.mp done
      obtain ⟨rest, rest_done, rfl⟩ := Option.map_eq_some_iff.mp done
      rcases List.mem_cons.mp mem with rfl | later
      · cases key_done.symm.trans converted
        exact List.mem_cons_self
      · exact List.mem_cons_of_mem _ (ih rest_done later)

omit done in
theorem mapFields_self {α : Type*} {fieldDict : List (String × Cls)}
    {convert : Cls → α → Option α} {entries : List (String × α)}
    (each : ∀ entry ∈ entries, ∃ field, fieldDict.lookup entry.1 = some field ∧
      convert field entry.2 = some entry.2) :
    mapFields fieldDict convert entries = some entries := by
  induction entries with
  | nil => rfl
  | cons entry entries ih =>
      obtain ⟨field, found, kept⟩ := each entry List.mem_cons_self
      simp [mapFields, found, kept, ih fun other mem => each other (List.mem_cons_of_mem _ mem)]

omit done in
theorem mapEntries_self {α : Type*} {convert : α → Option α} {entries : List (Key × α)}
    (each : ∀ entry ∈ entries, convert entry.2 = some entry.2) :
    mapEntries some convert entries = some entries := by
  induction entries with
  | nil => rfl
  | cons entry entries ih =>
      simp [mapEntries, each entry List.mem_cons_self,
        ih fun other mem => each other (List.mem_cons_of_mem _ mem)]

omit done in
/-- Entries that are converted one by one are converted back one by one. -/
theorem mapEntries_inverse {α β γ : Type*} {convertKey convertKey' : Key → Option Key}
    {convert : α → Option β} {convert' : β → Option γ} {P : Key × β → Prop} {R : α → γ → Prop}
    {entries : List (Key × α)}
    (each : ∀ entry ∈ entries, ∃ key data out, convertKey entry.1 = some key ∧
      convert entry.2 = some data ∧ P (key, data) ∧ convertKey' key = some entry.1 ∧
      convert' data = some out ∧ R entry.2 out) :
    ∃ there back, mapEntries convertKey convert entries = some there ∧
      (∀ entry ∈ there, P entry) ∧ mapEntries convertKey' convert' there = some back ∧
      List.Forall₂ (fun entry entry' => entry.1 = entry'.1 ∧ R entry.2 entry'.2) entries back := by
  induction entries with
  | nil => exact ⟨[], [], rfl, fun _ none => (by cases none), rfl, .nil⟩
  | cons entry entries ih =>
      obtain ⟨there, back, done, holds, undone, related⟩ :=
        ih fun other mem => each other (List.mem_cons_of_mem _ mem)
      obtain ⟨key, data, out, key_done, data_done, first, key_undone, data_undone, first_related⟩ :=
        each entry List.mem_cons_self
      refine ⟨(key, data) :: there, (entry.1, out) :: back, ?_, ?_, ?_, ?_⟩
      · simp [mapEntries, key_done, data_done, done]
      · rintro other mem
        rcases List.mem_cons.mp mem with rfl | later
        · exact first
        · exact holds other later
      · simp [mapEntries, key_undone, data_undone, undone]
      · exact .cons ⟨rfl, first_related⟩ related

theorem nodup_of_mapEntries (nodup : (out.map Prod.fst).Nodup) : (entries.map Prod.fst).Nodup := by
  induction entries generalizing out with
  | nil => exact List.nodup_nil
  | cons entry entries ih =>
      obtain ⟨key', key_done, done⟩ := Option.bind_eq_some_iff.mp done
      obtain ⟨first, -, done⟩ := Option.bind_eq_some_iff.mp done
      obtain ⟨rest, rest_done, rfl⟩ := Option.map_eq_some_iff.mp done
      obtain ⟨fresh, nodup⟩ := List.nodup_cons.mp nodup
      refine List.nodup_cons.mpr ⟨fun repeated => fresh ?_, ih rest_done nodup⟩
      exact key_mem_of_mapEntries rest_done key_done repeated

end

theorem mem_named {α : Type*} {entries : List (Key × α)} {name : String} {value : α} :
    (name, value) ∈ named entries ↔ (Key.str name, value) ∈ entries := by
  rw [named, List.mem_filterMap]
  constructor
  · rintro ⟨⟨key, data⟩, mem, same⟩
    cases key <;> simp at same
    obtain ⟨rfl, rfl⟩ := same
    exact mem
  · intro mem
    exact ⟨_, mem, rfl⟩

theorem plain_of_mem_convertedEntries {data : Value} {entries : List (Key × Val)}
    (table : convertedEntries (.plain data) = some entries) {key : Key} {v : Val}
    (mem : (key, v) ∈ entries) : ∃ value, v = .plain value := by
  obtain ⟨pairs, -, rfl⟩ := Option.map_eq_some_iff.mp table
  obtain ⟨pair, -, same⟩ := List.mem_map.mp mem
  exact ⟨pair.2, (Prod.mk.inj same).2.symm⟩

theorem lookup_readCells {texts : Texts} {row : Row} {fieldDict : List (String × Cls)}
    {con : List (String × Val)} (loaded : readCells texts row fieldDict = some con)
    (name : String) :
    con.lookup name = (fieldDict.lookup name).bind fun field =>
      (row name).present?.bind (readCell texts field) := by
  induction fieldDict generalizing con with
  | nil =>
      cases loaded
      rfl
  | cons member fieldDict ih =>
      obtain ⟨other, field⟩ := member
      rw [readCells] at loaded
      rw [List.lookup_cons]
      split at loaded
      · rename_i absent
        rw [ih loaded]
        by_cases same : name = other
        · simp [same, absent]
        · rw [beq_false_of_ne same]
      · rename_i cell present
        obtain ⟨value, read, loaded⟩ := Option.bind_eq_some_iff.mp loaded
        obtain ⟨rest, rest_loaded, rfl⟩ := Option.map_eq_some_iff.mp loaded
        rw [List.lookup_cons]
        by_cases same : name = other
        · simp [same, present, read]
        · rw [beq_false_of_ne same]
          exact ih rest_loaded

theorem exists_readCells {texts : Texts} {row : Row} {fieldDict : List (String × Cls)}
    (each : ∀ member ∈ fieldDict, ∀ cell, (row member.1).present? = some cell →
      ∃ value, readCell texts member.2 cell = some value) :
    ∃ con, readCells texts row fieldDict = some con := by
  induction fieldDict with
  | nil => exact ⟨[], rfl⟩
  | cons member fieldDict ih =>
      obtain ⟨rest, rest_loaded⟩ := ih fun other mem => each other (List.mem_cons_of_mem _ mem)
      cases present : (row member.1).present? with
      | none => exact ⟨rest, by rw [readCells, present]; exact rest_loaded⟩
      | some cell =>
          obtain ⟨value, read⟩ := each member List.mem_cons_self cell present
          exact ⟨(member.1, value) :: rest, by simp [readCells, present, read, rest_loaded]⟩

theorem readCell_of_readCells {texts : Texts} {row : Row} {fieldDict : List (String × Cls)}
    {con : List (String × Val)} (loaded : readCells texts row fieldDict = some con)
    {member : String × Cls} (mem : member ∈ fieldDict) {cell : Cell}
    (present : (row member.1).present? = some cell) :
    ∃ value, readCell texts member.2 cell = some value := by
  induction fieldDict generalizing con with
  | nil => cases mem
  | cons first fieldDict ih =>
      rw [readCells] at loaded
      split at loaded
      · rename_i absent
        rcases List.mem_cons.mp mem with rfl | later
        · cases absent.symm.trans present
        · exact ih loaded later
      · rename_i cell' present'
        obtain ⟨value, read, loaded⟩ := Option.bind_eq_some_iff.mp loaded
        obtain ⟨rest, rest_loaded, rfl⟩ := Option.map_eq_some_iff.mp loaded
        rcases List.mem_cons.mp mem with rfl | later
        · cases present'.symm.trans present
          exact ⟨value, read⟩
        · exact ih rest_loaded later

theorem mem_compileFields {texts : Texts} {fields : List (String × Field)} {member : String × Cls}
    (mem : member ∈ compileFields texts fields) :
    ∃ field, (member.1, field) ∈ fields ∧ member.2 = compile texts field := by
  induction fields with
  | nil => cases mem
  | cons first fields ih =>
      rcases List.mem_cons.mp mem with rfl | later
      · exact ⟨first.2, List.mem_cons_self, rfl⟩
      · obtain ⟨field, field_mem, same⟩ := ih later
        exact ⟨field, List.mem_cons_of_mem _ field_mem, same⟩

/-- A value may be assigned to a field: it is plain, or it was made for the field. -/
def Assignable (field : Field) (v : Val) : Prop :=
  (∃ data, v = .plain data) ∨ Typed field v

theorem converter_typed (texts : Texts) (field : Field) :
    ∀ {v w}, Assignable field v → (compile texts field).converter v = some w → Typed field w := by
  have plain : ∀ {defaultValue accepts toSql fromSql v w},
      (fieldPlain defaultValue accepts toSql fromSql).converter v = some w →
        ∃ data, w = .plain data ∧ accepts data = true := by
    intro defaultValue accepts toSql fromSql v w converted
    cases v with
    | plain data =>
        simp only [fieldPlain] at converted
        split at converted
        · rename_i accepted
          exact ⟨data, (Option.some.inj converted).symm, accepted⟩
        · cases converted
    | obj cls con => cases converted
    | container cls con => cases converted
  induction field using Field.induct with
  | leaf field notObj notContainer =>
      intro v w assignable converted
      cases field with
      | any value => trivial
      | int value => exact plain converted
      | num value => exact plain converted
      | bool value => exact plain converted
      | str value => exact plain converted
      | obj id fields hasDefault => exact absurd rfl (notObj _ _ _)
      | container id keyField value hasDefault => exact absurd rfl (notContainer _ _ _ _)
  | object id fields hasDefault members =>
      intro v w assignable converted
      cases v with
      | plain data =>
          obtain ⟨entries, table, converted⟩ := Option.bind_eq_some_iff.mp converted
          obtain ⟨con, done, rfl⟩ := Option.map_eq_some_iff.mp converted
          refine ⟨assignAll con, rfl, assignAll_nodup con, ?_⟩
          rintro ⟨name, value⟩ mem
          obtain ⟨v, cls, v_mem, found, value_done⟩ :=
            mem_of_mapFields done (mem_of_mem_assignAll mem)
          rw [lookup_compileFields] at found
          obtain ⟨field, declared, rfl⟩ := Option.map_eq_some_iff.mp found
          have v_plain := plain_of_mem_convertedEntries table (mem_named.mp v_mem)
          exact typedMember_iff.mpr
            ⟨field, declared, members _ (mem_of_lookup declared) (.inl v_plain) value_done⟩
      | obj cls con =>
          rcases assignable with ⟨data, same⟩ | typed
          · cases same
          · simp only [compile, fieldObj] at converted
            split at converted
            · cases converted
              exact typed
            · cases converted
      | container cls con => cases converted
  | dict id keyField value hasDefault member =>
      intro v w assignable converted
      cases v with
      | plain data =>
          obtain ⟨entries, table, converted⟩ := Option.bind_eq_some_iff.mp converted
          obtain ⟨con, done, rfl⟩ := Option.map_eq_some_iff.mp converted
          refine ⟨assignAll con, rfl, assignAll_nodup con, ?_, ?_⟩
          · rintro ⟨key, value'⟩ mem
            obtain ⟨other, v, -, key_done, -⟩ :=
              mem_of_mapEntries done (mem_of_mem_assignAll mem)
            split at key_done
            · rename_i accepted
              cases key_done
              exact storedKey_of_accepts accepted
            · cases key_done
          · rintro ⟨key, value'⟩ mem
            obtain ⟨other, v, v_mem, -, value_done⟩ :=
              mem_of_mapEntries done (mem_of_mem_assignAll mem)
            have v_plain := plain_of_mem_convertedEntries table v_mem
            exact member (.inl v_plain) value_done
      | obj cls con => cases converted
      | container cls con =>
          rcases assignable with ⟨data, same⟩ | typed
          · cases same
          · simp only [compile, fieldContainer] at converted
            split at converted
            · cases converted
              exact typed
            · cases converted

end UEServer.Schema
