import UEServer.Lua.Value

/-!
# The JSON codec

`json.encode` and `json.decode` between Lua values and JSON values.  An object has string keys, so
a table comes back as it was if its keys are strings or the integers from one on.
-/

namespace UEServer.Lua

inductive Json where
  | null
  | bool (value : Bool)
  | int (value : Int)
  | flt (value : Rat)
  | str (value : String)
  | arr (values : List Json)
  | obj (entries : List (String × Json))

/-- The name of an object member for a key, if the encoder does not raise. -/
def jsonKey (texts : Texts) : Key → Option String
  | .str key => some key
  | .int key => some (texts.tostring (.int key))
  | .flt key => some (texts.tostring (.flt key))
  | .bool _ | .inf _ | .ref _ => none

mutual

/-- `json.encode`, if it does not raise. -/
def encode (texts : Texts) : Value → Option Json
  | .bool value => some (.bool value)
  | .int value => some (.int value)
  | .flt value => some (.flt value)
  | .str value => some (.str value)
  | .list values => (encodeList texts values).map .arr
  | .dict entries => (encodeEntries texts entries).map .obj
  | .inf _ | .nan | .foreign _ => none

def encodeList (texts : Texts) : List Value → Option (List Json)
  | [] => some []
  | value :: values =>
      (encode texts value).bind fun first =>
        (encodeList texts values).map fun rest => first :: rest

def encodeEntries (texts : Texts) : List (Key × Value) → Option (List (String × Json))
  | [] => some []
  | (key, value) :: entries =>
      (jsonKey texts key).bind fun name =>
        (encode texts value).bind fun first =>
          (encodeEntries texts entries).map fun rest => (name, first) :: rest

end

mutual

def decode : Json → Value
  | .null => .foreign 0
  | .bool value => .bool value
  | .int value => .int value
  | .flt value => .flt value
  | .str value => .str value
  | .arr values => .list (decodeList values)
  | .obj entries => .ofEntries (decodeEntries entries)

def decodeList : List Json → List Value
  | [] => []
  | value :: values => decode value :: decodeList values

def decodeEntries : List (String × Json) → List (Key × Value)
  | [] => []
  | (name, value) :: entries => (.str name, decode value) :: decodeEntries entries

end

/-- The tables of the value have string keys or the integers from one on, and its other parts are
booleans, finite numbers and strings. -/
inductive JsonShaped : Value → Prop where
  | bool (value : Bool) : JsonShaped (.bool value)
  | int (value : Int) : JsonShaped (.int value)
  | flt (value : Rat) : JsonShaped (.flt value)
  | str (value : String) : JsonShaped (.str value)
  | list {values : List Value} : (∀ value ∈ values, JsonShaped value) → JsonShaped (.list values)
  | dict {entries : List (Key × Value)} : entries ≠ [] →
      (∀ entry ∈ entries, ∃ name, entry.1 = .str name) →
      (∀ entry ∈ entries, JsonShaped entry.2) → JsonShaped (.dict entries)

theorem JsonShaped.ofEntries {entries : List (Key × Value)}
    (names : ∀ entry ∈ entries, ∃ name, entry.1 = Key.str name)
    (shaped : ∀ entry ∈ entries, JsonShaped entry.2) : JsonShaped (.ofEntries entries) := by
  cases entries with
  | nil => exact .list fun _ none => by cases none
  | cons entry entries => exact .dict (List.cons_ne_nil _ _) names shaped

/-- What the round trip through JSON gives back. -/
def Survives (texts : Texts) (value : Value) : Prop :=
  ∃ json, encode texts value = some json ∧ decode json = value

theorem survives_list (texts : Texts) {values : List Value}
    (survive : ∀ value ∈ values, Survives texts value) :
    ∃ json, encodeList texts values = some json ∧ decodeList json = values := by
  induction values with
  | nil => exact ⟨[], rfl, rfl⟩
  | cons value values ih =>
      obtain ⟨first, encoded, decoded⟩ := survive value List.mem_cons_self
      obtain ⟨rest, encoded_rest, decoded_rest⟩ :=
        ih fun other mem => survive other (List.mem_cons_of_mem _ mem)
      refine ⟨first :: rest, ?_, ?_⟩
      · simp [encodeList, encoded, encoded_rest]
      · rw [decodeList, decoded, decoded_rest]

theorem survives_entries (texts : Texts) {entries : List (Key × Value)}
    (names : ∀ entry ∈ entries, ∃ name, entry.1 = Key.str name)
    (survive : ∀ entry ∈ entries, Survives texts entry.2) :
    ∃ json, encodeEntries texts entries = some json ∧ decodeEntries json = entries := by
  induction entries with
  | nil => exact ⟨[], rfl, rfl⟩
  | cons entry entries ih =>
      obtain ⟨key, value⟩ := entry
      obtain ⟨name, rfl⟩ := names (key, value) List.mem_cons_self
      obtain ⟨first, encoded, decoded⟩ := survive (.str name, value) List.mem_cons_self
      obtain ⟨rest, encoded_rest, decoded_rest⟩ :=
        ih (fun other mem => names other (List.mem_cons_of_mem _ mem))
          fun other mem => survive other (List.mem_cons_of_mem _ mem)
      refine ⟨(name, first) :: rest, ?_, ?_⟩
      · simp [encodeEntries, jsonKey, encoded, encoded_rest]
      · rw [decodeEntries, decoded, decoded_rest]

theorem JsonShaped.survives {value : Value} (texts : Texts) (shaped : JsonShaped value) :
    Survives texts value := by
  induction shaped with
  | bool value => exact ⟨.bool value, rfl, rfl⟩
  | int value => exact ⟨.int value, rfl, rfl⟩
  | flt value => exact ⟨.flt value, rfl, rfl⟩
  | str value => exact ⟨.str value, rfl, rfl⟩
  | list _ ih =>
      obtain ⟨json, encoded, decoded⟩ := survives_list texts ih
      exact ⟨.arr json, by rw [encode, encoded, Option.map_some], by rw [decode, decoded]⟩
  | @dict entries nonempty names _ ih =>
      obtain ⟨json, encoded, decoded⟩ := survives_entries texts names ih
      refine ⟨.obj json, by rw [encode, encoded, Option.map_some], ?_⟩
      rw [decode, decoded]
      cases entries with
      | nil => exact absurd rfl nonempty
      | cons entry entries => rfl

end UEServer.Lua
