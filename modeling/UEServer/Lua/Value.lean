import Std.Data.String.ToInt

/-!
# Lua values

Values, and the keys of tables.  A table is given by its entries: a table whose keys are exactly
the integers from one on is a list of its values, any other table lists its keys with their values,
each key once.
-/

namespace UEServer.Lua

/-- A Lua value that is used as an index or a position. -/
inductive Index where
  | nil
  | nan
  | bool (value : Bool)
  | int (value : Int)
  | flt (value : Rat)
  | inf (negative : Bool)
  | str (value : String)
  | ref (id : Nat)

/-- A key of a Lua table: a float with the value of an integer is that integer. -/
inductive Key where
  | bool (value : Bool)
  | int (value : Int)
  | flt (value : Rat)
  | inf (negative : Bool)
  | str (value : String)
  | ref (id : Nat)
  deriving DecidableEq

/-- The key that an index stands for; `nil` and NaN stand for none. -/
def Index.key? : Index → Option Key
  | .nil | .nan => none
  | .bool value => some (.bool value)
  | .int value => some (.int value)
  | .flt value => some (if value.den = 1 then .int value.num else .flt value)
  | .inf negative => some (.inf negative)
  | .str value => some (.str value)
  | .ref id => some (.ref id)

/-- `luaL_checkinteger`. -/
def Index.integer? : Index → Option Int
  | .int value => some value
  | .flt value => if value.den = 1 then some value.num else none
  | _ => none

/-- A value other than `nil`. -/
inductive Value where
  | bool (value : Bool)
  | int (value : Int)
  | flt (value : Rat)
  | inf (negative : Bool)
  | nan
  | str (value : String)
  | list (values : List Value)
  | dict (entries : List (Key × Value))
  | foreign (id : Nat)

/-- The table with these entries, if its keys are not the integers from one on. -/
def Value.ofEntries : List (Key × Value) → Value
  | [] => .list []
  | entries => .dict entries

/-- `pairs`, on a table. -/
def Value.pairs? : Value → Option (List (Key × Value))
  | .list values => some (values.zipIdx.map fun (value, i) => (.int (i + 1), value))
  | .dict entries => some entries
  | _ => none

/-- What the standard library and the JSON library do with texts. -/
structure Texts where
  tostring : Key → String
  tonumber : String → Option Key
  /-- `json.decode`, on a string, if it does not raise. -/
  jsonDecode : String → Option Value
  tonumber_tostring : ∀ value : Int, tonumber (tostring (.int value)) = some (.int value)
  /-- The number that a text denotes is written so that it denotes that number. -/
  tonumber_stable : ∀ key number, tonumber (tostring key) = some number →
    tonumber (tostring number) = some number
  /-- A JSON text is longer than the string it denotes, by its quotes. -/
  jsonDecode_shorter : ∀ text value, jsonDecode text = some (.str value) →
    value.length < text.length

/-- Integers are written in decimal; no other text is a number or a JSON value here. A fraction is
written as its numerator and denominator. -/
def decimal : Texts where
  tostring
    | .int value => value.repr
    | .flt value => value.num.repr ++ "/" ++ value.den.repr
    | .str value => value
    | .bool value => if value then "true" else "false"
    | .inf negative => if negative then "-inf" else "inf"
    | .ref id => "table: " ++ id.repr
  tonumber text := text.toInt?.map .int
  jsonDecode text := text.toInt?.map .int
  tonumber_tostring value := by rw [Int.toInt?_repr, Option.map_some]
  tonumber_stable key number written := by
    obtain ⟨value, -, rfl⟩ := Option.map_eq_some_iff.mp written
    rw [Int.toInt?_repr, Option.map_some]
  jsonDecode_shorter text value decoded := by
    obtain ⟨number, -, same⟩ := Option.map_eq_some_iff.mp decoded
    cases same

end UEServer.Lua
