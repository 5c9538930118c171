import UEServer.Library.Execution
import UEServer.Library.Table
import UEServer.Lua.Value

/-!
# Field containers

`FieldContainer` of `db/schema.lua`: the operations of a DICT or LIST field on its element count
and its backing table.  The class of the values is a parameter.  An operation that raises leaves
what it did before it raised.  Integers do not overflow.
-/

namespace UEServer.FieldContainer

open Lua

inductive KeyField where
  | int
  | num
  | str
  deriving DecidableEq

/-- `__F_KEY_CONVERTER`, if it does not raise. -/
def KeyField.converter : KeyField → Index → Option Index
  | .int, .nil => some .nil
  | .int, .bool false => some (.bool false)
  | .int, .int value => some (.int value)
  | .num, .nil => some .nil
  | .num, .nan => some .nan
  | .num, .int value => some (.int value)
  | .num, .flt value => some (.flt value)
  | .num, .inf negative => some (.inf negative)
  | .str, .nil => some .nil
  | .str, .str value => some (.str value)
  | _, _ => none

structure Cls (ν : Type*) where
  /-- `__F_FIELD_KEY`. -/
  keyField : KeyField
  /-- `__F_VALUE_CONVERTER` on values other than `nil`, if it does not raise. -/
  valueConverter : ν → Option ν
  /-- `__F_VALUE_DEFAULT()`. -/
  valueDefault : Option ν
  /-- `type(v) == 'table'`. -/
  isTable : ν → Bool

variable {ν ι : Type*}

structure Container (ν : Type*) where
  con : Table Key ν
  count : Int

/-- `self.__CON[k]`. -/
def lookup (container : Container ν) (k : Index) : Option ν :=
  k.key?.bind container.con.get

/-- `__F_SETMETA`, which counts the keys. -/
def setMeta (con : Table Key ν) : Container ν where
  con := con
  count := con.size

/-- `__F_INDEX`. Storing a default at `nil` or NaN raises. -/
def index (cls : Cls ν) (container : Container ν) (k : Index) : Container ν :=
  match lookup container k, cls.valueDefault, k.key? with
  | none, some value, some key =>
      if cls.isTable value then { container with con := container.con.set key (some value) }
      else container
  | _, _, _ => container

/-- `__F_NEWINDEX`. -/
def newIndex (cls : Cls ν) (container : Container ν) (k : Index) (v : Option ν) : Container ν :=
  match cls.keyField.converter k with
  | none => container
  | some k =>
      match v with
      | some v =>
          let counted :=
            match lookup container k with
            | none => { container with count := container.count + 1 }
            | some _ => container
          match cls.valueConverter v, k.key? with
          | some v, some key => { counted with con := counted.con.set key (some v) }
          | _, _ => counted
      | none =>
          let counted :=
            match lookup container k with
            | none => container
            | some _ => { container with count := container.count - 1 }
          match k.key? with
          | some key => { counted with con := counted.con.set key none }
          | none => counted

def clear : Container ν := { con := .empty, count := 0 }

/-- `table.insert(con, pos, value)` on a table with the given border, if it does not raise. -/
def tableInsert (con : Table Key ν) (border : Nat) (pos : Int) (value : ν) :
    Option (Table Key ν) :=
  if 1 ≤ pos ∧ pos ≤ border + 1 then
    some ((con.shiftUp .int pos (border + 1 - pos).toNat).set (.int pos) (some value))
  else none

/-- `table.remove(con, pos)` on a table with the given border, if it does not raise, with the value
removed. -/
def tableRemove (con : Table Key ν) (border : Nat) (pos : Int) :
    Option (Table Key ν × Option ν) :=
  if pos = border ∨ 1 ≤ pos ∧ pos ≤ border + 1 then
    let steps := (border - pos).toNat
    some ((con.shiftDown .int pos steps).set (.int (pos + steps)) none, con.get (.int pos))
  else none

/-- `pos or default`, and `self.__COUNT + pos + 1` if it is not positive; comparing raises for what
is no number. -/
def resolve (count default : Int) : Index → Option Index
  | .nil | .bool false => some (.int (if default ≤ 0 then count + default + 1 else default))
  | .int pos => some (.int (if pos ≤ 0 then count + pos + 1 else pos))
  | .flt pos => some (.flt (if pos ≤ 0 then count + pos + 1 else pos))
  | .inf negative => some (.inf negative)
  | .nan => some .nan
  | .bool true | .str _ | .ref _ => none

/-- `insert` from the conversion of the value on. -/
def insertAt (cls : Cls ν) (container : Container ν) (pos : Option Int) (value : ν)
    (border : Nat) : Container ν :=
  match cls.valueConverter value with
  | none => container
  | some value =>
      let counted := { container with count := container.count + 1 }
      match pos.bind fun pos => tableInsert container.con border pos value with
      | some con => { counted with con := con }
      | none => counted

/-- `insert` without a position; the value must not be `nil`. -/
def append (cls : Cls ν) (container : Container ν) (value : Option ν) (border : Nat) :
    Container ν :=
  match value with
  | none => container
  | some value => insertAt cls container (some (container.count + 1)) value border

/-- `insert` with a position. -/
def insert (cls : Cls ν) (container : Container ν) (pos : Index) (value : ν) (border : Nat) :
    Container ν :=
  match resolve container.count 0 pos with
  | none => container
  | some pos => insertAt cls container pos.integer? value border

def remove (container : Container ν) (pos : Index) (border : Nat) : Container ν :=
  match (resolve container.count container.count pos).bind Index.integer? with
  | none => container
  | some pos =>
      match tableRemove container.con border pos with
      | some (con, some _) => { con := con, count := container.count - 1 }
      | some (con, none) => { container with con := con }
      | none => container

/-- The number of positions from `f` to `e`. -/
def span (f e : Int) : Nat :=
  (e - f + 1).toNat

/-- `move` into another container: `table.move(self.__CON, f, e, t, other.__CON)`. -/
def moveInto (container other : Container ν) (f e t : Int) : Container ν :=
  { other with con := container.con.copyRange .int other.con f t (span f e) }

/-- An operation on one of the containers. -/
inductive Label (ν ι : Type*) where
  | read (container : ι) (k : Index)
  | assign (container : ι) (k : Index) (v : Option ν)
  /-- `insert` without a position, while the backing table has the border. -/
  | append (container : ι) (value : Option ν) (border : Nat)
  | insert (container : ι) (pos : Index) (value : ν) (border : Nat)
  | remove (container : ι) (pos : Index) (border : Nat)
  | clear (container : ι)
  /-- `move`; without another container it raises, since `meta` is not defined. -/
  | move (container : ι) (f e t : Int) (other : Option ι)
  /-- The container is loaded, or attached to a table, with this backing table. -/
  | load (container : ι) (con : Table Key ν)

variable [DecidableEq ι]

/-- One operation. Which border `#` finds is up to Lua. -/
def step (cls : ι → Cls ν) (state : ι → Container ν) : Label ν ι → Option (ι → Container ν)
  | .read c k => some (Function.update state c (index (cls c) (state c) k))
  | .assign c k v => some (Function.update state c (newIndex (cls c) (state c) k v))
  | .append c value border =>
      if (state c).con.IsBorder .int border then
        some (Function.update state c (append (cls c) (state c) value border))
      else none
  | .insert c pos value border =>
      if (state c).con.IsBorder .int border then
        some (Function.update state c (insert (cls c) (state c) pos value border))
      else none
  | .remove c pos border =>
      if (state c).con.IsBorder .int border then
        some (Function.update state c (remove (state c) pos border))
      else none
  | .clear c => some (Function.update state c clear)
  | .move c f e t other =>
      match other with
      | some other => some (Function.update state other (moveInto (state c) (state other) f e t))
      | none => some state
  | .load c con => some (Function.update state c (setMeta con))

/-- Containers made by `cls.new`. -/
def initial : ι → Container ν :=
  fun _ => setMeta .empty

end UEServer.FieldContainer
