import UEServer.Library.Lru
import UEServer.Library.Ring

/-!
# The least recently used table

The `LRU` of `table_extend.lua`: a ring of tables, each with a key, its value and the time, and a
dictionary that finds the table of a key.  Keys are neither `nil` nor `false`.
-/

namespace UEServer.TableExtend

/-- An `LRU`.  Lua tables are numbered in the order in which they are made. -/
structure LRU (κ ν : Type*) where
  elemDict : κ → Option ℕ
  count : ℤ
  maxCount : ℤ
  reverse : Bool
  root : ℕ
  links : Links
  /-- The other fields of each table: the key, the value and the time.  A root does not have them. -/
  elems : ℕ → Option (κ × ν × ℕ)
  fresh : ℕ

namespace LRU

variable {κ ν : Type*} [DecidableEq κ]

def new (reverse : Bool) (maxCount : Option ℤ) : LRU κ ν where
  elemDict _ := none
  count := 0
  maxCount := maxCount.getD (1000 * 1000 * 1000)
  reverse := reverse
  root := 0
  links := ⟨fun _ => 0, fun _ => 0⟩
  elems _ := none
  fresh := 1

def index (lru : LRU κ ν) (key : κ) : Option ν :=
  (lru.elemDict key).bind fun elem => (lru.elems elem).map fun fields => fields.2.1

def len (lru : LRU κ ν) : ℤ := lru.count

/-- A table is taken out of the ring and the dictionary. -/
def remove (lru : LRU κ ν) (key : κ) (elem : ℕ) : LRU κ ν :=
  { lru with
    links := lru.links.unlink elem
    elemDict := Function.update lru.elemDict key none
    count := lru.count - 1 }

def firstElem (lru : LRU κ ν) : ℕ :=
  if lru.reverse then lru.links.prev lru.root else lru.links.next lru.root

def pop (lru : LRU κ ν) : Option (κ × ν) × LRU κ ν :=
  let elem := lru.firstElem
  if elem = lru.root then (none, lru)
  else
    match lru.elems elem with
    | some (key, value, _) => (some (key, value), lru.remove key elem)
    | none => (none, lru)

def peek (lru : LRU κ ν) : Option (κ × ν × ℕ) :=
  let elem := lru.firstElem
  if elem = lru.root then none else lru.elems elem

/-- `__newindex` with `nil`. -/
def delete (lru : LRU κ ν) (key : κ) : LRU κ ν :=
  match lru.elemDict key with
  | none => lru
  | some elem => lru.remove key elem

/-- `__newindex` with a value: an old table of the key is used again. -/
def set (lru : LRU κ ν) (key : κ) (value : ν) (time : ℕ) : LRU κ ν :=
  let elem := (lru.elemDict key).getD lru.fresh
  let removed := lru.delete key
  let added :=
    { removed with
      links := removed.links.attach removed.root elem
      elems := Function.update removed.elems elem (some (key, value, time))
      elemDict := Function.update removed.elemDict key (some elem)
      count := removed.count + 1
      fresh := max removed.fresh (elem + 1) }
  if added.maxCount < added.count then added.pop.2 else added

def touch (lru : LRU κ ν) (key : κ) (time : ℕ) : Option ν × LRU κ ν :=
  match lru.index key with
  | none => (none, lru)
  | some value => (some value, (lru.delete key).set key value time)

def clear (lru : LRU κ ν) : LRU κ ν :=
  { lru with
    elemDict := fun _ => none
    count := 0
    root := lru.fresh
    links :=
      { prev := Function.update lru.links.prev lru.fresh lru.fresh
        next := Function.update lru.links.next lru.fresh lru.fresh }
    elems := Function.update lru.elems lru.fresh none
    fresh := lru.fresh + 1 }

/-- The `_next` of `__pairs`. -/
def next (lru : LRU κ ν) (key : Option κ) : Option (κ × ν) :=
  let prev := (key.bind lru.elemDict).getD lru.root
  let elem := if lru.reverse then lru.links.prev prev else lru.links.next prev
  (lru.elems elem).map fun fields => (fields.1, fields.2.1)

/-- The loop of `map` from a table on, unless it takes too many rounds: what the function is called
with. -/
def mapFrom (lru : LRU κ ν) : ℕ → ℕ → Option (List (Option (κ × ν)))
  | 0, _ => none
  | fuel + 1, elem =>
      if elem = lru.root then some []
      else
        (lru.mapFrom fuel
          (if lru.reverse then lru.links.prev elem else lru.links.next elem)).map fun rest =>
            ((lru.elems elem).map fun fields => (fields.1, fields.2.1)) :: rest

def map (lru : LRU κ ν) (fuel : ℕ) : Option (List (Option (κ × ν))) :=
  lru.mapFrom fuel lru.firstElem

/-- What the body of a loop does with the key that it visits. -/
inductive Choice (ν : Type*) where
  | keep
  | delete
  | set (value : ν) (time : ℕ)
  | touch (time : ℕ)

def choose (lru : LRU κ ν) (key : κ) : Choice ν → LRU κ ν
  | .keep => lru
  | .delete => lru.delete key
  | .set value time => lru.set key value time
  | .touch time => (lru.touch key time).2

/-- A loop over `pairs`, unless it takes too many rounds: what it visits.  The body may go by what has
been visited before. -/
def traverse (body : List (κ × ν) → κ → ν → Choice ν) :
    ℕ → LRU κ ν → List (κ × ν) → Option κ → Option (List (κ × ν))
  | 0, _, _, _ => none
  | fuel + 1, lru, visited, key =>
      match lru.next key with
      | none => some visited
      | some (key, value) =>
          traverse body fuel (lru.choose key (body visited key value)) (visited ++ [(key, value)])
            (some key)

/-- A loop over `pairs` that changes nothing. -/
def pairs (lru : LRU κ ν) (fuel : ℕ) : Option (List (κ × ν)) :=
  traverse (fun _ _ _ => .keep) fuel lru [] none

end LRU
end UEServer.TableExtend
