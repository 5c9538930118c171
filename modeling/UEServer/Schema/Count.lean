import Mathlib.Data.Rat.Floor
import UEServer.Schema.Container

/-!
# When containers keep their element count

An operation keeps the count equal to the number of keys exactly if it does not store a default
that was read, raise between the count and the table, or move a range onto positions that hold
another number of values.
-/

namespace UEServer.FieldContainer

open Lua

variable {ν ι : Type*}

/-- The count is the number of keys of the backing table. -/
def Counted (container : Container ν) : Prop :=
  container.count = container.con.size

instance (container : Container ν) : Decidable (Counted container) :=
  inferInstanceAs (Decidable (_ = _))

/-- Reading stores nothing: there is a value, or no default that can be changed. -/
def ReadKeeps (cls : Cls ν) (container : Container ν) (k : Index) : Prop :=
  lookup container k = none → k.key? ≠ none → ∀ value ∈ cls.valueDefault, cls.isTable value = false

/-- A value that is assigned where there was none is stored: index and value are accepted. -/
def AssignKeeps (cls : Cls ν) (container : Container ν) (k : Index) (v : ν) : Prop :=
  ∀ k' ∈ cls.keyField.converter k, lookup container k' = none →
    k'.key? ≠ none ∧ cls.valueConverter v ≠ none

/-- A value that is inserted and accepted finds its place. -/
def InsertKeeps (cls : Cls ν) (pos : Option Int) (value : ν) (border : Nat) : Prop :=
  cls.valueConverter value ≠ none → ∃ place ∈ pos, 1 ≤ place ∧ place ≤ border + 1

instance (cls : Cls ν) (pos : Option Int) (value : ν) (border : Nat) :
    Decidable (InsertKeeps cls pos value border) :=
  inferInstanceAs (Decidable (cls.valueConverter value ≠ none →
    ∃ place : Int, place ∈ pos ∧ 1 ≤ place ∧ place ≤ border + 1))

/-- The condition under which an operation keeps the counts. -/
def Keeps (cls : ι → Cls ν) (state : ι → Container ν) : Label ν ι → Prop
  | .read c k => ReadKeeps (cls c) (state c) k
  | .assign c k (some v) => AssignKeeps (cls c) (state c) k v
  | .append c (some value) border =>
      InsertKeeps (cls c) (some ((state c).con.size + 1)) value border
  | .insert c pos value border =>
      ∀ place ∈ resolve (state c).con.size 0 pos,
        InsertKeeps (cls c) place.integer? value border
  | .move c f e t (some other) =>
      (state other).con.filled .int t (span f e) = (state c).con.filled .int f (span f e)
  | _ => True

instance (cls : ι → Cls ν) (state : ι → Container ν) :
    (label : Label ν ι) → Decidable (Keeps cls state label)
  | .read c k => inferInstanceAs (Decidable (lookup (state c) k = none → k.key? ≠ none →
      ∀ value ∈ (cls c).valueDefault, (cls c).isTable value = false))
  | .assign c k (some v) => inferInstanceAs (Decidable (∀ k' ∈ (cls c).keyField.converter k,
      lookup (state c) k' = none → k'.key? ≠ none ∧ (cls c).valueConverter v ≠ none))
  | .append c (some value) border => inferInstanceAs (Decidable
      (InsertKeeps (cls c) (some ((state c).con.size + 1)) value border))
  | .insert c pos value border => inferInstanceAs (Decidable
      (∀ place ∈ resolve (state c).con.size 0 pos,
        InsertKeeps (cls c) place.integer? value border))
  | .move c f e t (some other) => inferInstanceAs (Decidable
      ((state other).con.filled .int t (span f e) = (state c).con.filled .int f (span f e)))
  | .assign _ _ none | .append _ none _ | .remove _ _ _ | .clear _ | .move _ _ _ _ none
  | .load _ _ => isTrue trivial

theorem int_injective : Function.Injective Key.int :=
  fun _ _ same => Key.int.inj same

section
variable {cls : Cls ν} {container : Container ν}

theorem setMeta_counted (con : Table Key ν) : Counted (setMeta con) := rfl

theorem lookup_of_key {k : Index} {key : Key} (found : k.key? = some key) :
    lookup container k = container.con.get key := by
  rw [lookup, found]
  rfl

theorem index_counted (counted : Counted container) (k : Index) :
    Counted (index cls container k) ↔ ReadKeeps cls container k := by
  unfold index ReadKeeps
  cases present : lookup container k with
  | some value => simp [counted]
  | none =>
      cases default : cls.valueDefault with
      | none => simp [counted]
      | some value =>
          cases valid : k.key? with
          | none => simp [counted]
          | some key =>
              have stored := container.con.size_set key (some value)
              rw [← lookup_of_key valid, present] at stored
              cases table : cls.isTable value with
              | false => simp [counted, table]
              | true =>
                  simp only [Counted, Table.weight_none, Table.weight_some] at counted stored
                  simp [Counted, table]
                  omega

theorem newIndex_some_counted (counted : Counted container) (k : Index) (v : ν) :
    Counted (newIndex cls container k (some v)) ↔ AssignKeeps cls container k v := by
  unfold newIndex AssignKeeps
  cases accepted : cls.keyField.converter k with
  | none => simp [counted]
  | some k' =>
      cases present : lookup container k' with
      | some old =>
          obtain ⟨key, valid, found⟩ := Option.bind_eq_some_iff.mp present
          cases converted : cls.valueConverter v with
          | none => simp [counted, present, converted]
          | some value =>
              have stored := container.con.size_set key (some value)
              rw [found] at stored
              simp only [Counted, Table.weight_some] at counted stored
              simp [Counted, present, valid, converted]
              omega
      | none =>
          cases converted : cls.valueConverter v with
          | none =>
              simp only [Counted] at counted ⊢
              simp [present, converted, counted]
          | some value =>
              cases valid : k'.key? with
              | none =>
                  simp only [Counted] at counted ⊢
                  simp [present, valid, converted, counted]
              | some key =>
                  have stored := container.con.size_set key (some value)
                  rw [← lookup_of_key valid, present] at stored
                  simp only [Counted, Table.weight_none, Table.weight_some] at counted stored
                  simp [Counted, present, valid, converted]
                  omega

theorem newIndex_none_counted (counted : Counted container) (k : Index) :
    Counted (newIndex cls container k none) := by
  unfold newIndex
  cases accepted : cls.keyField.converter k with
  | none => exact counted
  | some k' =>
      cases valid : k'.key? with
      | none =>
          have absent : lookup container k' = none := by
            rw [lookup, valid]
            rfl
          simpa [absent, valid] using counted
      | some key =>
          have removed := container.con.size_set key none
          rw [← lookup_of_key valid] at removed
          cases present : lookup container k' with
          | none =>
              simp only [Counted, present, Table.weight_none] at counted removed
              simp [Counted, present, valid]
              omega
          | some old =>
              simp only [Counted, present, Table.weight_none, Table.weight_some] at counted removed
              simp [Counted, present, valid]
              omega

theorem size_tableInsert {con inserted : Table Key ν} {border : Nat} {pos : Int} {value : ν}
    (isBorder : con.IsBorder .int border)
    (done : tableInsert con border pos value = some inserted) :
    inserted.size = con.size + 1 := by
  unfold tableInsert at done
  split at done
  · cases done
    have steps : pos + ((border + 1 - pos).toNat : Int) = border + 1 := by omega
    obtain ⟨size, low⟩ := con.shiftUp_spec int_injective pos (border + 1 - pos).toNat
    rw [steps, isBorder.2] at size
    have stored := (con.shiftUp .int pos (border + 1 - pos).toNat).size_set (.int pos) (some value)
    rw [low] at stored
    rw [Table.weight_none] at size
    rw [Table.weight_some] at stored
    omega
  · cases done

theorem insertAt_counted (counted : Counted container) {pos : Option Int} {value : ν}
    {border : Nat} (isBorder : container.con.IsBorder .int border) :
    Counted (insertAt cls container pos value border) ↔ InsertKeeps cls pos value border := by
  unfold insertAt InsertKeeps
  cases converted : cls.valueConverter value with
  | none => simp [counted]
  | some stored =>
      cases placed : (pos.bind fun pos => tableInsert container.con border pos stored) with
      | none =>
          simp only [Counted] at counted
          have misplaced : ∀ place, pos = some place → 1 ≤ place → ¬ place ≤ border + 1 := by
            rintro place rfl low high
            simp [tableInsert, low, high] at placed
          simpa [Counted, placed, counted] using misplaced
      | some con =>
          obtain ⟨place, rfl, done⟩ := Option.bind_eq_some_iff.mp placed
          have size := size_tableInsert isBorder done
          have bounds : 1 ≤ place ∧ place ≤ border + 1 := by
            unfold tableInsert at done
            split at done
            · assumption
            · cases done
          simp only [Counted] at counted
          simp [Counted, placed, bounds]
          omega

theorem size_tableRemove {con removed : Table Key ν} {border : Nat} {pos : Int}
    {value : Option ν} (done : tableRemove con border pos = some (removed, value)) :
    removed.size + Table.weight value = con.size := by
  unfold tableRemove at done
  split at done
  · cases done
    obtain ⟨size, high⟩ := con.shiftDown_spec int_injective pos (border - pos).toNat
    have dropped := (con.shiftDown .int pos (border - pos).toNat).size_set
      (.int (pos + (border - pos).toNat)) none
    rw [high, Table.weight_none] at dropped
    omega
  · cases done

theorem remove_counted (counted : Counted container) (pos : Index) (border : Nat) :
    Counted (remove container pos border) := by
  unfold remove
  cases resolved : (resolve container.count container.count pos).bind Index.integer? with
  | none => exact counted
  | some place =>
      dsimp only
      cases done : tableRemove container.con border place with
      | none => exact counted
      | some result =>
          obtain ⟨con, value⟩ := result
          have size := size_tableRemove done
          simp only [Counted] at counted
          cases value with
          | none =>
              rw [Table.weight_none] at size
              simp only [Counted]
              omega
          | some value =>
              rw [Table.weight_some] at size
              simp only [Counted]
              omega

theorem moveInto_counted {other : Container ν} (counted : Counted other) (f e t : Int) :
    Counted (moveInto container other f e t) ↔
      other.con.filled .int t (span f e) = container.con.filled .int f (span f e) := by
  obtain ⟨size, -⟩ := container.con.copyRange_spec int_injective other.con f t (span f e)
  simp only [Counted, moveInto] at counted ⊢
  omega

end

section
variable [DecidableEq ι]

theorem update_counted {state : ι → Container ν} (counted : ∀ c, Counted (state c)) (c : ι)
    (container : Container ν) :
    (∀ other, Counted (Function.update state c container other)) ↔ Counted container := by
  constructor
  · intro all
    simpa using all c
  · intro one other
    by_cases same : other = c
    · subst same
      simpa using one
    · simpa [same] using counted other

theorem step_counted {cls : ι → Cls ν} {state after : ι → Container ν} {label : Label ν ι}
    (counted : ∀ c, Counted (state c)) (taken : step cls state label = some after) :
    (∀ c, Counted (after c)) ↔ Keeps cls state label := by
  cases label with
  | read c k =>
      cases taken
      rw [update_counted counted, index_counted (counted c)]
      rfl
  | assign c k v =>
      cases taken
      rw [update_counted counted]
      cases v with
      | some v =>
          rw [newIndex_some_counted (counted c)]
          rfl
      | none => exact iff_of_true (newIndex_none_counted (counted c) k) trivial
  | append c value border =>
      simp only [step] at taken
      split at taken
      · rename_i isBorder
        cases taken
        rw [update_counted counted]
        cases value with
        | none => exact iff_of_true (counted c) trivial
        | some value =>
            have size : (state c).count = (state c).con.size := counted c
            simp only [append, Keeps]
            rw [insertAt_counted (counted c) isBorder, size]
      · cases taken
  | insert c pos value border =>
      simp only [step] at taken
      split at taken
      · rename_i isBorder
        cases taken
        have size : (state c).count = (state c).con.size := counted c
        rw [update_counted counted]
        simp only [insert, Keeps]
        rw [size]
        cases resolve (state c).con.size 0 pos with
        | none => simp [counted c]
        | some place => simp [insertAt_counted (counted c) isBorder]
      · cases taken
  | remove c pos border =>
      simp only [step] at taken
      split at taken
      · cases taken
        rw [update_counted counted]
        exact iff_of_true (remove_counted (counted c) pos border) trivial
      · cases taken
  | clear c =>
      cases taken
      rw [update_counted counted]
      exact iff_of_true rfl trivial
  | move c f e t other =>
      cases other with
      | none =>
          cases taken
          exact iff_of_true counted trivial
      | some other =>
          cases taken
          rw [update_counted counted, moveInto_counted (counted other)]
          rfl
  | load c con =>
      cases taken
      rw [update_counted counted]
      exact iff_of_true (setMeta_counted con) trivial

/-- The keys of the backing table are exactly the integers from one to `n`. -/
def IsList (con : Table Key ν) (n : Nat) : Prop :=
  ∀ key, con.get key ≠ none ↔ ∃ i : Nat, i < n ∧ key = .int (i + 1)

theorem size_of_isList {con : Table Key ν} {n : Nat} (list : IsList con n) : con.size = n := by
  have nodup : ((List.range n).map fun i : Nat => Key.int (i + 1)).Nodup := by
    refine List.Nodup.map (fun first second same => ?_) List.nodup_range
    have := int_injective same
    omega
  have perm := (List.perm_ext_iff_of_nodup con.keys_nodup nodup).mpr fun key => by
    rw [con.mem_keys, list key]
    simp only [List.mem_map, List.mem_range, eq_comm]
  rw [Table.size, perm.length_eq, List.length_map, List.length_range]

theorem border_of_isList {con : Table Key ν} {n border : Nat} (list : IsList con n)
    (isBorder : con.IsBorder .int border) : border = n := by
  have low : border ≤ n := by
    rcases isBorder.1 with rfl | last
    · exact Nat.zero_le n
    · obtain ⟨i, less, same⟩ := (list _).mp last
      have := int_injective same
      omega
  have high : ¬ border < n := by
    intro less
    exact (list _).mpr ⟨border, less, rfl⟩ isBorder.2
  omega

/-- Without a position, a value goes to the end of a list whose count is right. -/
theorem append_of_isList {cls : Cls ν} {container : Container ν} {n border : Nat}
    {value stored : ν} (counted : Counted container) (list : IsList container.con n)
    (accepted : cls.valueConverter value = some stored)
    (isBorder : container.con.IsBorder .int border) :
    append cls container (some value) border =
      { con := container.con.set (.int (n + 1)) (some stored), count := n + 1 } := by
  have count : container.count = n := by
    rw [counted, size_of_isList list]
  have border_eq := border_of_isList list isBorder
  subst border_eq
  simp [append, insertAt, accepted, count, tableInsert, Table.shiftUp]

/-- The counts are right throughout a run exactly if every operation meets its condition. The count
of a list is then its length, and `insert` without a position puts the value after its end. -/
theorem containers_counted_iff {cls : ι → Cls ν} {labels : List (Label ν ι)}
    {state : ι → Container ν} (execution : Execution.run (step cls) initial labels = some state) :
    (Execution.Always (step cls) (fun reached => ∀ c, Counted (reached c)) initial labels ↔
      Execution.Guarded (step cls) (Keeps cls) initial labels) ∧
    ∀ c n, Counted (state c) → IsList (state c).con n →
      (state c).count = n ∧
        ∀ value stored border, (cls c).valueConverter value = some stored →
          (state c).con.IsBorder .int border →
          append (cls c) (state c) (some value) border =
            { con := (state c).con.set (.int (n + 1)) (some stored), count := n + 1 } := by
  constructor
  · have always : ∀ {before : ι → Container ν} {label after}, True → Keeps cls before label →
        step cls before label = some after → True := fun _ _ _ => trivial
    refine Execution.always_iff_guarded always ?_ execution trivial fun _ => rfl
    intro before label after _ counted taken
    exact step_counted counted taken
  · intro c n counted list
    refine ⟨by rw [counted, size_of_isList list], ?_⟩
    intro value stored border accepted isBorder
    exact append_of_isList counted list accepted isBorder

/-- The class of a DICT of objects that are created when they are read. -/
def objectDict : Cls Unit where
  keyField := .int
  valueConverter value := some value
  valueDefault := some ()
  isTable _ := true

/-- Two assignments and two removals. -/
theorem containers_counted_iff_assignments :
    Execution.Always (step fun _ : Unit => objectDict) (fun reached => ∀ c, Counted (reached c))
      initial
      [.assign () (.int 1) (some ()), .assign () (.int 2) (some ()), .remove () .nil 2,
        .assign () (.int 1) none] :=
  (containers_counted_iff rfl).1.mpr (by decide)

/-- A read creates an object that is not counted. -/
theorem read_not_counted :
    ¬ ∀ (cls : Unit → Cls Unit) (labels : List (Label Unit Unit)) (state : Unit → Container Unit),
      Execution.run (step cls) initial labels = some state → ∀ c, Counted (state c) := by
  intro claim
  have counted := claim (fun _ => objectDict) [.read () (.int 1)] _ rfl ()
  cases counted

end

end UEServer.FieldContainer
