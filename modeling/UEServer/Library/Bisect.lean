import Mathlib.Data.List.Perm.Basic

/-!
# Insertion by binary search

A list is sorted by a comparison that says of two values whether the first one comes strictly before the
second.  A binary search finds where a value is to be inserted, behind all values that it does not come
before.  Indices are counted from 1.
-/

namespace Bisect

variable {α : Type*} (lt : α → α → Bool)

/-- Narrow the range of indices at which a value can be inserted. -/
def searchLoop (list : List α) (value : α) : ℕ → ℕ → ℕ → ℕ
  | 0, left, _ => left
  | fuel + 1, left, right =>
      if left < right then
        match list[(left + right) / 2 - 1]? with
        | none => left
        | some other =>
            if lt value other then searchLoop list value fuel left ((left + right) / 2)
            else searchLoop list value fuel ((left + right) / 2 + 1) right
      else left

/-- The index at which a value is to be inserted. -/
def search (list : List α) (value : α) : ℕ :=
  searchLoop lt list value list.length 1 (1 + list.length)

def insert (list : List α) (value : α) : List α :=
  list.take (search lt list value - 1) ++ value :: list.drop (search lt list value - 1)

/-- The values before an index are those that the value does not come before. -/
structure Splits (list : List α) (value : α) (index : ℕ) : Prop where
  low : 1 ≤ index
  high : index ≤ list.length + 1
  before : ∀ i other, list[i]? = some other → i + 1 < index → lt value other = false
  after : ∀ i other, list[i]? = some other → index ≤ i + 1 → lt value other = true

def Sorted (list : List α) : Prop :=
  list.Pairwise fun first second => lt second first = false

instance (list : List α) : Decidable (Sorted lt list) :=
  inferInstanceAs (Decidable (list.Pairwise _))

section
variable {lt}

/-- The loop keeps the values before its range and the ones after it apart. -/
theorem searchLoop_splits {list : List α} {value : α}
    (rises : ∀ (i j : ℕ) (first second : α), i ≤ j → list[i]? = some first → list[j]? = some second →
      lt value first = true → lt value second = true)
    {fuel left right : ℕ} (enough : right - left ≤ fuel) (low : 1 ≤ left) (range : left ≤ right)
    (high : right ≤ list.length + 1)
    (before : ∀ i other, list[i]? = some other → i + 1 < left → lt value other = false)
    (after : ∀ i other, list[i]? = some other → right ≤ i + 1 → lt value other = true) :
    Splits lt list value (searchLoop lt list value fuel left right) := by
  induction fuel generalizing left right with
  | zero =>
      obtain rfl : left = right := by omega
      exact ⟨low, high, before, after⟩
  | succ fuel ih =>
      rw [searchLoop]
      split
      · have inside : (left + right) / 2 - 1 < list.length := by omega
        rw [List.getElem?_eq_getElem inside]
        have middle := List.getElem?_eq_getElem inside
        dsimp only
        split
        · rename_i comes
          refine ih (by omega) low (by omega) (by omega) before fun i other found later => ?_
          exact rises _ i _ other (by omega) middle found comes
        · rename_i stays
          refine ih (by omega) (by omega) (by omega) high (fun i other found earlier => ?_) after
          by_contra comes
          have comes := rises i _ other _ (by omega) found middle (eq_true_of_ne_false comes)
          exact stays comes
      · obtain rfl : left = right := by omega
        exact ⟨low, high, before, after⟩

theorem insert_perm (list : List α) (value : α) : (insert lt list value).Perm (value :: list) := by
  have perm := @List.perm_middle _ value (list.take (search lt list value - 1))
    (list.drop (search lt list value - 1))
  rwa [List.take_append_drop] at perm

variable (asymm : ∀ ⦃first second⦄, lt first second = true → lt second first = false)
  (trans : ∀ ⦃first second third⦄, lt second first = false → lt third second = false →
    lt third first = false)

include trans in
theorem search_splits {list : List α} (sorted : Sorted lt list) (value : α) :
    Splits lt list value (search lt list value) := by
  refine searchLoop_splits ?_ (by omega) (Nat.le_refl _) (by omega) (by omega) (fun i _ _ less => by omega) ?_
  · intro i j first second le found found' comes
    obtain ⟨inside, rfl⟩ := List.getElem?_eq_some_iff.mp found
    obtain ⟨inside', rfl⟩ := List.getElem?_eq_some_iff.mp found'
    rcases Nat.lt_or_eq_of_le le with less | rfl
    · have ordered := List.pairwise_iff_getElem.mp sorted i j inside inside' less
      by_contra stays
      have stays := trans ordered (eq_false_of_ne_true stays)
      exact absurd (comes.symm.trans stays) nofun
    · exact comes
  · intro i other found later
    obtain ⟨inside, -⟩ := List.getElem?_eq_some_iff.mp found
    omega

include asymm trans in
theorem sorted_insert {list : List α} (sorted : Sorted lt list) (value : α) :
    Sorted lt (insert lt list value) := by
  have splits := search_splits trans sorted value
  have parts : Sorted lt (list.take (search lt list value - 1) ++
      list.drop (search lt list value - 1)) := by
    rw [List.take_append_drop]
    exact sorted
  obtain ⟨front, back, across⟩ := List.pairwise_append.mp parts
  refine List.pairwise_append.mpr ⟨front, List.pairwise_cons.mpr ⟨fun other mem => ?_, back⟩,
    fun first mem second mem' => ?_⟩
  · obtain ⟨i, found⟩ := List.mem_iff_getElem?.mp mem
    rw [List.getElem?_drop] at found
    exact asymm (splits.after _ other found (by omega))
  · rcases List.mem_cons.mp mem' with rfl | mem'
    · obtain ⟨i, found⟩ := List.mem_iff_getElem?.mp mem
      rw [List.getElem?_take] at found
      split at found
      · exact splits.before i first found (by omega)
      · exact absurd found nofun
    · exact across first mem second mem'

end

end Bisect
