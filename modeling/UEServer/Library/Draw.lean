import Mathlib.Data.List.Perm.Basic

/-!
# Drawing without replacement

One value after the other is taken out of a list, at an index counted from 1.
-/

namespace Draw

variable {α : Type*}

/-- Take the value at an index out of a list. -/
def draw (list : List α) (index : ℕ) : Option (α × List α) :=
  if index = 0 then none else (list[index - 1]?).map fun value => (value, list.eraseIdx (index - 1))

theorem draw_eq_some {list rest : List α} {index : ℕ} {value : α} :
    draw list index = some (value, rest) ↔
      index ≠ 0 ∧ list[index - 1]? = some value ∧ list.eraseIdx (index - 1) = rest := by
  rw [draw]
  split
  · rename_i zero
    exact ⟨nofun, fun both => absurd zero both.1⟩
  · rename_i positive
    rw [Option.map_eq_some_iff]
    constructor
    · rintro ⟨other, found, eq⟩
      cases eq
      exact ⟨positive, found, rfl⟩
    · rintro ⟨-, found, rfl⟩
      exact ⟨value, found, rfl⟩

theorem draw_perm {list rest : List α} {index : ℕ} {value : α}
    (drawn : draw list index = some (value, rest)) : (value :: rest).Perm list := by
  obtain ⟨-, found, rfl⟩ := draw_eq_some.mp drawn
  obtain ⟨inside, rfl⟩ := List.getElem?_eq_some_iff.mp found
  exact List.getElem_cons_eraseIdx_perm inside

theorem length_of_draw {list rest : List α} {index : ℕ} {value : α}
    (drawn : draw list index = some (value, rest)) : rest.length + 1 = list.length :=
  (draw_perm drawn).length_eq

theorem exists_draw {list : List α} {index : ℕ} (positive : 1 ≤ index) (inside : index ≤ list.length) :
    ∃ drawn, draw list index = some drawn :=
  ⟨(list[index - 1], list.eraseIdx (index - 1)),
    draw_eq_some.mpr ⟨by omega, List.getElem?_eq_getElem (by omega), rfl⟩⟩

end Draw
