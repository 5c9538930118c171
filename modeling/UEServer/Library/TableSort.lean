import Mathlib.Data.List.Sort

/-!
# Sorting by a comparison

A comparison says of two values whether the first one comes strictly before the second.  A sorting function
is given by what it promises: of a comparison that orders the values, it makes a rearrangement in which
nothing comes before an earlier value.  It need not be stable.
-/

namespace TableSort

variable {α β : Type*}

/-- A comparison that orders the values, some of which may be equivalent. -/
structure StrictWeak (lt : α → α → Bool) : Prop where
  asymm : ∀ {a b}, lt a b = true → lt b a = false
  /-- What does not come before a value does not come before those that do not come before it. -/
  trans : ∀ {a b c}, lt b a = false → lt c b = false → lt c a = false

theorem strictWeak_key [LinearOrder β] (key : α → β) : StrictWeak fun a b => decide (key b < key a) where
  asymm := by
    intro a b before
    exact decide_eq_false (lt_asymm (of_decide_eq_true before))
  trans := by
    intro a b c first second
    have first := of_decide_eq_false first
    have second := of_decide_eq_false second
    exact decide_eq_false (not_lt.mpr ((not_lt.mp second).trans (not_lt.mp first)))

/-- What two comparisons order, the first one before the second. -/
def thenBy (first second : α → α → Bool) (a b : α) : Bool :=
  if first a b then true else if first b a then false else second a b

theorem thenBy_eq_true {first second : α → α → Bool} {a b : α} : thenBy first second a b = true ↔
    first a b = true ∨ first b a = false ∧ second a b = true := by
  rw [thenBy]
  cases first a b with
  | true => simp
  | false =>
      cases first b a with
      | true => simp
      | false => simp

theorem StrictWeak.thenBy {first second : α → α → Bool} (one : StrictWeak first) (two : StrictWeak second) :
    StrictWeak (thenBy first second) where
  asymm := by
    intro a b before
    rw [← Bool.not_eq_true, thenBy_eq_true]
    rcases thenBy_eq_true.mp before with earlier | ⟨same, earlier⟩
    · rintro (later | ⟨unordered, -⟩)
      · cases later.symm.trans (one.asymm earlier)
      · cases earlier.symm.trans unordered
    · rintro (later | ⟨-, later⟩)
      · cases later.symm.trans same
      · cases later.symm.trans (two.asymm earlier)
  trans := by
    intro a b c stays stays'
    rw [← Bool.not_eq_true, thenBy_eq_true, not_or, not_and, Bool.not_eq_true, Bool.not_eq_true] at stays stays' ⊢
    refine ⟨one.trans stays.1 stays'.1, fun same => ?_⟩
    -- The three values are equivalent for the first comparison.
    have left : first a b = false := by
      by_contra before
      have before := eq_true_of_ne_false before
      have ordered := one.trans stays'.1 same
      cases before.symm.trans ordered
    have right : first b c = false := one.trans same stays.1
    exact two.trans (stays.2 left) (stays'.2 right)

end TableSort

structure TableSort (α : Type*) where
  sort : (α → α → Bool) → List α → List α
  perm : ∀ {lt}, TableSort.StrictWeak lt → ∀ list, (sort lt list).Perm list
  sorted : ∀ {lt}, TableSort.StrictWeak lt → ∀ list,
    (sort lt list).Pairwise fun first second => lt second first = false

namespace TableSort

/-- Sorting by insertion. -/
def insertion (α : Type*) : TableSort α where
  sort := fun lt list => list.insertionSort fun a b => lt b a = false
  perm := fun _ list => List.perm_insertionSort _ list
  sorted := by
    intro lt order list
    have total : Std.Total fun a b : α => lt b a = false := ⟨fun a b => by
      rcases Bool.eq_false_or_eq_true (lt b a) with before | after
      · exact .inr (order.asymm before)
      · exact .inl after⟩
    have trans : IsTrans α fun a b => lt b a = false := ⟨fun _ _ _ first second => order.trans first second⟩
    exact List.pairwise_insertionSort (fun a b : α => lt b a = false) list

end TableSort
