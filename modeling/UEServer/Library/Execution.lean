import Mathlib.Data.List.Basic

/-!
# Labelled executions of a partial step function

A system is a step function `σ → ε → Option σ`: the label carries every choice the environment
makes, and `none` means that the label is not enabled.  This file gives finite executions, the
induction rule for invariants, and the rule for invariants that need a condition on each step; and
for steps that return something besides the next state, the rule that two systems whose steps agree
return the same in every run.
-/

namespace Execution

variable {σ ε : Type*} {step : σ → ε → Option σ}

/-- Run a list of labels, failing at the first label that is not enabled. -/
def run (step : σ → ε → Option σ) : σ → List ε → Option σ
  | state, [] => some state
  | state, label :: labels => (step state label).bind fun next => run step next labels

@[simp]
theorem run_nil (state : σ) : run step state [] = some state := rfl

theorem run_cons (state : σ) (label : ε) (labels : List ε) :
    run step state (label :: labels) =
      (step state label).bind fun next => run step next labels := rfl

theorem run_append (state : σ) (front back : List ε) :
    run step state (front ++ back) =
      (run step state front).bind fun middle => run step middle back := by
  induction front generalizing state with
  | nil => rfl
  | cons label front ih =>
      simp only [List.cons_append, run_cons]
      cases step state label with
      | none => rfl
      | some next => exact ih next

theorem run_concat_eq_some {state final : σ} {labels : List ε} {label : ε} :
    run step state (labels ++ [label]) = some final ↔
      ∃ middle, run step state labels = some middle ∧ step middle label = some final := by
  rw [run_append, Option.bind_eq_some_iff]
  simp [run_cons]

theorem exists_run (enabled : ∀ state label, ∃ next, step state label = some next) (state : σ)
    (labels : List ε) : ∃ final, run step state labels = some final := by
  induction labels generalizing state with
  | nil => exact ⟨state, rfl⟩
  | cons label labels ih =>
      obtain ⟨next, taken⟩ := enabled state label
      obtain ⟨final, rest⟩ := ih next
      exact ⟨final, Option.bind_eq_some_iff.mpr ⟨next, taken, rest⟩⟩

/-- A property kept by every enabled step holds at the end of every execution. -/
theorem run_invariant {inv : σ → Prop}
    (preserved : ∀ {before label after}, inv before → step before label = some after → inv after)
    {state final : σ} {labels : List ε} (execution : run step state labels = some final)
    (base : inv state) : inv final := by
  induction labels generalizing state with
  | nil =>
      cases execution
      exact base
  | cons label labels ih =>
      obtain ⟨next, taken, rest⟩ := Option.bind_eq_some_iff.mp execution
      exact ih rest (preserved base taken)

/-- A log to which every enabled step appends what its label emits is the emission of the whole
execution. -/
theorem run_log {α : Type*} {inv : σ → Prop} {log : σ → List α} {emit : ε → Option α}
    (preserved : ∀ {before label after}, inv before → step before label = some after → inv after)
    (appended : ∀ {before label after}, inv before → step before label = some after →
      log after = log before ++ (emit label).toList)
    {state final : σ} {labels : List ε} (execution : run step state labels = some final)
    (base : inv state) : log final = log state ++ labels.filterMap emit := by
  induction labels generalizing state with
  | nil =>
      cases execution
      simp
  | cons label labels ih =>
      obtain ⟨next, taken, rest⟩ := Option.bind_eq_some_iff.mp execution
      rw [ih rest (preserved base taken), appended base taken]
      cases emitted : emit label <;> simp [emitted]

/-- Every step of the execution meets a condition on the state before it and its label. -/
def Guarded (step : σ → ε → Option σ) (ok : σ → ε → Prop) : σ → List ε → Prop
  | _, [] => True
  | state, label :: labels =>
      ok state label ∧ ∀ next, step state label = some next → Guarded step ok next labels

theorem guarded_cons_of_step {ok : σ → ε → Prop} {state next : σ} {label : ε} {labels : List ε}
    (taken : step state label = some next) :
    Guarded step ok state (label :: labels) ↔ ok state label ∧ Guarded step ok next labels := by
  simp [Guarded, taken]

theorem guarded_front {ok : σ → ε → Prop} {state : σ} {front back : List ε}
    (guarded : Guarded step ok state (front ++ back)) : Guarded step ok state front := by
  induction front generalizing state with
  | nil => trivial
  | cons label front ih => exact ⟨guarded.1, fun next taken => ih (guarded.2 next taken)⟩

instance decidableGuarded (step : σ → ε → Option σ) (ok : σ → ε → Prop)
    [∀ state label, Decidable (ok state label)] :
    (state : σ) → (labels : List ε) → Decidable (Guarded step ok state labels)
  | _, [] => isTrue trivial
  | state, label :: labels =>
      match taken : step state label with
      | none => decidable_of_iff (ok state label) (by simp [Guarded, taken])
      | some next =>
          have := decidableGuarded step ok next labels
          decidable_of_iff (ok state label ∧ Guarded step ok next labels)
            (guarded_cons_of_step taken).symm

/-- Two states that are related stay so if one of them runs only the labels that are kept: it follows
those, and does not notice the others. -/
theorem run_filter {ok : σ → ε → Prop} {rel : σ → σ → Prop} {keep : ε → Bool}
    (kept : ∀ {left right label next}, rel left right → ok left label → step left label = some next →
      keep label = true → ∃ other, step right label = some other ∧ rel next other)
    (dropped : ∀ {left right label next}, rel left right → ok left label →
      step left label = some next → keep label = false → rel next right)
    {left right final : σ} {labels : List ε} (guarded : Guarded step ok left labels)
    (execution : run step left labels = some final) (base : rel left right) :
    ∃ other, run step right (labels.filter keep) = some other ∧ rel final other := by
  induction labels generalizing left right with
  | nil =>
      cases execution
      exact ⟨right, rfl, base⟩
  | cons label labels ih =>
      obtain ⟨next, taken, rest⟩ := Option.bind_eq_some_iff.mp execution
      have later := guarded.2 next taken
      cases keeps : keep label with
      | true =>
          obtain ⟨other, followed, related⟩ := kept base guarded.1 taken keeps
          obtain ⟨last, rest', related'⟩ := ih later rest related
          refine ⟨last, ?_, related'⟩
          rw [List.filter_cons_of_pos keeps, run_cons, followed, Option.bind_some, rest']
      | false =>
          rw [List.filter_cons_of_neg (by rw [keeps]; exact nofun)]
          exact ih later rest (dropped base guarded.1 taken keeps)

/-- The state property holds initially and after every step of the execution. -/
def Always (step : σ → ε → Option σ) (good : σ → Prop) : σ → List ε → Prop
  | state, [] => good state
  | state, label :: labels =>
      good state ∧ ∀ next, step state label = some next → Always step good next labels

/-- A property kept by every step that meets the condition holds throughout a guarded
execution. -/
theorem always_of_guarded {ok : σ → ε → Prop} {inv : σ → Prop}
    (preserved : ∀ {before label after}, inv before → ok before label →
      step before label = some after → inv after)
    {state : σ} {labels : List ε} (guarded : Guarded step ok state labels)
    (base : inv state) : Always step inv state labels := by
  induction labels generalizing state with
  | nil => exact base
  | cons label labels ih =>
      refine ⟨base, fun next taken => ?_⟩
      exact ih (guarded.2 next taken) (preserved base guarded.1 taken)

/-- In a guarded execution every step has what the condition gives it in the states that are kept. -/
theorem guarded_mono {ok weaker : σ → ε → Prop} {inv : σ → Prop}
    (preserved : ∀ {before label after}, inv before → ok before label →
      step before label = some after → inv after)
    (weaken : ∀ {before label}, inv before → ok before label → weaker before label)
    {state : σ} {labels : List ε} (guarded : Guarded step ok state labels)
    (base : inv state) : Guarded step weaker state labels := by
  induction labels generalizing state with
  | nil => trivial
  | cons label labels ih =>
      refine ⟨weaken base guarded.1, fun next taken => ?_⟩
      exact ih (guarded.2 next taken) (preserved base guarded.1 taken)

theorem Always.mono {good weaker : σ → Prop} (weaken : ∀ state, good state → weaker state)
    {state : σ} {labels : List ε} (always : Always step good state labels) :
    Always step weaker state labels := by
  induction labels generalizing state with
  | nil => exact weaken state always
  | cons label labels ih =>
      exact ⟨weaken state always.1, fun next taken => ih (always.2 next taken)⟩

theorem Always.head {good : σ → Prop} {state : σ} {labels : List ε}
    (always : Always step good state labels) : good state := by
  cases labels with
  | nil => exact always
  | cons label labels => exact always.1

theorem Always.last {good : σ → Prop} {state final : σ} {labels : List ε}
    (always : Always step good state labels) (execution : run step state labels = some final) :
    good final := by
  induction labels generalizing state with
  | nil =>
      cases execution
      exact always
  | cons label labels ih =>
      obtain ⟨next, taken, rest⟩ := Option.bind_eq_some_iff.mp execution
      exact ih (always.2 next taken) rest

theorem always_invariant {inv : σ → Prop}
    (preserved : ∀ {before label after}, inv before → step before label = some after → inv after)
    {state : σ} {labels : List ε} (base : inv state) : Always step inv state labels := by
  induction labels generalizing state with
  | nil => exact base
  | cons label labels ih => exact ⟨base, fun next taken => ih (preserved base taken)⟩

/-- When every step that does not meet the condition leaves a mark that stays, an execution that ends
without a mark is guarded. -/
theorem guarded_of_unmarked {ok : σ → ε → Prop} {inv marked : σ → Prop}
    (preserved : ∀ {before label after}, inv before → step before label = some after → inv after)
    (marks : ∀ {before label after}, inv before → step before label = some after →
      ¬ ok before label → marked after)
    (stays : ∀ {before label after}, inv before → step before label = some after →
      marked before → marked after)
    {state final : σ} {labels : List ε} (execution : run step state labels = some final)
    (base : inv state) (unmarked : ¬ marked final) : Guarded step ok state labels := by
  induction labels generalizing state with
  | nil => trivial
  | cons label labels ih =>
      obtain ⟨next, taken, rest⟩ := Option.bind_eq_some_iff.mp execution
      rw [guarded_cons_of_step taken]
      refine ⟨?_, ih rest (preserved base taken)⟩
      by_contra violated
      have kept : ∀ {before label after}, inv before ∧ marked before →
          step before label = some after → inv after ∧ marked after :=
        fun both taken => ⟨preserved both.1 taken, stays both.1 taken both.2⟩
      exact unmarked (run_invariant kept rest
        ⟨preserved base taken, marks base taken violated⟩).2

/-- When a step keeps the property exactly if it meets the condition, the property holds
throughout an execution exactly if every step of it does.  The step may use an invariant that the
steps that meet the condition keep. -/
theorem always_iff_guarded {ok : σ → ε → Prop} {inv good : σ → Prop}
    (preserved : ∀ {before label after}, inv before → ok before label →
      step before label = some after → inv after)
    (exact_step : ∀ {before label after}, inv before → good before →
      step before label = some after → (good after ↔ ok before label))
    {state final : σ} {labels : List ε} (execution : run step state labels = some final)
    (base : inv state) (start : good state) :
    Always step good state labels ↔ Guarded step ok state labels := by
  induction labels generalizing state with
  | nil => exact ⟨fun _ => trivial, fun _ => start⟩
  | cons label labels ih =>
      obtain ⟨next, taken, rest⟩ := Option.bind_eq_some_iff.mp execution
      have unique : ∀ other, step state label = some other → other = next := by
        intro other other_taken
        exact Option.some.inj (other_taken.symm.trans taken)
      constructor
      · intro always
        have later := always.2 next taken
        have allowed := (exact_step base start taken).mp later.head
        refine ⟨allowed, fun other other_taken => ?_⟩
        obtain rfl := unique other other_taken
        exact (ih rest (preserved base allowed taken) later.head).mp later
      · rintro ⟨allowed, guarded⟩
        refine ⟨start, fun other other_taken => ?_⟩
        obtain rfl := unique other other_taken
        exact (ih rest (preserved base allowed taken)
          ((exact_step base start taken).mpr allowed)).mpr (guarded other taken)

end Execution

namespace Execution

variable {σ τ ε ω : Type*}

/-- Run a list of labels and collect what the steps return. -/
def trace (step : σ → ε → Option (ω × σ)) : σ → List ε → Option (List ω × σ)
  | state, [] => some ([], state)
  | state, label :: labels =>
      (step state label).bind fun next =>
        (trace step next.2 labels).map fun rest => (next.1 :: rest.1, rest.2)

/-- The two return the same, and go on to related states. -/
def Agrees (related : σ → τ → Prop) (concrete : ω × σ) (abstract : ω × τ) : Prop :=
  concrete.1 = abstract.1 ∧ related concrete.2 abstract.2

theorem rel_agrees_mono {related weaker : σ → τ → Prop}
    (weaken : ∀ {concrete abstract}, related concrete abstract → weaker concrete abstract)
    {concrete : Option (ω × σ)} {abstract : Option (ω × τ)}
    (both : Option.Rel (Agrees related) concrete abstract) :
    Option.Rel (Agrees weaker) concrete abstract := by
  cases both with
  | none => exact .none
  | some both => exact .some ⟨both.1, weaken both.2⟩

theorem trace_agrees {step : σ → ε → Option (ω × σ)} {spec : τ → ε → Option (ω × τ)}
    {related : σ → τ → Prop}
    (simulates : ∀ {concrete abstract}, related concrete abstract → ∀ label,
      Option.Rel (Agrees related) (step concrete label) (spec abstract label))
    {concrete : σ} {abstract : τ} (start : related concrete abstract) (labels : List ε) :
    Option.Rel (Agrees related) (trace step concrete labels) (trace spec abstract labels) := by
  induction labels generalizing concrete abstract with
  | nil => exact .some ⟨rfl, start⟩
  | cons label labels ih =>
      have both := simulates start label
      rw [trace, trace]
      generalize step concrete label = next at both ⊢
      generalize spec abstract label = spec_next at both ⊢
      cases both with
      | none => exact .none
      | some both =>
          have rest := ih both.2
          rw [Option.bind_some, Option.bind_some]
          generalize trace step _ labels = final at rest ⊢
          generalize trace spec _ labels = spec_final at rest ⊢
          cases rest with
          | none => exact .none
          | some rest =>
              refine .some ⟨?_, rest.2⟩
              dsimp only
              rw [both.1, rest.1]

end Execution
