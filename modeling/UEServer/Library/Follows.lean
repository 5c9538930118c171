import Mathlib

/-!
# Programs that follow a transition system

A program with state and errors follows a transition system if what it does to the state is a path
of the system, and if it raises an error only after a path to a fault.  Programs are composed from
parts that follow the system, and what every transition keeps is kept by the program.  That a program
keeps an invariant is composed by instances.
-/

section

variable {σ ε α β : Type} {step narrow : σ → σ → Prop} {fault : σ → σ → Prop}

/-- The program goes from a state along a path to a final state with the postcondition, or along a
path to a fault. -/
def Follows (step fault : σ → σ → Prop) (program : EStateM ε σ α) (start : σ)
    (post : α → σ → Prop) : Prop :=
  match program start with
  | .ok value final => Relation.ReflTransGen step start final ∧ post value final
  | .error _ final => ∃ last, Relation.ReflTransGen step start last ∧ fault last final

namespace Follows

theorem pure {value : α} {start : σ} {post : α → σ → Prop} (holds : post value start) :
    Follows step fault (Pure.pure value : EStateM ε σ α) start post :=
  ⟨.refl, holds⟩

theorem of_step {program : EStateM ε σ α} {start final : σ} {value : α} {post : α → σ → Prop}
    (runs : program start = .ok value final) (taken : step start final)
    (holds : post value final) : Follows step fault program start post := by
  rw [Follows, runs]
  exact ⟨.single taken, holds⟩

theorem of_read {program : EStateM ε σ α} {start : σ} {value : α} {post : α → σ → Prop}
    (runs : program start = .ok value start) (holds : post value start) :
    Follows step fault program start post := by
  rw [Follows, runs]
  exact ⟨.refl, holds⟩

theorem bind {first : EStateM ε σ α} {next : α → EStateM ε σ β} {start : σ}
    {middle : α → σ → Prop} {post : β → σ → Prop}
    (first_follows : Follows step fault first start middle)
    (next_follows : ∀ value state, Relation.ReflTransGen step start state → middle value state →
      Follows step fault (next value) state post) :
    Follows step fault (first >>= next) start post := by
  unfold Follows at first_follows ⊢
  change match EStateM.bind first next start with
    | .ok value final => _
    | .error _ final => _
  unfold EStateM.bind
  split at first_follows
  · rename_i value state runs
    obtain ⟨path, holds⟩ := first_follows
    have rest := next_follows value state path holds
    unfold Follows at rest
    rw [runs]
    simp only
    split at rest
    · exact ⟨path.trans rest.1, rest.2⟩
    · obtain ⟨last, later, failed⟩ := rest
      exact ⟨last, path.trans later, failed⟩
  · rename_i err state runs
    rw [runs]
    exact first_follows

theorem bind_read {first : EStateM ε σ α} {next : α → EStateM ε σ β} {start : σ} {value : α}
    {post : β → σ → Prop} (runs : first start = .ok value start)
    (next_follows : Follows step fault (next value) start post) :
    Follows step fault (first >>= next) start post := by
  refine bind (@of_read _ _ _ step fault first start value (fun read state => read = value ∧ state = start)
    runs ⟨rfl, rfl⟩) ?_
  rintro _ _ _ ⟨rfl, rfl⟩
  exact next_follows

theorem mono {program : EStateM ε σ α} {start : σ} {post weaker : α → σ → Prop}
    (follows : Follows step fault program start post)
    (weaken : ∀ value final, Relation.ReflTransGen step start final → post value final →
      weaker value final) :
    Follows step fault program start weaker := by
  unfold Follows at follows ⊢
  split at follows
  · exact ⟨follows.1, weaken _ _ follows.1 follows.2⟩
  · exact follows

end Follows

theorem Relation.ReflTransGen.invariant (inv : σ → Prop) {start final : σ}
    (path : Relation.ReflTransGen step start final)
    (preserved : ∀ before after, inv before → step before after → inv after)
    (base : inv start) : inv final := by
  induction path with
  | refl => exact base
  | tail _ taken ih => exact preserved _ _ ih taken

end

section
variable {σ ε α β : Type} {inv : σ → Prop}

/-- The program keeps an invariant, also where it raises an error, and its value has a property. -/
class Keeps (inv : σ → Prop) (program : EStateM ε σ α) (post : α → Prop) : Prop where
  follows : ∀ start, inv start → Follows (fun before after => inv before → inv after)
    (fun before after => inv before → inv after) program start fun value _ => post value

/-- The state in which a program ends, also after an error. -/
def finalState : EStateM.Result ε σ α → σ
  | .ok _ final => final
  | .error _ final => final

namespace Keeps

theorem pure {value : α} {post : α → Prop} (holds : post value) :
    Keeps inv (Pure.pure value : EStateM ε σ α) post :=
  ⟨fun _ _ => Follows.pure holds⟩

theorem bind {first : EStateM ε σ α} {next : α → EStateM ε σ β} {middle : α → Prop}
    {post : β → Prop} (first_keeps : Keeps inv first middle)
    (next_keeps : ∀ value, middle value → Keeps inv (next value) post) :
    Keeps inv (first >>= next) post :=
  ⟨fun start holds => Follows.bind (first_keeps.follows start holds) fun value state path given =>
    (next_keeps value given).follows state
      (path.invariant inv (fun _ _ kept taken => taken kept) holds)⟩

theorem get : Keeps inv (MonadState.get : EStateM ε σ σ) inv :=
  ⟨fun _ holds => Follows.of_read rfl holds⟩

theorem modify {change : σ → σ} (kept : ∀ state, inv state → inv (change state)) :
    Keeps inv (modify change : EStateM ε σ PUnit) ⊤ :=
  ⟨fun start _ => Follows.of_step rfl (kept start) trivial⟩

theorem ite {p : Prop} [Decidable p] {yes no : EStateM ε σ α} {post : α → Prop}
    (first : p → Keeps inv yes post) (second : ¬ p → Keeps inv no post) :
    Keeps inv (if p then yes else no) post := by
  split
  exacts [first ‹_›, second ‹_›]

theorem any {program : EStateM ε σ α} {post : α → Prop} (keeps : Keeps inv program post) :
    Keeps inv program ⊤ :=
  ⟨fun start holds => (keeps.follows start holds).mono fun _ _ _ _ => trivial⟩

instance {err : ε} {post : α → Prop} : Keeps inv (MonadExcept.throw err : EStateM ε σ α) post :=
  ⟨fun start _ => ⟨start, .refl, id⟩⟩

instance {value : α} : Keeps inv (Pure.pure value : EStateM ε σ α) ⊤ :=
  pure trivial

instance : Keeps inv (MonadState.get : EStateM ε σ σ) ⊤ :=
  get.any

theorem seq {first : EStateM ε σ α} {next : α → EStateM ε σ β} {post : β → Prop}
    [keeps : Keeps inv first ⊤] (nexts : ∀ value, Keeps inv (next value) post) :
    Keeps inv (first >>= next) post :=
  bind keeps fun value _ => nexts value

instance {first : EStateM ε σ α} {next : α → EStateM ε σ β} [Keeps inv first ⊤]
    [nexts : ∀ value, Keeps inv (next value) ⊤] : Keeps inv (first >>= next) ⊤ :=
  seq nexts

instance {p : Prop} [Decidable p] {yes no : EStateM ε σ α} [first : Keeps inv yes ⊤]
    [second : Keeps inv no ⊤] : Keeps inv (if p then yes else no) ⊤ :=
  ite (fun _ => first) fun _ => second

theorem result {program : EStateM ε σ α} {post : α → Prop} (keeps : Keeps inv program post)
    {start : σ} (holds : inv start) : inv (finalState (program start)) := by
  have follows := keeps.follows start holds
  unfold Follows at follows
  split at follows
  · rename_i runs
    rw [runs]
    exact follows.1.invariant inv (fun _ _ kept taken => taken kept) holds
  · rename_i runs
    obtain ⟨_, path, last⟩ := follows
    rw [runs]
    exact last (path.invariant inv (fun _ _ kept taken => taken kept) holds)

end Keeps
end
