import UEServer.Account.Basic

/-!
# What the requests leave behind

The part of the state that tells which roles belong to which accounts, and what one stretch of
execution can do to it.
-/

namespace UEServer.Account

variable {υ ν τ : Type*}

/-- How far the coroutine's role has got. -/
inductive Stage (υ : Type*) where
  | free
  | fresh (urs : υ) (uuid : ℕ)
  /-- It has its record, and the account has not got a row from the request. -/
  | kept (urs : υ) (uuid : ℕ)
  | placed (urs : υ) (uuid : ℕ)
  | refused (urs : υ) (uuid : ℕ)

/-- The stage of what a coroutine is doing. -/
def Flow.stage : Flow υ ν → Stage υ
  | .claiming request uuid => .fresh request.urs uuid
  | .naming request uuid => .fresh request.urs uuid
  | .named request uuid => .fresh request.urs uuid
  | .loading request uuid => .fresh request.urs uuid
  | .saving request uuid => .fresh request.urs uuid
  | .saved request uuid => .kept request.urs uuid
  | .inserting request uuid => .kept request.urs uuid
  | .inserted request uuid true => .placed request.urs uuid
  | .inserted request uuid false => .refused request.urs uuid
  | .setting request uuid => .placed request.urs uuid
  | _ => .free

/-- The accounts, the records and the stages. -/
structure View (υ τ : Type*) where
  stages : τ → Stage υ
  players : υ → Option (Option ℕ)
  records : ℕ → Option υ
  next : ℕ
  given : List ℕ
  failed : List ℕ

def State.view (state : State υ ν τ) (env : ServerEnv ν) : View υ τ where
  stages thread := (state.flows thread).stage
  players := state.players
  records := state.records
  next := env.serverId * env.maxRoleNum + state.lastRoleNum
  given := state.given
  failed := state.failed

/-- No row is inserted for an account that has one. -/
def Permitted (state : State υ ν τ) : Event υ ν τ → Prop
  | .execute thread =>
      match state.flows thread with
      | .inserting request _ => state.players request.urs = none
      | _ => True
  | _ => True

instance (state : State υ ν τ) : (event : Event υ ν τ) → Decidable (Permitted state event)
  | .execute thread => by
      unfold Permitted
      dsimp only
      split <;> infer_instance
  | .newRole _ _ => isTrue trivial
  | .answer _ _ => isTrue trivial
  | .acquire _ => isTrue trivial
  | .resume _ => isTrue trivial
  | .timeout _ => isTrue trivial

variable {env : ServerEnv ν} {state after : State υ ν τ} {thread : τ}

theorem State.stages_view {flow : Flow υ ν} (found : state.flows thread = flow) :
    (state.view env).stages thread = flow.stage :=
  congrArg Flow.stage found

variable [DecidableEq τ]

def View.goes (view : View υ τ) (thread : τ) (stage : Stage υ) : View υ τ :=
  { view with stages := Function.update view.stages thread stage }

/-- The database refuses the row of an account that has one. -/
inductive Refusal : View υ τ → View υ τ → Prop where
  | refused {view : View υ τ} {thread : τ} {urs : υ} {uuid : ℕ}
      (stage : view.stages thread = .kept urs uuid) :
      Refusal view (view.goes thread (.refused urs uuid))

@[simp]
theorem State.view_goes (state : State υ ν τ) (thread : τ) (flow : Flow υ ν) :
    (state.goes thread flow).view env = (state.view env).goes thread flow.stage := by
  unfold State.goes State.view View.goes
  congr 1
  funext other
  by_cases same : other = thread
  · subst same
    simp
  · simp [same]

theorem View.goes_same {view : View υ τ} {stage : Stage υ} (same : view.stages thread = stage) :
    view.goes thread stage = view := by
  subst same
  simp [View.goes]

variable [DecidableEq υ]

/-- What a stretch of execution can do, other than to refuse a row. -/
inductive Effect : View υ τ → View υ τ → Prop where
  | same {view : View υ τ} : Effect view view
  | counted {view : View υ τ} : Effect view { view with next := view.next + 1 }
  | given {view : View υ τ} {thread : τ} (urs : υ) (idle : view.stages thread = .free) :
      Effect view ({ view with next := view.next + 1, given := view.given ++ [view.next] }.goes thread
        (.fresh urs view.next))
  | kept {view : View υ τ} {thread : τ} {urs : υ} {uuid : ℕ}
      (stage : view.stages thread = .fresh urs uuid) :
      Effect view ({ view with records := Function.update view.records uuid (some urs) }.goes thread
        (.kept urs uuid))
  | placed {view : View υ τ} {thread : τ} {urs : υ} {uuid : ℕ}
      (stage : view.stages thread = .kept urs uuid) (absent : view.players urs = none) :
      Effect view ({ view with players := Function.update view.players urs (some none) }.goes thread
        (.placed urs uuid))
  | set {view : View υ τ} {thread : τ} {urs : υ} {uuid : ℕ}
      (stage : view.stages thread = .placed urs uuid) :
      Effect view ({ view with
        players := Function.update view.players urs
          ((view.players urs).map fun _ => some uuid) }.goes thread .free)
  | answered {view : View υ τ} {thread : τ} {urs : υ} {uuid : ℕ}
      (stage : view.stages thread = .refused urs uuid) :
      Effect view ({ view with failed := view.failed ++ [uuid] }.goes thread .free)

theorem Effect.stays {other : State υ ν τ} {flow later : Flow υ ν}
    (found : state.flows thread = flow) (same : flow.stage = later.stage)
    (seen : other.view env = state.view env) :
    Effect (state.view env) ((other.goes thread later).view env) := by
  rw [State.view_goes, seen, View.goes_same ((State.stages_view found).trans same)]
  exact .same

variable [DecidableEq ν]

omit [DecidableEq υ] in
@[simp]
theorem State.view_unlock (state : State υ ν τ) (thread : τ) (name : ν) :
    (state.unlock thread name).view env = state.view env := by
  unfold State.unlock
  split <;> rfl

theorem execute_effect (taken : state.execute thread = some after) :
    Permitted state (.execute thread) ∧ Effect (state.view env) (after.view env) ∨
      ¬ Permitted state (.execute thread) ∧ Refusal (state.view env) (after.view env) := by
  simp only [State.execute] at taken
  split at taken
  case h_1 request found =>
    cases taken
    exact .inl ⟨by simp [Permitted, found], .stays found rfl rfl⟩
  case h_2 request found =>
    cases taken
    exact .inl ⟨by simp [Permitted, found], .stays found rfl rfl⟩
  case h_3 request uuid found =>
    cases taken
    refine .inl ⟨by simp [Permitted, found], ?_⟩
    split
    · exact .stays found rfl rfl
    · exact .stays found rfl rfl
  case h_4 request uuid found =>
    cases taken
    rw [State.view_goes]
    exact .inl ⟨by simp [Permitted, found], .kept (State.stages_view found)⟩
  case h_5 request uuid found =>
    split at taken
    · next present =>
      cases taken
      rw [State.view_goes]
      refine .inr ⟨?_, .refused (State.stages_view found)⟩
      simpa [Permitted, found] using Option.isSome_iff_ne_none.mp present
    · next absent =>
      cases taken
      have free : state.players request.urs = none := by simpa using absent
      rw [State.view_goes]
      exact .inl ⟨by simpa [Permitted, found] using free, .placed (State.stages_view found) free⟩
  case h_6 request uuid found =>
    cases taken
    rw [State.view_goes]
    exact .inl ⟨by simp [Permitted, found], .set (State.stages_view found)⟩
  case h_7 => cases taken

theorem resume_effect (taken : state.resume env thread = some after) :
    Effect (state.view env) (after.view env) := by
  simp only [State.resume] at taken
  split at taken
  case h_1 request answer found =>
    cases taken
    refine .stays found ?_ rfl
    cases answer <;> rfl
  case h_2 request answer found =>
    cases taken
    have idle : (state.view env).stages thread = .free := State.stages_view found
    split
    · exact .stays found rfl rfl
    · unfold State.create
      split
      · have stays : ({ state.view env with next := (state.view env).next + 1 } : View υ τ).goes
            thread .free = { state.view env with next := (state.view env).next + 1 } :=
          View.goes_same idle
        rw [State.view_goes]
        exact (congrArg (Effect (state.view env)) stays).mpr .counted
      · rw [State.view_goes]
        exact .given request.urs idle
  case h_3 request uuid found =>
    cases taken
    exact .stays found rfl (State.view_unlock state thread request.roleName)
  case h_4 request uuid found =>
    cases taken
    exact .stays found rfl rfl
  case h_5 request uuid found =>
    cases taken
    exact .stays found rfl rfl
  case h_6 request uuid done found =>
    cases done with
    | true =>
        cases taken
        exact .stays found rfl rfl
    | false =>
        cases taken
        rw [State.view_goes]
        exact .answered (State.stages_view found)
  case h_7 request uuid found =>
    cases taken
    exact .stays found rfl rfl
  case h_8 => cases taken

theorem step_effect {event : Event υ ν τ} (taken : step env state event = some after) :
    Permitted state event ∧ Effect (state.view env) (after.view env) ∨
      ¬ Permitted state event ∧ Refusal (state.view env) (after.view env) := by
  cases event with
  | newRole thread request =>
      obtain ⟨idle, taken⟩ := Option.ite_none_right_eq_some.mp taken
      cases taken
      refine .inl ⟨trivial, ?_⟩
      split
      · exact .stays idle rfl rfl
      · exact .same
  | answer thread clean =>
      refine .inl ⟨trivial, ?_⟩
      simp only [step] at taken
      split at taken
      · next request found =>
          cases taken
          refine .stays found ?_ rfl
          cases clean <;> rfl
      · cases taken
  | execute thread => exact execute_effect taken
  | acquire thread =>
      refine .inl ⟨trivial, ?_⟩
      simp only [step, State.acquire] at taken
      split at taken
      · next request uuid found =>
          obtain ⟨-, taken⟩ := Option.ite_none_right_eq_some.mp taken
          cases taken
          exact .stays found rfl rfl
      · cases taken
  | resume thread => exact .inl ⟨trivial, resume_effect taken⟩
  | timeout name =>
      cases taken
      exact .inl ⟨trivial, .same⟩

end UEServer.Account
