import Mathlib.Data.List.Nodup
import UEServer.Library.Execution

/-!
# Shutdown

`agent_utils.shutdown`, which walks the list of the roles in memory and forks a kick for each of them, and the kicks,
which remove their roles from the list.
-/

namespace UEServer.Agent

/-- Where `shutdown` is. -/
inductive Phase where
  /-- It sleeps in the loop over the roles, at an index, with the role that it has read there. -/
  | sleeping (i uuid : ℕ)
  /-- It waits until there is no kick under way. -/
  | waiting
  /-- The server data are saved, and it waits for the correlated nodes. -/
  | saved
  | returned

structure State where
  phase : Phase
  roleList : List ℕ
  /-- The kicks that have been forked and not ended, and whether they have begun. -/
  shutdownUuidDict : List (ℕ × Bool)
  /-- The roles whose kick has begun, once for each kick. -/
  kicked : List ℕ
  /-- The correlated nodes that have not answered. -/
  asked : List String
  otherList : List String

def State.fork (state : State) (uuid : ℕ) : State :=
  { state with shutdownUuidDict := state.shutdownUuidDict ++ [(uuid, false)] }

/-- The loop runs on from an index, over the roles that are in the list from there on, until it sleeps. -/
def walk (state : State) (i : ℕ) : List ℕ → State
  | [] => { state with phase := .waiting }
  | uuid :: rest =>
      if i % 3 = 0 ∨ state.shutdownUuidDict.length > 800 then { state with phase := .sleeping i uuid }
      else walk (state.fork uuid) (i + 1) rest

/-- `shutdown` is called. -/
def shutdown (roles : List ℕ) : State := walk ⟨.waiting, roles, [], [], [], []⟩ 1 roles

inductive Event where
  /-- `shutdown` goes on. -/
  | wake
  /-- A kick begins. -/
  | begin (place : ℕ)
  /-- A kick ends, and has removed its role from the list or has raised. -/
  | finish (place : ℕ) (removed : Bool)
  /-- A correlated node is up or down, or the question raises. -/
  | answer (place : ℕ) (ok : Bool)

def step (state : State) : Event → Option State
  | .wake =>
      match state.phase with
      | .sleeping i uuid =>
          if state.shutdownUuidDict.length > 800 then some state
          else some (walk (state.fork uuid) (i + 1) (state.roleList.drop i))
      | .waiting =>
          if state.shutdownUuidDict = [] then
            some { state with phase := .saved, asked := ["dynasty", "chat"], otherList := ["dynasty", "chat"] }
          else some state
      | .saved => some { state with phase := if state.otherList = [] then .returned else .saved }
      | .returned => none
  | .begin place => do
      let (uuid, begun) ← state.shutdownUuidDict[place]?
      if begun then none
      else
        some { state with
          shutdownUuidDict := state.shutdownUuidDict.set place (uuid, true), kicked := uuid :: state.kicked }
  | .finish place removed => do
      let (uuid, begun) ← state.shutdownUuidDict[place]?
      if begun then
        some { state with
          shutdownUuidDict := state.shutdownUuidDict.eraseIdx place
          roleList := if removed then state.roleList.erase uuid else state.roleList }
      else none
  | .answer place ok => do
      let name ← state.asked[place]?
      return { state with
        asked := state.asked.eraseIdx place
        otherList := if ok then state.otherList.erase name else state.otherList }

/-- Nobody is kicked twice; when the data are saved every role has been kicked, and the kicks have ended; and nothing
is left to wait for when the nodes have answered. -/
structure Good (roles : List ℕ) (state : State) : Prop where
  once : state.kicked.Nodup
  everybody : state.phase = .saved ∨ state.phase = .returned →
    state.shutdownUuidDict = [] ∧ ∀ uuid ∈ roles, uuid ∈ state.kicked
  returns : state.phase = .saved → state.asked = [] → state.otherList = []

/-- No role is removed as long as the loop has others before it, and no question raises. -/
def Permitted (state : State) : Event → Prop
  | .finish _ removed => removed = true → ∀ i uuid, state.phase = .sleeping i uuid → state.roleList.length ≤ i
  | .answer _ ok => ok = true
  | _ => True

/-- The roles that the loop has before it. -/
def State.left (state : State) : List ℕ :=
  match state.phase with
  | .sleeping i uuid => uuid :: state.roleList.drop i
  | _ => []

structure Inv (roles : List ℕ) (state : State) : Prop where
  perm : (state.kicked ++ (state.shutdownUuidDict.filter (!·.2)).map Prod.fst ++ state.left).Perm roles
  ended : state.phase = .saved ∨ state.phase = .returned → state.shutdownUuidDict = []
  nodes : ∀ name ∈ state.otherList, name ∈ state.asked
  distinct : state.otherList.Nodup

variable {roles : List ℕ} {state after : State} {event : Event}

theorem Inv.good (nodup : roles.Nodup) (inv : Inv roles state) : Good roles state where
  once := ((inv.perm.nodup_iff.mpr nodup).of_append_left).of_append_left
  everybody := by
    intro late
    have nobody := inv.ended late
    refine ⟨nobody, fun uuid mem => ?_⟩
    have mem := inv.perm.mem_iff.mpr mem
    have none : state.left = [] := by
      rcases late with late | late <;> rw [State.left, late]
    rwa [nobody, none, List.filter_nil, List.map_nil, List.append_nil, List.append_nil] at mem
  returns := by
    intro _ answered
    refine List.eq_nil_iff_forall_not_mem.mpr fun name mem => ?_
    have mem := inv.nodes name mem
    rw [answered] at mem
    cases mem

theorem Inv.walk {i : ℕ} {rest : List ℕ} (whole : rest = state.roleList.drop (i - 1)) (positive : 1 ≤ i)
    (perm : (state.kicked ++ (state.shutdownUuidDict.filter (!·.2)).map Prod.fst ++ rest).Perm roles)
    (nodes : ∀ name ∈ state.otherList, name ∈ state.asked) (distinct : state.otherList.Nodup) :
    Inv roles (walk state i rest) := by
  induction rest generalizing state i with
  | nil =>
      refine ⟨perm, ?_, nodes, distinct⟩
      rintro (late | late) <;> cases late
  | cons uuid rest ih =>
      have next : rest = state.roleList.drop i := by
        have tail := congrArg (List.drop 1) whole
        rw [List.drop_drop, List.drop_one, List.tail_cons] at tail
        rw [tail]
        congr 1
        omega
      rw [Agent.walk]
      split
      · refine ⟨?_, ?_, nodes, distinct⟩
        · rw [next] at perm
          exact perm
        · rintro (late | late) <;> cases late
      · refine @ih (state.fork uuid) (i + 1) ?_ (by omega) ?_ nodes distinct
        · exact next
        · rw [State.fork]
          simpa [List.filter_append] using perm

theorem exists_split {α : Type} {list : List α} {place : ℕ} {value : α} (found : list[place]? = some value) :
    ∃ front back, list = front ++ value :: back ∧ list.eraseIdx place = front ++ back ∧
      ∀ other, list.set place other = front ++ other :: back := by
  obtain ⟨inside, rfl⟩ := List.getElem?_eq_some_iff.mp found
  refine ⟨list.take place, list.drop (place + 1), ?_, List.eraseIdx_eq_take_drop_succ _ _, fun other => ?_⟩
  · rw [List.getElem_cons_drop, List.take_append_drop]
  · rw [List.set_eq_take_append_cons_drop, if_pos inside]

theorem Inv.wake (inv : Inv roles state) (taken : step state .wake = some after) : Inv roles after := by
  have perm := inv.perm
  simp only [Agent.step] at taken
  split at taken
  · rename_i i uuid sleeping
    rw [State.left, sleeping] at perm
    split at taken
    · cases taken
      exact inv
    · cases taken
      refine @Inv.walk roles (state.fork uuid) (i + 1) _ rfl (by omega) ?_ inv.nodes inv.distinct
      rw [State.fork]
      simpa [List.filter_append] using perm
  · rename_i waiting
    split at taken
    · rename_i nobody
      cases taken
      rw [State.left, waiting] at perm
      exact ⟨perm, fun _ => nobody, fun _ mem => mem, show List.Nodup ["dynasty", "chat"] by decide⟩
    · cases taken
      exact inv
  · rename_i saved
    cases taken
    rw [State.left, saved] at perm
    have none : State.left { state with phase := if state.otherList = [] then .returned else .saved } = [] := by
      rw [State.left]
      by_cases empty : state.otherList = [] <;> simp [empty]
    refine ⟨?_, fun _ => inv.ended (.inl saved), inv.nodes, inv.distinct⟩
    rw [none]
    exact perm
  · cases taken

theorem Inv.step (inv : Inv roles state) (permitted : Permitted state event)
    (taken : step state event = some after) : Inv roles after := by
  have perm := inv.perm
  cases event with
  | wake => exact inv.wake taken
  | begin place =>
      obtain ⟨⟨uuid, begun⟩, found, rest⟩ := Option.bind_eq_some_iff.mp taken
      obtain ⟨front, back, whole, -, set⟩ := exists_split found
      dsimp only at rest
      split at rest
      · cases rest
      · rename_i unbegun
        cases rest
        obtain rfl : begun = false := by simpa using unbegun
        refine ⟨?_, fun late => ?_, inv.nodes, inv.distinct⟩
        · rw [whole] at perm
          rw [set]
          refine List.Perm.trans ?_ perm
          simp only [List.filter_append, List.map_append, List.filter_cons, Bool.not_false, Bool.not_true, if_true,
            Bool.false_eq_true, if_false, List.map_cons, List.append_assoc, List.cons_append]
          rw [← List.append_assoc, ← List.append_assoc state.kicked]
          exact List.perm_middle.symm
        · have nobody := inv.ended late
          rw [nobody] at found
          cases found
  | finish place removed =>
      obtain ⟨⟨uuid, begun⟩, found, rest⟩ := Option.bind_eq_some_iff.mp taken
      obtain ⟨front, back, whole, erased, -⟩ := exists_split found
      dsimp only at rest
      split at rest
      · rename_i begins
        cases rest
        obtain rfl : begun = true := begins
        refine ⟨?_, fun late => ?_, inv.nodes, inv.distinct⟩
        · have left : State.left { state with
              shutdownUuidDict := state.shutdownUuidDict.eraseIdx place
              roleList := if removed then state.roleList.erase uuid else state.roleList } = state.left := by
            cases removed with
            | false => rfl
            | true =>
                simp only [State.left, if_true]
                cases sleeping : state.phase with
                | sleeping i other =>
                    have behind := permitted rfl i other sleeping
                    have shorter := (List.erase_sublist (a := uuid) (l := state.roleList)).length_le
                    dsimp only
                    rw [List.drop_eq_nil_of_le behind, List.drop_eq_nil_of_le (by omega)]
                | waiting | saved | returned => rfl
          rw [left]
          rw [erased]
          rw [whole] at perm
          simpa [List.filter_append] using perm
        · have nobody := inv.ended late
          rw [nobody] at found
          cases found
      · cases rest
  | answer place ok =>
      obtain ⟨name, found, rest⟩ := Option.bind_eq_some_iff.mp taken
      cases rest
      obtain ⟨front, back, whole, erased, -⟩ := exists_split found
      obtain rfl : ok = true := permitted
      refine ⟨perm, inv.ended, fun other mem => ?_, inv.distinct.erase name⟩
      obtain ⟨different, mem⟩ := inv.distinct.mem_erase_iff.mp mem
      have asked := inv.nodes other mem
      rw [erased]
      rw [whole] at asked
      simpa [different] using asked

/-- **Shutdown kicks everybody** in every run in which no role is removed from the list while the loop has others
before it, and no question to a correlated node raises. -/
theorem shutdown_kicks_everybody {roles : List ℕ} (nodup : roles.Nodup) (events : List Event)
    (guarded : Execution.Guarded step Permitted (shutdown roles) events) :
    Execution.Always step (Good roles) (shutdown roles) events := by
  have base : Inv roles (shutdown roles) :=
    @Inv.walk roles ⟨.waiting, roles, [], [], [], []⟩ 1 roles rfl (Nat.le_refl 1) (by simp) nofun .nil
  exact (Execution.always_of_guarded Inv.step guarded base).mono
    fun _ inv => inv.good nodup

/-- Four roles, whose kicks end after the loop. -/
def late : List Event :=
  [.wake, .begin 0, .begin 1, .begin 2, .begin 3, .finish 0 true, .finish 0 true, .finish 0 true,
    .finish 0 false, .wake, .answer 0 true, .answer 0 true, .wake]

theorem shutdown_kicks_everybody_late :
    Execution.Always step (Good [1, 2, 3, 4]) (shutdown [1, 2, 3, 4]) late :=
  shutdown_kicks_everybody (by decide) late (by
    simp [late, shutdown, walk, State.fork, Execution.Guarded, step, Permitted])

/-- Two kicks end while the loop sleeps at the third role; it goes on behind the end of the list. -/
def early : List Event :=
  [.begin 0, .finish 0 true, .begin 0, .finish 0 true, .wake, .begin 0, .finish 0 true, .wake]

theorem early_not_good : ¬ Execution.Always step (Good [1, 2, 3, 4]) (shutdown [1, 2, 3, 4]) early := by
  intro always
  have final : Execution.run step (shutdown [1, 2, 3, 4]) early =
      some ⟨.saved, [4], [], [3, 2, 1], ["dynasty", "chat"], ["dynasty", "chat"]⟩ := rfl
  have kicked := ((always.last final).everybody (.inl rfl)).2 4 (by decide)
  exact absurd kicked (by decide)

end UEServer.Agent
