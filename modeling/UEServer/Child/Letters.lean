import UEServer.Child.Marry

/-!
# Where a proposal is

A proposal is in one place: in a message, in the list of a role, or in a market.
-/

namespace UEServer.ChildMarry

variable {ρ κ : Type*}

def Message.letter : Message ρ κ → Option (Object κ)
  | .addObject _ object => some object
  | .receiveRequest _ object _ => some object
  | .storedRequest _ object => some object
  | .deleteReply _ object _ => object
  | .refuseRequest object => some object
  | _ => none

inductive Place (ρ : Type*) where
  | mail
  | list (uuid : ρ)
  | market (market : Market)

namespace State

def At (state : State ρ κ) (object : Object κ) : Place ρ → Prop
  | .mail => object ∈ state.mail.filterMap Message.letter
  | .list uuid => object ∈ state.proposeObjectList uuid
  | .market market => state.proposeObjectDict market object.child = some object

def Fresh (state : State ρ κ) (object : Object κ) : Prop :=
  ∀ place, ¬ state.At object place

end State

structure Letters (state : State ρ κ) : Prop where
  apart : ∀ object place other, state.At object place → state.At object other → place = other
  known : ∀ object place, state.At object place → object.number ≤ (state.child object.child).number
  nodup : (state.mail.filterMap Message.letter).Nodup
  single : ∀ uuid, ((state.proposeObjectList uuid).map Object.child).Nodup
  dict : ∀ market child object, state.proposeObjectDict market child = some object →
    object.child = child
  reply : ∀ child object session, .deleteReply child (some object) session ∈ state.mail →
    object.child = child

section
variable {state : State ρ κ}

theorem letters_move {after : State ρ κ} (letters : Letters state) (moved : Object κ → Prop)
    (place : Place ρ)
    (stay : ∀ object other, after.At object other →
      state.At object other ∧ ¬ moved object ∨ other = place ∧ moved object)
    (older : ∀ child, (state.child child).number ≤ (after.child child).number)
    (arrived : ∀ object, moved object → object.number ≤ (after.child object.child).number)
    (nodup : (after.mail.filterMap Message.letter).Nodup)
    (single : ∀ uuid, ((after.proposeObjectList uuid).map Object.child).Nodup)
    (dict : ∀ market child object, after.proposeObjectDict market child = some object →
      object.child = child)
    (reply : ∀ child object session, .deleteReply child (some object) session ∈ after.mail →
      object.child = child) : Letters after := by
  refine ⟨fun object one other here there => ?_, fun object one here => ?_, nodup, single, dict,
    reply⟩
  · rcases stay object one here with ⟨here, stays⟩ | ⟨rfl, moves⟩
    · rcases stay object other there with ⟨there, -⟩ | ⟨-, moves⟩
      · exact letters.apart object one other here there
      · exact absurd moves stays
    · rcases stay object other there with ⟨-, stays⟩ | ⟨rfl, -⟩
      · exact absurd moves stays
      · rfl
  · rcases stay object one here with ⟨here, -⟩ | ⟨-, moves⟩
    · exact Nat.le_trans (letters.known object one here) (older object.child)
    · exact arrived object moves

theorem letters_child (letters : Letters state) {child : κ → Child ρ κ}
    (older : ∀ one, (state.child one).number ≤ (child one).number) :
    Letters { state with child := child } :=
  { letters with known := fun object place here => Nat.le_trans (letters.known object place here) (older _) }

theorem letters_send (letters : Letters state) {message : Message ρ κ}
    (fresh : ∀ object ∈ message.letter,
      state.Fresh object ∧ object.number ≤ (state.child object.child).number)
    (reply : ∀ child object session, message = .deleteReply child (some object) session →
      object.child = child) : Letters (state.send [message]) := by
  have mail : (state.send [message]).mail.filterMap Message.letter =
      state.mail.filterMap Message.letter ++ message.letter.toList := by
    cases named : message.letter <;> simp [State.send, named]
  refine letters_move letters (fun object => message.letter = some object) .mail ?_
    (fun _ => Nat.le_refl _) (fun object named => (fresh object named).2) ?_ letters.single
    letters.dict ?_
  · intro object other here
    by_cases named : message.letter = some object
    · cases other with
      | mail => exact .inr ⟨rfl, named⟩
      | list uuid => exact absurd here ((fresh object named).1 (.list uuid))
      | market market => exact absurd here ((fresh object named).1 (.market market))
    · refine .inl ⟨?_, named⟩
      cases other with
      | mail =>
          simp only [State.At, mail, List.mem_append, Option.mem_toList] at here
          exact here.resolve_right named
      | list uuid => exact here
      | market market => exact here
  · rw [mail, List.nodup_append]
    refine ⟨letters.nodup, by cases message.letter <;> simp, ?_⟩
    rintro object old other new rfl
    exact (fresh object (Option.mem_toList.mp new)).1 .mail old
  · intro child object session member
    rcases List.mem_append.mp member with old | new
    · exact letters.reply child object session old
    · exact reply child object session (List.mem_singleton.mp new).symm

end

section
variable [DecidableEq ρ] [DecidableEq κ] {state : State ρ κ}

def State.taken (state : State ρ κ) (message : Message ρ κ) : State ρ κ :=
  { state with mail := state.mail.erase message }

theorem filterMap_erase_perm {β : Type*} {message : Message ρ κ} {mail : List (Message ρ κ)}
    (member : message ∈ mail) (f : Message ρ κ → Option β) :
    (mail.filterMap f).Perm ((f message).toList ++ (mail.erase message).filterMap f) := by
  have perm := (List.perm_cons_erase member).filterMap f
  cases named : f message <;> simpa [named] using perm

theorem letters_taken (letters : Letters state) {message : Message ρ κ}
    (member : message ∈ state.mail) :
    Letters (state.taken message) ∧ ∀ object ∈ message.letter,
      (state.taken message).Fresh object ∧ object.number ≤ (state.child object.child).number := by
  have perm := filterMap_erase_perm member Message.letter
  have nodup := perm.nodup_iff.mp letters.nodup
  have stay : ∀ object place, (state.taken message).At object place → state.At object place := by
    intro object place here
    cases place with
    | mail => exact perm.mem_iff.mpr (List.mem_append_right _ here)
    | list uuid => exact here
    | market market => exact here
  refine ⟨letters_move letters (fun _ => False) .mail
      (fun object place here => .inl ⟨stay object place here, id⟩) (fun _ => Nat.le_refl _)
      (fun _ => False.elim) (List.nodup_append.mp nodup).2.1 letters.single letters.dict
      fun child object session there => letters.reply child object session
        (List.mem_of_mem_erase there), ?_⟩
  intro object named
  have here : state.At object .mail :=
    perm.mem_iff.mpr (List.mem_append_left _ (Option.mem_toList.mpr named))
  refine ⟨fun place there => ?_, letters.known object .mail here⟩
  obtain rfl := letters.apart object .mail place here (stay object place there)
  exact (List.nodup_append.mp nodup).2.2 object (Option.mem_toList.mpr named) object there rfl

omit [DecidableEq κ] in
theorem letters_sublist (letters : Letters state) {uuid : ρ} {objects : List (Object κ)}
    (kept : objects.Sublist (state.proposeObjectList uuid)) :
    Letters (state.setList uuid objects) ∧
      ∀ object ∈ state.proposeObjectList uuid, object ∉ objects →
        (state.setList uuid objects).Fresh object := by
  have stay : ∀ object place, (state.setList uuid objects).At object place →
      state.At object place ∧ (place = .list uuid → object ∈ objects) := by
    intro object place here
    cases place with
    | mail => exact ⟨here, by simp⟩
    | list other =>
        by_cases same : other = uuid
        · subst same
          have member : object ∈ objects := by simpa [State.At, State.setList] using here
          exact ⟨kept.subset member, fun _ => member⟩
        · refine ⟨by simpa [State.At, State.setList, Function.update_of_ne same] using here, ?_⟩
          rintro ⟨⟩
          exact absurd rfl same
    | market market => exact ⟨here, by simp⟩
  refine ⟨letters_move letters (fun _ => False) .mail
      (fun object place here => .inl ⟨(stay object place here).1, id⟩) (fun _ => Nat.le_refl _)
      (fun _ => False.elim) letters.nodup ?_ letters.dict letters.reply, ?_⟩
  · intro other
    by_cases same : other = uuid
    · subst same
      simpa [State.setList] using (letters.single other).sublist (kept.map _)
    · simpa [State.setList, Function.update_of_ne same] using letters.single other
  · intro object member gone place here
    obtain ⟨old, stays⟩ := stay object place here
    exact gone (stays (letters.apart object place (.list uuid) old member))

omit [DecidableEq ρ] in
theorem child_ne_of_mem_eraseP {objects : List (Object κ)} {child : κ}
    (single : (objects.map Object.child).Nodup) {object : Object κ}
    (member : object ∈ objects.eraseP fun one => one.child = child) : object.child ≠ child := by
  induction objects with
  | nil => simp at member
  | cons head rest ih =>
      rw [List.map_cons, List.nodup_cons] at single
      by_cases here : head.child = child
      · rw [List.eraseP_cons_of_pos (by simpa using here)] at member
        rintro rfl
        exact single.1 (List.mem_map.mpr ⟨object, member, here.symm⟩)
      · rw [List.eraseP_cons_of_neg (by simpa using here)] at member
        rcases List.mem_cons.mp member with rfl | member
        · exact here
        · exact ih single.2 member

theorem letters_receive (letters : Letters state) {uuid : ρ} {object : Object κ}
    (fresh : state.Fresh object) (known : object.number ≤ (state.child object.child).number) :
    Letters (state.receiveRequest uuid object) := by
  have list : (state.receiveRequest uuid object).proposeObjectList uuid =
      state.listWithout uuid object.child ++ [object] := by
    simp [State.receiveRequest, State.setList]
  have others : ∀ other, other ≠ uuid → (state.receiveRequest uuid object).proposeObjectList other =
      state.proposeObjectList other := by
    intro other different
    simp [State.receiveRequest, State.setList, Function.update_of_ne different]
  have kept : (state.listWithout uuid object.child).Sublist (state.proposeObjectList uuid) :=
    List.eraseP_sublist
  refine letters_move letters (· = object) (.list uuid) ?_
    (fun _ => Nat.le_refl _) ?_ letters.nodup ?_ letters.dict letters.reply
  · intro one place here
    by_cases same : one = object
    · subst same
      refine .inr ⟨?_, rfl⟩
      cases place with
      | mail => exact absurd here (fresh .mail)
      | list other =>
          by_cases there : other = uuid
          · rw [there]
          · simp only [State.At, others other there] at here
            exact absurd here (fresh (.list other))
      | market market => exact absurd here (fresh (.market market))
    · refine .inl ⟨?_, same⟩
      cases place with
      | mail => exact here
      | list other =>
          by_cases there : other = uuid
          · subst there
            simp only [State.At, list, List.mem_append, List.mem_singleton] at here
            exact kept.subset (here.resolve_right same)
          · simpa only [State.At, others other there] using here
      | market market => exact here
  · rintro one rfl
    exact known
  · intro other
    by_cases there : other = uuid
    · subst there
      rw [list, List.map_append, List.nodup_append]
      refine ⟨(letters.single other).sublist (kept.map _), by simp, ?_⟩
      rintro child old child' new rfl
      obtain rfl : child = object.child := by simpa using new
      obtain ⟨one, member, same⟩ := List.mem_map.mp old
      exact child_ne_of_mem_eraseP (letters.single other) member same
    · rw [others other there]
      exact letters.single other

section
omit [DecidableEq ρ]

theorem setDict_apply (market other : Market) (child one : κ) (object : Option (Object κ)) :
    (state.setDict market child object).proposeObjectDict other one =
      if other = market ∧ one = child then object else state.proposeObjectDict other one := by
  by_cases there : other = market
  · subst there
    by_cases same : one = child <;> simp [State.setDict, same, Function.update_of_ne]
  · simp [State.setDict, there, Function.update_of_ne]

theorem letters_delete (letters : Letters state) {market : Market} {child : κ} :
    Letters (state.setDict market child none) ∧
      ∀ object, state.proposeObjectDict market child = some object →
        (state.setDict market child none).Fresh object := by
  have stay : ∀ object place, (state.setDict market child none).At object place →
      state.At object place ∧ (place = .market market → object.child ≠ child) := by
    intro object place here
    cases place with
    | mail => exact ⟨here, by simp⟩
    | list uuid => exact ⟨here, by simp⟩
    | market other =>
        simp only [State.At, setDict_apply] at here
        split at here
        · cases here
        · rename_i elsewhere
          refine ⟨here, ?_⟩
          rintro ⟨⟩ same
          exact elsewhere ⟨rfl, same⟩
  refine ⟨letters_move letters (fun _ => False) .mail
      (fun object place here => .inl ⟨(stay object place here).1, id⟩) (fun _ => Nat.le_refl _)
      (fun _ => False.elim) letters.nodup letters.single ?_ letters.reply, ?_⟩
  · intro other one object held
    rw [setDict_apply] at held
    split at held
    · cases held
    · exact letters.dict other one object held
  · intro object held place here
    have same := letters.dict market child object held
    obtain ⟨old, stays⟩ := stay object place here
    have there : state.At object (.market market) := by
      simpa only [State.At, same] using held
    exact stays (letters.apart object place (.market market) old there) same

theorem letters_add (letters : Letters state) {market : Market} {object : Object κ}
    (fresh : state.Fresh object) (known : object.number ≤ (state.child object.child).number) :
    Letters (state.setDict market object.child (some object)) := by
  refine letters_move letters (· = object) (.market market) ?_
    (fun _ => Nat.le_refl _) ?_ letters.nodup letters.single ?_ letters.reply
  · intro one place here
    cases place with
    | mail => exact .inl ⟨here, fun same => fresh .mail (same ▸ here)⟩
    | list uuid => exact .inl ⟨here, fun same => fresh (.list uuid) (same ▸ here)⟩
    | market other =>
        simp only [State.At, setDict_apply] at here
        split at here
        · rename_i there
          exact .inr ⟨by rw [there.1], (Option.some.inj here).symm⟩
        · exact .inl ⟨here, fun same => fresh (.market other) (same ▸ here)⟩
  · rintro one rfl
    exact known
  · intro other one held there
    rw [setDict_apply] at there
    split at there
    · rename_i same
      rw [same.2, ← Option.some.inj there]
    · exact letters.dict other one held there

end

end

end UEServer.ChildMarry
