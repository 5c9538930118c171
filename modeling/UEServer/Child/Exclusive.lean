import Mathlib
import UEServer.Child.Couple

/-!
# Who marries whom

Two children record each other, and no child marries twice, in every execution in which the calls
and the messages that the code does not check against each other do not cross.
-/

namespace UEServer.ChildMarry

section
variable {ρ κ : Type*} [DecidableEq ρ] [DecidableEq κ]

/-- What the marriages promise in one state. -/
structure Sound (state : State ρ κ) : Prop where
  /-- When all messages have been delivered, a child records another one as its spouse exactly when
  the other one records it. -/
  symmetric : state.mail = [] → ∀ child other,
    (state.child child).marry = some other ↔ (state.child other).marry = some child
  exclusive : state.mail = [] → ∀ child other spouse, (state.child child).marry = some spouse →
    (state.child other).marry = some spouse → child = other
  once : (state.accepted.flatMap fun acceptance =>
    [acceptance.object.child, acceptance.child]).Nodup
  /-- No proposal has been accepted that was cancelled, or whose child had married. -/
  live : ∀ acceptance ∈ state.accepted, acceptance.live = true

/-- What a step must find. A child with a spouse on its way sends no proposal and cancels none, and
it cancels none to a role before the answer. Whoever accepts a proposal is free when it takes the
proposal, and no cancellation of the proposal is on its way. A cancellation does not overtake its
proposal, a refusal is of the last proposal, and a spouse finds the role object that has asked. -/
def Settled (family : Family ρ κ) (state : State ρ κ) : Label ρ κ → Prop
  | .sendRequest child _ _ _ => ¬ state.Engaged child
  | .drivingCancelRequest child =>
      (state.child child).applyType = some .assign →
        ¬ state.Engaged child ∧ (state.child child).applyUuid = (state.child child).target
  | .drivingMarriage child .assign object =>
      ∀ proposal ∈ state.chosen family child object,
        state.Free child ∧ .cancelRequest (family.owner child) proposal ∉ state.mail
  | .deliver (.marriageCall market child object _) =>
      state.proposeObjectDict market child ≠ none → family.Fits child object → state.Free object
  | .deliver (.cancelRequest uuid object) =>
      ∀ message ∈ state.mail, message.request ≠ some (uuid, object)
  | .deliver (.refuseRequest object) =>
      (state.child object.child).childStatus = .adult →
        (state.child object.child).applyUuid ≠ none →
        (state.child object.child).applyTime ≠ none →
        object.number = (state.child object.child).number
  | .deliver (.marriageReply child (some _) session) =>
      state.roleDict (family.owner child) = some session
  | _ => True

instance (family : Family ρ κ) (state : State ρ κ) (proposal : Option (Object κ)) (child : κ) :
    Decidable (∀ object ∈ proposal,
      state.Free child ∧ Message.cancelRequest (family.owner child) object ∉ state.mail) :=
  match proposal with
  | none => isTrue (by simp)
  | some object =>
      decidable_of_iff
        (state.Free child ∧ ¬ state.mail.contains (.cancelRequest (family.owner child) object))
        (by simp)

instance (family : Family ρ κ) (state : State ρ κ) :
    (label : Label ρ κ) → Decidable (Settled family state label)
  | .sendRequest child _ _ _ => inferInstanceAs (Decidable (¬ state.Engaged child))
  | .drivingCancelRequest _ => inferInstanceAs (Decidable (_ → _ ∧ _))
  | .drivingMarriage child .assign object =>
      inferInstanceAs (Decidable (∀ proposal ∈ state.chosen family child object,
        state.Free child ∧ Message.cancelRequest (family.owner child) proposal ∉ state.mail))
  | .deliver (.marriageCall _ child object _) =>
      inferInstanceAs (Decidable (_ → family.Fits child object → state.Free object))
  | .deliver (.cancelRequest uuid object) =>
      inferInstanceAs (Decidable (∀ message ∈ state.mail, message.request ≠ some (uuid, object)))
  | .deliver (.refuseRequest _) => inferInstanceAs (Decidable (_ → _ → _ → _ = _))
  | .deliver (.marriageReply _ (some _) _) => inferInstanceAs (Decidable (_ = _))
  | .login _ | .logout _ | .grow _ | .marriageConfirmStatus _ | .drivingRefuseRequest _ _
  | .drivingRefuseAllRequest _ | .drivingMarriage _ .service _ | .drivingMarriage _ .cross _
  | .deliver (.addObject _ _) | .deliver (.receiveRequest _ _ _) | .deliver (.storedRequest _ _)
  | .deliver (.requestReply _ _ _) | .deliver (.deleteObject _ _ _)
  | .deliver (.deleteReply _ _ _) | .deliver (.marriageReply _ none _)
  | .deliver (.marriage _ _) => isTrue trivial

end

section
variable {ρ κ : Type*} [DecidableEq κ] {family : Family ρ κ} {state : State ρ κ}

section
variable [DecidableEq ρ]

variable {applyType : ChildSendRequest} {uuid : ρ}

omit [DecidableEq ρ] [DecidableEq κ] in
theorem market_eq_none :
    family.market uuid applyType = none ↔ applyType = .assign := by
  cases applyType <;> simp [Family.market]

variable {object : Object κ} {child : κ}

section
omit [DecidableEq ρ]

theorem object?_eq_some
    (found : state.object? uuid child = some object) :
    object ∈ state.proposeObjectList uuid ∧ object.child = child :=
  ⟨List.mem_of_find?_eq_some found, by simpa using List.find?_some found⟩

theorem role_inv (inv : Inv family state) (roleDict : ρ → Option Nat) (loads : Nat) :
    Inv family { state with roleDict := roleDict, loads := loads } :=
  inv_of_moves inv { inv.letters with } rfl rfl rfl (fun _ _ _ => id) inv.waiting inv.fine
    inv.listed inv.offered

theorem status_inv (inv : Inv family state) (child : κ) (childStatus : ChildStatus) :
    Inv family (state.setChild child { state.child child with childStatus := childStatus }) :=
  detail_inv inv rfl rfl rfl rfl (.inl rfl) (inv.timed child) (inv.addressed child)

end

variable {session : Nat}

theorem sendRequest_inv (inv : Inv family state)
    {uuid : Option ρ} {now : Int} (free : ¬ state.Engaged child) :
    Inv family (state.sendRequest family child applyType uuid now session) := by
  by_cases ready : (state.child child).childStatus = .adult ∧
      (state.child child).applyType = none ∧ (state.child child).applyTime = none ∧
      (state.child child).marry = none ∧ uuid ≠ some (family.owner child)
  · obtain ⟨-, applied, -, single, -⟩ := id ready
    dsimp only [State.sendRequest]
    rw [if_pos ready]
    generalize (if applyType = .assign then uuid else none) = target
    have requested := request_inv inv applied single free applyType now target
    have fresh : state.Fresh { child := child, number := (state.child child).number + 1 } := by
      intro place here
      have known := inv.letters.known _ place here
      simp only at known
      omega
    have alone : child ∉ state.mail.filterMap Message.waiting := by
      intro there
      obtain ⟨message, member, waiting⟩ := List.mem_filterMap.mp there
      have impossible : ∀ role object, object.child = child → ¬ state.Waits role object := by
        rintro role object rfl ⟨-, -, married | ⟨sent, -⟩⟩
        · exact married single
        · rw [applied] at sent
          cases sent
      have fine := inv.fine message member
      cases message with
      | receiveRequest role object _ =>
          exact impossible role object (Option.some.inj waiting) fine.2
      | requestReply role object _ => exact impossible role object (Option.some.inj waiting) fine
      | _ => cases waiting
    generalize sent : state.setChild child
      { state.child child with
        applyType := some applyType
        applyTime := some now
        number := (state.child child).number + 1
        target := target } = after at requested ⊢
    have self : after.child child =
        { state.child child with
          applyType := some applyType
          applyTime := some now
          number := (state.child child).number + 1
          target := target } := by
      simp [← sent, State.setChild]
    have current : after.proposal child =
        some ((state.child child).number + 1, applyType, target) := by
      refine proposal_eq_some.mpr ⟨⟨?_, ?_⟩, ?_, ?_, ?_⟩
      · rw [self]
        exact single
      · rw [← sent]
        exact free
      all_goals rw [self]
    have letter : after.Fresh { child := child, number := (state.child child).number + 1 } ∧
        (state.child child).number + 1 ≤ (after.child child).number := by
      refine ⟨?_, Nat.le_of_eq (by rw [self])⟩
      rw [← sent]
      exact fresh
    have quiet : after.mail = state.mail := by rw [← sent]; rfl
    cases served : family.market (family.owner child) applyType with
    | some market =>
        exact send_inv requested rfl ⟨applyType, target, current, served⟩
          (by rintro object ⟨⟩; exact letter) (by simp) (by rintro _ ⟨⟩)
    | none =>
        obtain rfl := market_eq_none.mp served
        cases target with
        | none => exact requested
        | some role =>
            refine send_inv requested rfl ⟨.inl current, ?_, ?_, .inr ⟨?_, ?_⟩⟩
              (by rintro object ⟨⟩; exact letter) (by simp) ?_
            · rw [self]
            · rw [self]
            · rw [self]
            · rw [self]
              by_contra addressed
              have kept := (inv.addressed child single addressed).1
              rw [applied] at kept
              cases kept
            · rintro one ⟨⟩
              rw [quiet]
              exact alone
  · dsimp only [State.sendRequest]
    rw [if_neg ready]
    exact inv

omit [DecidableEq ρ] in
theorem drivingCancelRequest_inv (inv : Inv family state)
    (settled : (state.child child).applyType = some .assign →
      ¬ state.Engaged child ∧ (state.child child).applyUuid = (state.child child).target) :
    Inv family (state.drivingCancelRequest family child session) := by
  dsimp only [State.drivingCancelRequest]
  split
  · rename_i ready
    obtain ⟨applied, single⟩ := inv.timed child ready.2
    split
    · exact inv
    · rename_i applyType sent
      cases served : family.market (family.owner child) applyType with
      | some market => exact sendPlain_inv inv rfl trivial rfl rfl
      | none =>
          obtain rfl := market_eq_none.mp served
          obtain ⟨free, answered⟩ := settled sent
          have silent : ∀ uuid object, object.child = child → ¬ state.Waits uuid object := by
            rintro uuid object rfl ⟨-, role, married | ⟨-, unanswered⟩⟩
            · exact married single
            · rw [← answered, unanswered] at role
              cases role
          have unoffered : ∀ market object, object.child = child →
              ¬ state.Offers family market object := by
            rintro market object rfl ⟨ty, role, current, served⟩
            obtain rfl := Option.some.inj (sent.symm.trans (proposal_eq_some.mp current).2.1)
            cases served
          have targeted : ∀ number role, state.proposal child = some (number, .assign, role) →
              number = (state.child child).number ∧ role = (state.child child).applyUuid := by
            intro number role current
            obtain ⟨-, -, last, target⟩ := proposal_eq_some.mp current
            exact ⟨last.symm, target.symm.trans answered.symm⟩
          cases addressed : (state.child child).applyUuid with
          | none =>
              rw [Option.toList_none, List.map_nil, State.send, List.append_nil]
              refine clear_inv inv single free silent (fun market object _ _ => unoffered market
                object) ?_ rfl rfl rfl rfl rfl
              intro uuid object place _ _ current
              have target := (targeted _ _ current).2
              rw [addressed] at target
              cases target
          | some uuid =>
              have told : Inv family (state.send [.cancelRequest uuid
                  { child := child, number := (state.child child).number }]) :=
                sendPlain_inv inv rfl trivial rfl rfl
              have engaged : ∀ one, (state.send [.cancelRequest uuid
                  { child := child, number := (state.child child).number }]).Engaged one ↔
                    state.Engaged one := by
                intro one
                simp [State.Engaged, State.send, Message.wedding]
              have proposal : ∀ one, (state.send [.cancelRequest uuid
                  { child := child, number := (state.child child).number }]).proposal one =
                    state.proposal one :=
                fun one => Same.proposal ⟨rfl, engaged one⟩
              have cleared : Inv family ((state.send [.cancelRequest uuid
                  { child := child, number := (state.child child).number }]).setChild child
                    (State.withoutRequest (state.child child))) := by
                refine clear_inv told single (mt (engaged child).mp free) silent ?_ ?_ rfl rfl rfl
                  rfl rfl
                · rintro market object _ - same ⟨ty, role, current, served⟩
                  exact unoffered market object same ⟨ty, role, (proposal _).symm.trans current,
                    served⟩
                · rintro one object _ - same current
                  obtain ⟨last, role⟩ := targeted _ _ ((proposal _).symm.trans current)
                  rw [addressed] at role
                  obtain rfl := Option.some.inj role
                  refine List.mem_append_right _ (List.mem_singleton.mpr ?_)
                  cases object
                  simp_all
              exact cleared
  · exact inv

omit [DecidableEq ρ] in
theorem Requests_refused (requests : state.Requests uuid object) :
    state.Refused object := by
  rcases requests with current | ⟨-, past⟩
  · exact .inl ⟨_, current⟩
  · exact .inr past

theorem drivingRefuseRequest_inv (inv : Inv family state) :
    Inv family (state.drivingRefuseRequest family uuid child) := by
  unfold State.drivingRefuseRequest
  split
  · exact inv
  · split
    · exact inv
    · rename_i object found
      obtain ⟨member, rfl⟩ := object?_eq_some found
      have kept : (state.listWithout uuid object.child).Sublist (state.proposeObjectList uuid) :=
        List.eraseP_sublist
      refine send_inv (sublist_inv inv kept) rfl (Requests_refused (inv.listed uuid object member))
        ?_ (by simp) (by rintro _ ⟨⟩)
      rintro one ⟨⟩
      refine ⟨(letters_sublist inv.letters kept).2 object member fun there => ?_,
        inv.letters.known object (.list uuid) member⟩
      exact child_ne_of_mem_eraseP (inv.letters.single uuid) there rfl

omit [DecidableEq ρ] in
theorem sendRefusals_inv (objects : List (Object κ)) {state : State ρ κ}
    (inv : Inv family state) (distinct : objects.Nodup)
    (fresh : ∀ object ∈ objects,
      state.Fresh object ∧ object.number ≤ (state.child object.child).number)
    (refused : ∀ object ∈ objects, state.Refused object) :
    Inv family (state.send (objects.map .refuseRequest)) := by
  induction objects generalizing state with
  | nil =>
      rw [List.map_nil, State.send, List.append_nil]
      exact inv
  | cons head rest ih =>
      rw [List.nodup_cons] at distinct
      have sent : Inv family (state.send [.refuseRequest head]) :=
        send_inv inv rfl (refused head List.mem_cons_self)
          (by rintro one ⟨⟩; exact fresh head List.mem_cons_self) (by simp) (by rintro _ ⟨⟩)
      have engaged : ∀ one, (state.send [.refuseRequest head]).Engaged one ↔
          state.Engaged one := by
        intro one
        simp [State.Engaged, State.send, Message.wedding]
      have later := ih sent distinct.2 (fun object member => ⟨fun place here => ?_, ?_⟩)
        fun object member => ?_
      · simpa only [State.send, List.map_cons, List.append_assoc, List.singleton_append] using later
      · have old := (fresh object (List.mem_cons_of_mem head member)).1
        cases place with
        | mail =>
            simp only [State.At, State.send, List.filterMap_append, List.mem_append] at here
            rcases here with here | here
            · exact old .mail here
            · obtain rfl : object = head := by simpa [Message.letter] using here
              exact distinct.1 member
        | list uuid => exact old (.list uuid) here
        | market market => exact old (.market market) here
      · exact (fresh object (List.mem_cons_of_mem head member)).2
      · have same : Same state (state.send [.refuseRequest head]) object.child :=
          ⟨rfl, engaged _⟩
        exact same.refused (refused object (List.mem_cons_of_mem head member))

section
variable (inv : Inv family state)
include inv

theorem drivingRefuseAllRequest_inv : Inv family (state.drivingRefuseAllRequest uuid) := by
  have kept : ([] : List (Object κ)).Sublist (state.proposeObjectList uuid) := List.nil_sublist _
  refine sendRefusals_inv (state.proposeObjectList uuid) (sublist_inv inv kept)
    (inv.letters.single uuid).of_map (fun object member => ⟨?_, ?_⟩)
    fun object member => Requests_refused (inv.listed uuid object member)
  · exact (letters_sublist inv.letters kept).2 object member List.not_mem_nil
  · exact inv.letters.known object (.list uuid) member

theorem drivingMarriage_inv {child object : κ}
    (settled : applyType = .assign → ∀ proposal ∈ state.chosen family child object, state.Free child ∧ .cancelRequest (family.owner child) proposal ∉ state.mail)
    :
    Inv family (state.drivingMarriage family child applyType object session) := by
  unfold State.drivingMarriage
  cases served : family.market (family.owner child) applyType with
  | some market =>
      dsimp only
      split
      · exact sendPlain_inv inv rfl trivial rfl rfl
      · exact inv
  | none =>
      cases chosen : state.chosen family child object with
      | none => exact inv
      | some proposal =>
          obtain ⟨free, uncancelled⟩ := settled (market_eq_none.mp served) proposal chosen
          unfold State.chosen at chosen
          split at chosen
          · rename_i fits
            obtain ⟨member, rfl⟩ := object?_eq_some chosen
            have sex := fits.2.2.1
            have live : state.Live proposal := by
              rcases inv.listed _ proposal member with current | ⟨cancelled, -⟩
              · exact live_iff.mpr ⟨_, _, current⟩
              · exact absurd cancelled uncancelled
            have kept : (state.listWithout (family.owner child) proposal.child).Sublist
                (state.proposeObjectList (family.owner child)) := List.eraseP_sublist
            have fresh := (letters_sublist inv.letters kept).2 proposal member fun there =>
              child_ne_of_mem_eraseP (inv.letters.single _) there rfl
            have wed := wed_inv (sublist_inv inv kept) fresh live free
              (fun same => sex (congrArg family.sex same)) sex 0
            have unsent : Message.marriageReply child (some proposal.child) 0 ∉ state.mail :=
              fun there => free.2.2 (engaged_of_wedding there rfl)
            have untimed : (state.child child).applyTime = none := by
              by_contra timed
              exact (inv.timed child timed).1 free.1
            have told := delivered_inv wed (.marriageReply child (some proposal.child) 0)
              { state.child child with marry := some proposal.child }
              (List.mem_append_right _ (by simp)) rfl free.2.1 rfl rfl rfl rfl untimed
            have mail : (state.mail ++ [Message.marriage proposal.child child,
                Message.marriageReply child (some proposal.child) 0]).erase
                  (Message.marriageReply child (some proposal.child) 0) =
                state.mail ++ [Message.marriage proposal.child child] := by
              rw [List.erase_append_right _ unsent]
              simp
            simp only [State.taken, State.setChild, State.send, State.setList, mail] at told ⊢
            simpa only [live, decide_true] using told
          · cases chosen

theorem handle_receiveRequest_inv (fresh : state.Fresh object)
    (known : object.number ≤ (state.child object.child).number)
    (fine : state.Requests uuid object ∧ state.Waits uuid object)
    (alone : object.child ∉ state.mail.filterMap Message.waiting) :
    Inv family (state.handle family (.receiveRequest uuid object session)) := by
  dsimp only [State.handle]
  split
  · have replied : Inv family (state.send [.requestReply uuid object session]) :=
      send_inv inv rfl fine.2 (by rintro _ ⟨⟩) (by simp) (by rintro child ⟨⟩; exact alone)
    have engaged : ∀ one, (state.send [.requestReply uuid object session]).Engaged one ↔
        state.Engaged one := by
      simp [State.Engaged, State.send, Message.wedding]
    have same : Same state (state.send [.requestReply uuid object session]) object.child :=
      ⟨rfl, engaged _⟩
    have stored : Inv family ((state.send [.requestReply uuid object session]).send
        [.storedRequest uuid object]) := by
      refine send_inv replied rfl
        (same.requests (fun there => List.mem_append_left _ there) fine.1) ?_ (by simp) (by rintro _ ⟨⟩)
      rintro one ⟨⟩
      refine ⟨fun place here => fresh place ?_, known⟩
      cases place with
      | mail => simpa [State.At, State.send, Message.letter] using here
      | list role => exact here
      | market market => exact here
    simpa only [State.send, List.append_assoc, List.singleton_append] using stored
  · exact send_inv (receive_inv inv fresh known fine.1) rfl fine.2 (by rintro _ ⟨⟩) (by simp)
      (by rintro child ⟨⟩; exact alone)

theorem handle_deleteObject_inv {market : Market} :
    Inv family (state.handle family (.deleteObject market child session)) := by
  dsimp only [State.handle]
  cases held : state.proposeObjectDict market child with
  | none => exact sendPlain_inv (delete_inv inv) rfl trivial rfl rfl
  | some object =>
      have same := inv.letters.dict market child object held
      refine send_inv (delete_inv inv) rfl ⟨market, inv.offered market child object held⟩ ?_ ?_
        nofun
      · rintro one ⟨⟩
        refine ⟨(letters_delete inv.letters).2 object held, ?_⟩
        refine inv.letters.known object (.market market) ?_
        simpa only [State.At, same] using held
      · rintro _ _ _ ⟨⟩
        exact same

theorem handle_deleteReply_inv {object : Option (Object κ)}
    (fresh : ∀ one ∈ object, state.Fresh one ∧ one.child = child)
    (fine : state.Fine family (.deleteReply child object session)) :
    Inv family (state.handle family (.deleteReply child object session)) := by
  dsimp only [State.handle]
  split
  · rename_i found
    cases object with
    | none => exact absurd rfl found.1
    | some object =>
        obtain ⟨unplaced, rfl⟩ := fresh object rfl
        obtain ⟨market, ty, role, current, served⟩ := fine
        obtain ⟨⟨single, free⟩, sent, last, -⟩ := proposal_eq_some.mp current
        have market_sent : (state.child object.child).applyType ≠ some .assign := by
          intro assigned
          cases sent.symm.trans assigned
          cases served
        refine clear_fresh_inv inv rfl unplaced last.symm single free ?_ rfl rfl rfl rfl ?_
        · rintro uuid one same ⟨-, -, married | ⟨assigned, -⟩⟩
          · exact married (same ▸ single)
          · exact market_sent (same ▸ assigned)
        · by_contra addressed
          exact market_sent (inv.addressed object.child single addressed).1
  · exact inv

theorem handle_refuseRequest_inv (fresh : state.Fresh object) (refused : state.Refused object)
    (settled : (state.child object.child).childStatus = .adult → (state.child object.child).applyUuid ≠ none → (state.child object.child).applyTime ≠ none → object.number = (state.child object.child).number)
    :
    Inv family (state.handle family (.refuseRequest object)) := by
  dsimp only [State.handle, State.passiveRefuseRequest]
  split
  · rename_i ready
    obtain ⟨adult, addressed, timed⟩ := ready
    have current := settled adult addressed timed
    obtain ⟨applied, single⟩ := inv.timed object.child timed
    have free : ¬ state.Engaged object.child := by
      rcases refused with ⟨role, live⟩ | older | unapplied
      · exact (proposal_eq_some.mp live).1.2
      · omega
      · exact absurd unapplied applied
    refine clear_fresh_inv inv rfl fresh current single free ?_ rfl rfl rfl rfl rfl
    rintro uuid one same ⟨-, -, married | ⟨-, unanswered⟩⟩
    · exact married (same ▸ single)
    · exact addressed (same ▸ unanswered)
  · exact inv

theorem handle_marriageCall_inv {market : Market} {child object : κ}
    (settled : state.proposeObjectDict market child ≠ none → family.Fits child object → state.Free object)
    :
    Inv family (state.handle family (.marriageCall market child object session)) := by
  dsimp only [State.handle, State.marriage]
  cases held : state.proposeObjectDict market child with
  | none => exact sendPlain_inv inv rfl trivial rfl rfl
  | some proposal =>
      dsimp only
      split
      · rename_i fits
        have free := settled (by simp [held]) fits
        have same := inv.letters.dict market child proposal held
        subst same
        obtain ⟨ty, role, current, -⟩ := inv.offered market _ proposal held
        have live : state.Live proposal := live_iff.mpr ⟨ty, role, current⟩
        have wed := wed_inv (delete_inv inv) ((letters_delete inv.letters).2 proposal held) live
          free (fun same => fits.1 (congrArg family.sex same)) fits.1 session
        simp only [live, decide_true]
        exact wed
      · exact sendPlain_inv inv rfl trivial rfl rfl

theorem deliver_inv {message : Message ρ κ} (settled : Settled family state (.deliver message))
    (member : message ∈ state.mail) : Inv family ((state.taken message).handle family message) := by
  have letters := (letters_taken inv.letters member).2
  have taken := fun quiet stays => taken_inv inv member quiet stays
  have fine := inv.fine message member
  cases message with
  | addObject market object =>
      obtain ⟨inv', fine', -⟩ := taken rfl (by simp)
      obtain ⟨fresh, known⟩ := letters object rfl
      exact add_inv inv' fresh known fine'
  | receiveRequest uuid object session =>
      obtain ⟨inv', fine', alone⟩ := taken rfl (by simp)
      obtain ⟨fresh, known⟩ := letters object rfl
      exact handle_receiveRequest_inv inv' fresh known fine' (alone _ rfl)
  | storedRequest uuid object =>
      obtain ⟨inv', fine', -⟩ := taken rfl (by simp)
      obtain ⟨fresh, known⟩ := letters object rfl
      exact receive_inv inv' fresh known fine'
  | requestReply uuid object session =>
      obtain ⟨inv', fine', alone⟩ := taken rfl (by simp)
      dsimp only [State.handle]
      split
      · exact answered_inv inv' fine' (alone _ rfl)
      · exact sendPlain_inv inv' rfl trivial rfl rfl
  | deleteObject market child session =>
      exact handle_deleteObject_inv (taken rfl (by simp)).1
  | deleteReply child object session =>
      obtain ⟨inv', fine', -⟩ := taken rfl (by simp)
      refine handle_deleteReply_inv inv' (fun one named => ⟨(letters one named).1, ?_⟩) fine'
      obtain rfl : object = some one := named
      exact inv.letters.reply child one session member
  | cancelRequest uuid object => exact cancelled_inv inv member settled
  | refuseRequest object =>
      obtain ⟨inv', fine', -⟩ := taken rfl (by simp)
      exact handle_refuseRequest_inv inv' (letters object rfl).1 fine' settled
  | marriageCall market child object session =>
      refine handle_marriageCall_inv (taken rfl (by simp)).1 fun held fits => ?_
      obtain ⟨unapplied, unmarried, alone⟩ := settled held fits
      have weddings : (state.taken (.marriageCall market child object session)).mail.filterMap
          Message.wedding = state.mail.filterMap Message.wedding := filterMap_erase_of_none rfl _
      refine ⟨unapplied, unmarried, ?_⟩
      simpa only [State.Engaged, weddings] using alone
  | marriageReply child otherObject session =>
      cases otherObject with
      | none =>
          exact (taken rfl (by simp)).1
      | some otherObject =>
          obtain ⟨single, unapplied⟩ := fine
          have asked : state.roleDict (family.owner child) = some session := settled
          dsimp only [State.handle]
          rw [if_pos ⟨Option.some_ne_none _, asked⟩]
          have untimed : (state.child child).applyTime = none := by
            by_contra timed
            exact (inv.timed child timed).1 unapplied
          exact delivered_inv inv _ _ member rfl single rfl rfl rfl rfl untimed
  | marriage child object =>
      obtain ⟨single, applied, sex⟩ := fine
      dsimp only [State.handle, State.passiveMarriage]
      rw [if_pos ⟨single, applied, sex⟩]
      exact delivered_inv inv _ _ member rfl single rfl rfl rfl rfl rfl

end

theorem step_inv {after : State ρ κ} {label : Label ρ κ} (inv : Inv family state)
    (settled : Settled family state label) (taken : step family state label = some after) :
    Inv family after := by
  cases label with
  | login uuid =>
      simp only [step] at taken
      split at taken
      · cases taken
        exact role_inv inv _ _
      · cases taken
  | logout uuid =>
      cases taken
      exact role_inv inv _ _
  | grow child =>
      cases taken
      exact status_inv inv child _
  | marriageConfirmStatus child =>
      simp only [step] at taken
      split at taken
      · cases taken
        exact status_inv inv child _
      · cases taken
  | sendRequest child applyType uuid now =>
      obtain ⟨session, -, rfl⟩ := Option.map_eq_some_iff.mp taken
      exact sendRequest_inv inv settled
  | drivingCancelRequest child =>
      obtain ⟨session, -, rfl⟩ := Option.map_eq_some_iff.mp taken
      exact drivingCancelRequest_inv inv settled
  | drivingRefuseRequest uuid child =>
      obtain ⟨session, -, rfl⟩ := Option.map_eq_some_iff.mp taken
      exact drivingRefuseRequest_inv inv
  | drivingRefuseAllRequest uuid =>
      obtain ⟨session, -, rfl⟩ := Option.map_eq_some_iff.mp taken
      exact drivingRefuseAllRequest_inv inv
  | drivingMarriage child applyType object =>
      obtain ⟨session, -, rfl⟩ := Option.map_eq_some_iff.mp taken
      refine drivingMarriage_inv inv fun assigned => ?_
      subst assigned
      exact settled
  | deliver message =>
      simp only [step] at taken
      split at taken
      · rename_i possible
        cases taken
        exact deliver_inv inv settled possible.1
      · cases taken

end

theorem Inv.sound (inv : Inv family state) : Sound state := by
  have symmetric : state.mail = [] → ∀ child other,
      (state.child child).marry = some other → (state.child other).marry = some child := by
    intro delivered child other married
    have paired := inv.paired child other (.inl married)
    simpa [State.Couple, delivered] using paired
  refine ⟨fun delivered child other => ⟨symmetric delivered child other,
    symmetric delivered other child⟩, fun delivered child other spouse one two => ?_, inv.once,
    inv.live⟩
  have back := symmetric delivered child spouse one
  have back' := symmetric delivered other spouse two
  exact Option.some.inj (back.symm.trans back')

theorem initial_inv (childStatus : κ → ChildStatus) :
    Inv family (initial (ρ := ρ) childStatus) := by
  have nowhere : ∀ object place, ¬ (initial (ρ := ρ) childStatus).At object place := by
    intro object place
    cases place <;> simp [State.At, initial]
  have letters : Letters (initial (ρ := ρ) childStatus) :=
    ⟨fun object place other here => absurd here (nowhere object place),
      fun object place here => absurd here (nowhere object place), by simp [initial],
      by simp [initial], by simp [initial], by simp [initial]⟩
  refine ⟨letters, ?_, ?_, ?_, ?_, ?_, ?_, ?_, ?_, ?_, ?_, ?_⟩ <;>
    simp [initial, State.Couple]

end

/-- Roles with ten children each; those of the second role are women. -/
def tens : Family Nat Nat where
  owner child := child / 10
  sex child := if child / 10 = 2 then .woman else .man
  grade _ := 1
  serverId _ := 1

def adults : State Nat Nat :=
  initial fun _ => .adult

/-- A marriage of two roles, one on the market of their server, and a proposal that is cancelled on
the market of the cross server. -/
def settledRun : List (Label Nat Nat) :=
  [.login 1, .sendRequest 10 .assign (some 2) 0, .deliver (.receiveRequest 2 ⟨10, 1⟩ 1),
    .deliver (.requestReply 2 ⟨10, 1⟩ 1), .login 2, .deliver (.storedRequest 2 ⟨10, 1⟩),
    .drivingMarriage 20 .assign 10, .deliver (.marriage 10 20), .marriageConfirmStatus 10,
    .sendRequest 11 .service none 0, .deliver (.addObject (.service 1) ⟨11, 1⟩),
    .drivingMarriage 21 .service 11, .deliver (.marriageCall (.service 1) 11 21 2),
    .deliver (.marriageReply 21 (some 11) 2), .deliver (.marriage 11 21),
    .sendRequest 12 .cross none 0, .deliver (.addObject .cross ⟨12, 1⟩),
    .drivingCancelRequest 12, .deliver (.deleteObject .cross 12 1),
    .deliver (.deleteReply 12 (some ⟨12, 1⟩) 1)]

/-- A child accepts a proposal while the cancellation is on its way. -/
def crossingRun : List (Label Nat Nat) :=
  [.login 1, .login 2, .sendRequest 10 .assign (some 2) 0,
    .deliver (.receiveRequest 2 ⟨10, 1⟩ 1), .deliver (.requestReply 2 ⟨10, 1⟩ 1),
    .drivingCancelRequest 10, .drivingMarriage 20 .assign 10,
    .deliver (.cancelRequest 2 ⟨10, 1⟩), .deliver (.marriage 10 20)]

end UEServer.ChildMarry
