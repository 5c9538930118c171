import UEServer.Child.Letters

/-!
# What the messages of a proposal say

The children, the lists, the markets and the messages agree, and every change that is made in the
right place keeps this.
-/

namespace UEServer.ChildMarry

section
variable {ρ κ : Type*} [DecidableEq ρ] [DecidableEq κ]

/-- The role and the proposal of a message to a role that brings it one. -/
def Message.request : Message ρ κ → Option (ρ × Object κ)
  | .receiveRequest uuid object _ => some (uuid, object)
  | .storedRequest uuid object => some (uuid, object)
  | _ => none

/-- The child whose proposal to a role waits for the answer. -/
def Message.waiting : Message ρ κ → Option κ
  | .receiveRequest _ object _ => some object.child
  | .requestReply _ object _ => some object.child
  | _ => none

/-- A child has no proposal, no spouse, and none on its way. -/
def State.Free (state : State ρ κ) (child : κ) : Prop :=
  (state.child child).applyType = none ∧ (state.child child).marry = none ∧ ¬ state.Engaged child

instance (state : State ρ κ) (child : κ) : Decidable (state.Free child) :=
  inferInstanceAs (Decidable (_ ∧ _ ∧ _))

namespace State

variable (family : Family ρ κ)

/-- The proposal is the one of its child, for a market. -/
def Offers (state : State ρ κ) (market : Market) (object : Object κ) : Prop :=
  ∃ applyType target, state.proposal object.child = some (object.number, applyType, target) ∧
    family.market (family.owner object.child) applyType = some market

def Over (state : State ρ κ) (object : Object κ) : Prop :=
  object.number < (state.child object.child).number ∨
    (state.child object.child).applyType = none

/-- The proposal is the one of its child, for a role, or the role will hear that it is over. -/
def Requests (state : State ρ κ) (uuid : ρ) (object : Object κ) : Prop :=
  state.proposal object.child = some (object.number, .assign, some uuid) ∨
    .cancelRequest uuid object ∈ state.mail ∧ state.Over object

/-- The proposal is the one of its child, for some role, or it is over. -/
def Refused (state : State ρ κ) (object : Object κ) : Prop :=
  (∃ target, state.proposal object.child = some (object.number, .assign, target)) ∨
    state.Over object

/-- The child of the proposal waits for the answer of a role. -/
def Waits (state : State ρ κ) (uuid : ρ) (object : Object κ) : Prop :=
  object.number = (state.child object.child).number ∧
    (state.child object.child).target = some uuid ∧
    ((state.child object.child).marry ≠ none ∨
      (state.child object.child).applyType = some .assign ∧
        (state.child object.child).applyUuid = none)

/-- What a message says of its child. -/
def Fine (state : State ρ κ) : Message ρ κ → Prop
  | .addObject market object => state.Offers family market object
  | .receiveRequest uuid object _ => state.Requests uuid object ∧ state.Waits uuid object
  | .storedRequest uuid object => state.Requests uuid object
  | .requestReply uuid object _ => state.Waits uuid object
  | .deleteReply _ (some object) _ => ∃ market, state.Offers family market object
  | .refuseRequest object => state.Refused object
  | .marriageReply child (some _) _ =>
      (state.child child).marry = none ∧ (state.child child).applyType = none
  | .marriage child object =>
      (state.child child).marry = none ∧ (state.child child).applyType ≠ none ∧
        family.sex child ≠ family.sex object
  | _ => True

/-- A child has a spouse, or one is on its way to it. -/
def Couple (state : State ρ κ) (child other : κ) : Prop :=
  (state.child child).marry = some other ∨ (child, other) ∈ state.mail.filterMap Message.wedding

end State

/-- The child that a message is about. -/
def Message.subject : Message ρ κ → Option κ
  | .addObject _ object => some object.child
  | .receiveRequest _ object _ => some object.child
  | .storedRequest _ object => some object.child
  | .requestReply _ object _ => some object.child
  | .deleteReply _ object _ => object.map Object.child
  | .refuseRequest object => some object.child
  | .marriageReply child _ _ => some child
  | .marriage child _ => some child
  | _ => none

/-- The children, the messages, the lists and the markets agree. -/
structure Inv (family : Family ρ κ) (state : State ρ κ) : Prop where
  letters : Letters state
  fine : ∀ message ∈ state.mail, state.Fine family message
  listed : ∀ uuid, ∀ object ∈ state.proposeObjectList uuid, state.Requests uuid object
  offered : ∀ market child object, state.proposeObjectDict market child = some object →
    state.Offers family market object
  /-- A child with the time of a proposal has one and is not married. -/
  timed : ∀ child, (state.child child).applyTime ≠ none →
    (state.child child).applyType ≠ none ∧ (state.child child).marry = none
  addressed : ∀ child, (state.child child).marry = none → (state.child child).applyUuid ≠ none →
    (state.child child).applyType = some .assign ∧
      (state.child child).applyUuid = (state.child child).target
  waiting : (state.mail.filterMap Message.waiting).Nodup
  weddings : ((state.mail.filterMap Message.wedding).map Prod.fst).Nodup
  paired : ∀ child other, state.Couple child other → state.Couple other child
  once : (state.accepted.flatMap fun acceptance =>
    [acceptance.object.child, acceptance.child]).Nodup
  taken : ∀ acceptance ∈ state.accepted, ∀ child ∈ [acceptance.object.child, acceptance.child],
    (state.child child).marry ≠ none ∨ state.Engaged child
  live : ∀ acceptance ∈ state.accepted, acceptance.live = true

end

section
variable {ρ κ : Type*} [DecidableEq κ] {family : Family ρ κ} {state : State ρ κ}

theorem proposal_eq_some {child : κ} {number : Nat} {applyType : ChildSendRequest}
    {target : Option ρ} :
    state.proposal child = some (number, applyType, target) ↔
      ((state.child child).marry = none ∧ ¬ state.Engaged child) ∧
        (state.child child).applyType = some applyType ∧ (state.child child).number = number ∧
        (state.child child).target = target := by
  unfold State.proposal
  split
  · rename_i single
    rw [Option.map_eq_some_iff]
    constructor
    · rintro ⟨one, applied, same⟩
      obtain ⟨rfl, rfl, rfl⟩ := same
      exact ⟨single, applied, rfl, rfl⟩
    · rintro ⟨-, applied, rfl, rfl⟩
      exact ⟨applyType, applied, rfl⟩
  · rename_i taken
    simp [taken]

theorem proposal_congr {after : State ρ κ} {child : κ}
    (engaged : after.Engaged child ↔ state.Engaged child)
    (marry : (after.child child).marry = (state.child child).marry)
    (applyType : (after.child child).applyType = (state.child child).applyType)
    (number : (after.child child).number = (state.child child).number)
    (target : (after.child child).target = (state.child child).target) :
    after.proposal child = state.proposal child := by
  simp only [State.proposal, marry, engaged, applyType, number, target]

structure Same (state after : State ρ κ) (child : κ) : Prop where
  data : after.child child = state.child child
  engaged : after.Engaged child ↔ state.Engaged child

section
variable {after : State ρ κ} {object : Object κ}

theorem Same.proposal {child : κ} (same : Same state after child) :
    after.proposal child = state.proposal child := by
  apply proposal_congr <;> simp only [same.data, same.engaged]

section
variable (same : Same state after object.child)
include same

theorem Same.offers {market : Market} (offers : state.Offers family market object) :
    after.Offers family market object := by
  obtain ⟨applyType, target, current, served⟩ := offers
  exact ⟨applyType, target, same.proposal.trans current, served⟩

omit [DecidableEq κ] in
theorem Same.past (past : state.Over object) : after.Over object := by
  simpa only [State.Over, same.data] using past

theorem Same.requests {uuid : ρ}
    (cancels : .cancelRequest uuid object ∈ state.mail → .cancelRequest uuid object ∈ after.mail)
    (requests : state.Requests uuid object) : after.Requests uuid object := by
  rcases requests with current | ⟨cancelled, past⟩
  · exact .inl (same.proposal.trans current)
  · exact .inr ⟨cancels cancelled, same.past past⟩

theorem Same.refused (refused : state.Refused object) : after.Refused object := by
  rcases refused with ⟨target, current⟩ | past
  · exact .inl ⟨target, same.proposal.trans current⟩
  · exact .inr (same.past past)

omit [DecidableEq κ] in
theorem Same.waits {uuid : ρ} (waits : state.Waits uuid object) : after.Waits uuid object := by
  simpa only [State.Waits, same.data] using waits

end

theorem Same.fine {message : Message ρ κ} (same : ∀ child ∈ message.subject, Same state after child)
    (cancels : ∀ uuid object, message.request = some (uuid, object) →
      .cancelRequest uuid object ∈ state.mail → .cancelRequest uuid object ∈ after.mail)
    (fine : state.Fine family message) : after.Fine family message := by
  cases message with
  | addObject market object => exact (same _ rfl).offers fine
  | receiveRequest uuid object session =>
      exact ⟨(same _ rfl).requests (cancels uuid object rfl) fine.1, (same _ rfl).waits fine.2⟩
  | storedRequest uuid object => exact (same _ rfl).requests (cancels uuid object rfl) fine
  | requestReply uuid object session => exact (same _ rfl).waits fine
  | deleteObject market child session => trivial
  | deleteReply child object session =>
      cases object with
      | none => trivial
      | some object =>
          obtain ⟨market, offers⟩ := fine
          exact ⟨market, (same _ rfl).offers offers⟩
  | cancelRequest uuid object => trivial
  | refuseRequest object => exact (same _ rfl).refused fine
  | marriageCall market child object session => trivial
  | marriageReply child otherObject session =>
      cases otherObject with
      | none => trivial
      | some otherObject => simpa only [State.Fine, (same child rfl).data] using fine
  | marriage child object => simpa only [State.Fine, (same child rfl).data] using fine

end

section
variable {after : State ρ κ} {message : Message ρ κ} {object : Object κ}

/-- Messages and proposals move, and every child and its couples stay as they are. -/
theorem inv_of_moves (inv : Inv family state) (letters : Letters after)
    (child : after.child = state.child) (accepted : after.accepted = state.accepted)
    (weddings : after.mail.filterMap Message.wedding = state.mail.filterMap Message.wedding)
    (cancels : ∀ uuid object, ((∃ message ∈ after.mail, message.request = some (uuid, object)) ∨
      object ∈ after.proposeObjectList uuid) → .cancelRequest uuid object ∈ state.mail →
      .cancelRequest uuid object ∈ after.mail)
    (waiting : (after.mail.filterMap Message.waiting).Nodup)
    (fine : ∀ message ∈ after.mail, state.Fine family message)
    (listed : ∀ uuid, ∀ object ∈ after.proposeObjectList uuid, state.Requests uuid object)
    (offered : ∀ market child object, after.proposeObjectDict market child = some object →
      state.Offers family market object) : Inv family after := by
  have engaged : ∀ one, after.Engaged one ↔ state.Engaged one := by
    intro one
    simp only [State.Engaged, weddings]
  have same : ∀ one, Same state after one := fun one => ⟨congrFun child one, engaged one⟩
  refine ⟨letters, fun message member => ?_, fun uuid object member => ?_,
    fun market one object held => ?_, ?_, ?_, waiting, ?_, ?_, ?_, ?_, ?_⟩
  · exact Same.fine (fun one _ => same one)
      (fun uuid object named => cancels uuid object (.inl ⟨message, member, named⟩))
      (fine message member)
  · exact (same _).requests (cancels uuid object (.inr member)) (listed uuid object member)
  · exact (same _).offers (offered market one object held)
  · simpa only [child] using inv.timed
  · simpa only [child] using inv.addressed
  · simpa only [weddings] using inv.weddings
  · simpa only [State.Couple, child, weddings] using inv.paired
  · simpa only [accepted] using inv.once
  · simpa only [accepted, child, engaged] using inv.taken
  · simpa only [accepted] using inv.live

theorem send_inv (inv : Inv family state) (quiet : message.wedding = none)
    (fine : state.Fine family message)
    (fresh : ∀ object ∈ message.letter,
      state.Fresh object ∧ object.number ≤ (state.child object.child).number)
    (reply : ∀ child object session, message = .deleteReply child (some object) session →
      object.child = child)
    (alone : ∀ child ∈ message.waiting, child ∉ state.mail.filterMap Message.waiting) :
    Inv family (state.send [message]) := by
  refine inv_of_moves inv (letters_send inv.letters fresh reply) rfl rfl ?_
    (fun uuid object _ member => List.mem_append_left _ member) ?_ ?_ inv.listed inv.offered
  · simp [State.send, List.filterMap_append, quiet]
  · have waiting : (state.send [message]).mail.filterMap Message.waiting =
        state.mail.filterMap Message.waiting ++ message.waiting.toList := by
      cases named : message.waiting <;> simp [State.send, named]
    rw [waiting, List.nodup_append]
    refine ⟨inv.waiting, by cases message.waiting <;> simp, ?_⟩
    rintro child old child' new rfl
    exact alone child (Option.mem_toList.mp new) old
  · intro other member
    rcases List.mem_append.mp member with old | new
    · exact inv.fine other old
    · cases List.mem_singleton.mp new
      exact fine

theorem sendPlain_inv (inv : Inv family state) (quiet : message.wedding = none)
    (fine : state.Fine family message) (letter : message.letter = none)
    (waiting : message.waiting = none) : Inv family (state.send [message]) := by
  refine send_inv inv quiet fine (by simp [letter]) ?_ (by simp [waiting])
  rintro child object session rfl
  simp [Message.letter] at letter

end

section
variable [DecidableEq ρ] {message : Message ρ κ} {object : Object κ}

theorem filterMap_erase_of_none {β : Type*} {f : Message ρ κ → Option β}
    (none : f message = none) (mail : List (Message ρ κ)) :
    (mail.erase message).filterMap f = mail.filterMap f := by
  induction mail with
  | nil => rfl
  | cons head rest ih =>
      by_cases same : head = message
      · subst same
        simp [none]
      · rw [List.erase_cons_tail (by simpa using same)]
        simp only [List.filterMap_cons, ih]

section
variable (inv : Inv family state)
include inv

/-- A message that is neither a cancellation nor brings a spouse is taken. -/
theorem taken_inv (member : message ∈ state.mail) (quiet : message.wedding = none)
    (stays : ∀ uuid object, message ≠ .cancelRequest uuid object) :
    Inv family (state.taken message) ∧ (state.taken message).Fine family message ∧
      ∀ child ∈ message.waiting,
        child ∉ (state.taken message).mail.filterMap Message.waiting := by
  have perm := filterMap_erase_perm member Message.waiting
  have waiting := List.nodup_append.mp (perm.nodup_iff.mp inv.waiting)
  have weddings := filterMap_erase_of_none quiet state.mail
  have cancels : ∀ uuid object, .cancelRequest uuid object ∈ state.mail →
      .cancelRequest uuid object ∈ (state.taken message).mail := by
    intro uuid object there
    exact (List.mem_erase_of_ne (stays uuid object).symm).mpr there
  have same : ∀ child, Same state (state.taken message) child := by
    refine fun child => ⟨rfl, ?_⟩
    simp only [State.Engaged, State.taken, weddings]
  refine ⟨inv_of_moves inv (letters_taken inv.letters member).1 rfl rfl weddings
      (fun uuid object _ => cancels uuid object) waiting.2.1
      (fun other there => inv.fine other (List.mem_of_mem_erase there)) inv.listed inv.offered, ?_, ?_⟩
  · exact Same.fine (fun child _ => same child) (fun uuid object _ => cancels uuid object)
      (inv.fine message member)
  · intro child named there
    exact waiting.2.2 child (Option.mem_toList.mpr named) child there rfl

theorem sublist_inv {uuid : ρ} {objects : List (Object κ)}
    (kept : objects.Sublist (state.proposeObjectList uuid)) :
    Inv family (state.setList uuid objects) := by
  refine inv_of_moves inv (letters_sublist inv.letters kept).1 rfl rfl rfl (fun _ _ _ => id)
    inv.waiting inv.fine ?_ inv.offered
  intro other object member
  by_cases same : other = uuid
  · subst same
    have member : object ∈ objects := by simpa [State.setList] using member
    exact inv.listed other object (kept.subset member)
  · exact inv.listed other object
      (by simpa [State.setList, Function.update_of_ne same] using member)

theorem receive_inv {uuid : ρ} (fresh : state.Fresh object)
    (known : object.number ≤ (state.child object.child).number)
    (requests : state.Requests uuid object) : Inv family (state.receiveRequest uuid object) := by
  refine inv_of_moves inv (letters_receive inv.letters fresh known) rfl rfl rfl (fun _ _ _ => id)
    inv.waiting inv.fine ?_ inv.offered
  intro other one member
  by_cases same : other = uuid
  · subst same
    have member : one ∈ state.listWithout other object.child ++ [object] := by
      simpa [State.receiveRequest, State.setList] using member
    rcases List.mem_append.mp member with old | new
    · exact inv.listed other one (List.eraseP_sublist.subset old)
    · cases List.mem_singleton.mp new
      exact requests
  · exact inv.listed other one
      (by simpa [State.receiveRequest, State.setList, Function.update_of_ne same] using member)

omit [DecidableEq ρ] in
theorem delete_inv {market : Market} {child : κ} :
    Inv family (state.setDict market child none) := by
  refine inv_of_moves inv (letters_delete inv.letters).1 rfl rfl rfl (fun _ _ _ => id) inv.waiting
    inv.fine inv.listed ?_
  intro other one object held
  rw [setDict_apply] at held
  split at held
  · cases held
  · exact inv.offered other one object held

omit [DecidableEq ρ] in
theorem add_inv {market : Market} (fresh : state.Fresh object)
    (known : object.number ≤ (state.child object.child).number)
    (offers : state.Offers family market object) :
    Inv family (state.setDict market object.child (some object)) := by
  refine inv_of_moves inv (letters_add inv.letters fresh known) rfl rfl rfl (fun _ _ _ => id)
    inv.waiting inv.fine inv.listed ?_
  intro other one held there
  rw [setDict_apply] at there
  split at there
  · rename_i same
    obtain rfl := Option.some.inj there
    exact same.1 ▸ offers
  · exact inv.offered other one held there

end

end

section
variable {child : κ} {data : Child ρ κ}

variable {message : Message ρ κ}

omit [DecidableEq κ] in
theorem at_mail (member : message ∈ state.mail) {object : Object κ}
    (named : message.letter = some object) : state.At object .mail :=
  List.mem_filterMap.mpr ⟨message, member, named⟩

/-- What a message about a child says after a step, from what it says of its proposal. -/
theorem fine_of_parts {after : State ρ κ}
    (fine : state.Fine family message) (about : message.subject = some child)
    (offers : ∀ market object, message.letter = some object → object.child = child →
      state.Offers family market object → after.Offers family market object)
    (requests : ∀ uuid object, message.letter = some object → object.child = child →
      state.Requests uuid object → after.Requests uuid object)
    (refused : ∀ object, message.letter = some object → object.child = child →
      state.Refused object → after.Refused object)
    (waits : ∀ uuid object, message.waiting = some child → object.child = child →
      state.Waits uuid object → after.Waits uuid object)
    (wedding : ∀ other, message.wedding = some (child, other) → after.Fine family message) :
    after.Fine family message := by
  cases message with
  | addObject market object => exact offers market object rfl (Option.some.inj about) fine
  | receiveRequest uuid object session =>
      have same := Option.some.inj about
      exact ⟨requests uuid object rfl same fine.1, waits uuid object about same fine.2⟩
  | storedRequest uuid object => exact requests uuid object rfl (Option.some.inj about) fine
  | requestReply uuid object session =>
      exact waits uuid object about (Option.some.inj about) fine
  | deleteObject market one session => trivial
  | deleteReply one object session =>
      cases object with
      | none => trivial
      | some object =>
          obtain ⟨market, offer⟩ := fine
          exact ⟨market, offers market object rfl (Option.some.inj about) offer⟩
  | cancelRequest uuid object => trivial
  | refuseRequest object => exact refused object rfl (Option.some.inj about) fine
  | marriageCall market one object session => trivial
  | marriageReply one otherObject session =>
      cases otherObject with
      | none => trivial
      | some otherObject =>
          cases about
          exact wedding otherObject rfl
  | marriage one object =>
      cases about
      exact wedding object rfl

omit [DecidableEq κ] in
theorem engaged_of_wedding (member : message ∈ state.mail) {other : κ}
    (wedding : message.wedding = some (child, other)) : state.Engaged child :=
  List.mem_map.mpr ⟨(child, other), List.mem_filterMap.mpr ⟨message, member, wedding⟩, rfl⟩

section
variable (inv : Inv family state)
include inv

theorem inv_of_child (marry : data.marry = (state.child child).marry)
    (number : (state.child child).number ≤ data.number)
    (fine : ∀ message ∈ state.mail, message.subject = some child → (state.setChild child data).Fine family message)
    (listed : ∀ uuid, ∀ object ∈ state.proposeObjectList uuid, object.child = child → (state.setChild child data).Requests uuid object)
    (offered : ∀ market object, state.proposeObjectDict market child = some object → (state.setChild child data).Offers family market object)
    (timed : data.applyTime ≠ none → data.applyType ≠ none ∧ data.marry = none)
    (addressed : data.marry = none → data.applyUuid ≠ none → data.applyType = some .assign ∧ data.applyUuid = data.target)
    :
    Inv family (state.setChild child data) := by
  have self : (state.setChild child data).child child = data := Function.update_self ..
  have others : ∀ one, one ≠ child → (state.setChild child data).child one = state.child one :=
    fun one different => Function.update_of_ne different ..
  have same : ∀ one, one ≠ child → Same state (state.setChild child data) one :=
    fun one different => ⟨others one different, Iff.rfl⟩
  have marries : ∀ one,
      ((state.setChild child data).child one).marry = (state.child one).marry := by
    intro one
    by_cases here : one = child
    · subst here
      rw [self, marry]
    · rw [others one here]
  refine ⟨letters_child inv.letters fun one => ?_, fun message member => ?_,
    fun uuid object member => ?_, fun market one object held => ?_, fun one => ?_, fun one => ?_,
    inv.waiting, inv.weddings, ?_, inv.once, ?_, inv.live⟩
  · by_cases here : one = child
    · subst here
      simpa using number
    · simp [Function.update_of_ne here]
  · by_cases here : message.subject = some child
    · exact fine message member here
    · exact Same.fine (fun one named => same one fun there => here (there ▸ named))
        (fun _ _ _ => id) (inv.fine message member)
  · by_cases here : object.child = child
    · exact listed uuid object member here
    · exact (same _ here).requests id (inv.listed uuid object member)
  · by_cases here : one = child
    · subst here
      exact offered market object held
    · have there := inv.letters.dict market one object held
      exact (same _ (there.symm ▸ here)).offers (inv.offered market one object held)
  · by_cases here : one = child
    · subst here
      rwa [self]
    · rw [others one here]
      exact inv.timed one
  · by_cases here : one = child
    · subst here
      rwa [self]
    · rw [others one here]
      exact inv.addressed one
  · intro one other
    have paired := inv.paired one other
    unfold State.Couple at *
    rw [marries, marries]
    exact paired
  · intro acceptance member one part
    rw [marries]
    exact inv.taken acceptance member one part

/-- A child without a proposal and a spouse gets a proposal, which nobody has heard of. -/
theorem request_inv (applied : (state.child child).applyType = none)
    (single : (state.child child).marry = none) (free : ¬ state.Engaged child)
    (applyType : ChildSendRequest) (now : Int) (target : Option ρ) :
    Inv family (state.setChild child
      { state.child child with
        applyType := some applyType
        applyTime := some now
        number := (state.child child).number + 1
        target := target }) := by
  have none_current : ∀ number ty role, state.proposal child ≠ some (number, ty, role) := by
    intro number ty role current
    have kept := (proposal_eq_some.mp current).2.1
    rw [applied] at kept
    cases kept
  have unaddressed : (state.child child).applyUuid = none := by
    by_contra some
    have sent := (inv.addressed child single some).1
    rw [applied] at sent
    cases sent
  have past : ∀ object place, state.At object place → object.child = child →
      (state.setChild child
        { state.child child with
          applyType := some applyType
          applyTime := some now
          number := (state.child child).number + 1
          target := target }).Over object := by
    rintro object place here rfl
    refine .inl ?_
    have known := inv.letters.known object place here
    simp only [State.setChild, Function.update_self]
    omega
  refine inv_of_child inv rfl (Nat.le_succ _) (fun message member about => ?_) ?_ ?_
    (fun _ => ⟨by simp, single⟩) fun _ some => absurd unaddressed some
  · refine fine_of_parts (inv.fine message member) about ?_ ?_ ?_ ?_ ?_
    · rintro market object - rfl ⟨ty, role, current, -⟩
      exact absurd current (none_current _ _ _)
    · rintro uuid object named rfl (current | ⟨cancelled, -⟩)
      · exact absurd current (none_current _ _ _)
      · exact .inr ⟨cancelled, past object .mail (at_mail member named) rfl⟩
    · rintro object named rfl -
      exact .inr (past object .mail (at_mail member named) rfl)
    · rintro uuid object - rfl ⟨-, -, married | ⟨sent, -⟩⟩
      · exact absurd single married
      · rw [applied] at sent
        cases sent
    · intro other wedding
      exact absurd (engaged_of_wedding member wedding) free
  · rintro uuid object member rfl
    rcases inv.listed uuid object member with current | ⟨cancelled, -⟩
    · exact absurd current (none_current _ _ _)
    · exact .inr ⟨cancelled, past object (.list uuid) member rfl⟩
  · intro market object held
    obtain ⟨ty, role, current, -⟩ := inv.offered market child object held
    rw [inv.letters.dict market child object held] at current
    exact absurd current (none_current _ _ _)

theorem detail_inv (marry : data.marry = (state.child child).marry)
    (applyType : data.applyType = (state.child child).applyType)
    (number : data.number = (state.child child).number)
    (target : data.target = (state.child child).target)
    (alone : data.applyUuid = (state.child child).applyUuid ∨ child ∉ state.mail.filterMap Message.waiting)
    (timed : data.applyTime ≠ none → data.applyType ≠ none ∧ data.marry = none)
    (addressed : data.marry = none → data.applyUuid ≠ none → data.applyType = some .assign ∧ data.applyUuid = data.target)
    :
    Inv family (state.setChild child data) := by
  have self : (state.setChild child data).child child = data := Function.update_self ..
  have others : ∀ one, one ≠ child → (state.setChild child data).child one = state.child one :=
    fun one different => Function.update_of_ne different ..
  have proposal : ∀ one, (state.setChild child data).proposal one = state.proposal one := by
    intro one
    by_cases here : one = child
    · subst here
      refine proposal_congr Iff.rfl ?_ ?_ ?_ ?_ <;> rw [self] <;> assumption
    · exact Same.proposal ⟨others one here, Iff.rfl⟩
  have past : ∀ one, state.Over one → (state.setChild child data).Over one := by
    intro one past
    by_cases here : one.child = child
    · simpa only [State.Over, here, self, number, applyType] using past
    · simpa only [State.Over, others _ here] using past
  have requests : ∀ uuid object, state.Requests uuid object →
      (state.setChild child data).Requests uuid object := by
    rintro uuid object (current | ⟨cancelled, done⟩)
    · exact .inl ((proposal _).trans current)
    · exact .inr ⟨cancelled, past object done⟩
  refine inv_of_child inv marry (Nat.le_of_eq number.symm) (fun message member about => ?_)
    (fun uuid object member _ => requests uuid object (inv.listed uuid object member)) ?_ timed
    addressed
  · refine fine_of_parts (inv.fine message member) about ?_
      (fun uuid object _ _ => requests uuid object) ?_ ?_ ?_
    · rintro market object - - ⟨ty, role, current, served⟩
      exact ⟨ty, role, (proposal _).trans current, served⟩
    · rintro object - - (⟨role, current⟩ | done)
      · exact .inl ⟨role, (proposal _).trans current⟩
      · exact .inr (past object done)
    · rintro uuid object waiting rfl waits
      rcases alone with applyUuid | alone
      · simpa only [State.Waits, self, marry, applyType, number, target, applyUuid] using waits
      · exact absurd (List.mem_filterMap.mpr ⟨message, member, waiting⟩) alone
    · intro other wedding
      have fine := inv.fine message member
      cases message with
      | marriageReply one otherObject session =>
          cases otherObject with
          | none => trivial
          | some otherObject =>
              cases about
              simpa only [State.Fine, self, marry, applyType] using fine
      | marriage one bride =>
          cases about
          simpa only [State.Fine, self, marry, applyType] using fine
      | _ => cases wedding
  · intro market object held
    obtain ⟨ty, role, current, served⟩ := inv.offered market _ object held
    exact ⟨ty, role, (proposal _).trans current, served⟩

theorem answered_inv {uuid : ρ} {object : Object κ} (waits : state.Waits uuid object)
    (alone : object.child ∉ state.mail.filterMap Message.waiting) :
    Inv family (state.setChild object.child
      { state.child object.child with applyUuid := some uuid }) := by
  refine detail_inv inv rfl rfl rfl rfl (.inr alone) (inv.timed object.child) fun single _ => ?_
  rcases waits.2.2 with married | ⟨sent, -⟩
  · exact absurd single married
  · exact ⟨sent, waits.2.1.symm⟩

theorem clear_inv (single : (state.child child).marry = none) (free : ¬ state.Engaged child)
    (silent : ∀ uuid object, object.child = child → ¬ state.Waits uuid object)
    (unoffered : ∀ market object place, state.At object place → object.child = child → ¬ state.Offers family market object)
    (cancelled : ∀ uuid object place, state.At object place → object.child = child → state.proposal child = some (object.number, .assign, some uuid) → .cancelRequest uuid object ∈ state.mail)
    (marry : data.marry = (state.child child).marry)
    (number : data.number = (state.child child).number) (applyType : data.applyType = none)
    (applyTime : data.applyTime = none) (applyUuid : data.applyUuid = none) :
    Inv family (state.setChild child data) := by
  have past : ∀ object, object.child = child → (state.setChild child data).Over object := by
    rintro object rfl
    simp [State.Over, State.setChild, applyType]
  have requests : ∀ uuid object place, state.At object place → object.child = child →
      state.Requests uuid object → (state.setChild child data).Requests uuid object := by
    rintro uuid object place here same (current | ⟨sent, -⟩)
    · exact .inr ⟨cancelled uuid object place here same (same ▸ current), past object same⟩
    · exact .inr ⟨sent, past object same⟩
  refine inv_of_child inv marry (Nat.le_of_eq number.symm) (fun message member about => ?_) ?_ ?_
    (fun timed => absurd applyTime timed) fun _ addressed => absurd applyUuid addressed
  · refine fine_of_parts (inv.fine message member) about ?_ ?_ ?_ ?_ ?_
    · intro market object named same offers
      exact absurd offers (unoffered market object .mail (at_mail member named) same)
    · intro uuid object named same
      exact requests uuid object .mail (at_mail member named) same
    · intro object _ same _
      exact .inr (past object same)
    · intro uuid object _ same waits
      exact absurd waits (silent uuid object same)
    · intro other wedding
      exact absurd (engaged_of_wedding member wedding) free
  · intro uuid object member same
    exact requests uuid object (.list uuid) member same (inv.listed uuid object member)
  · intro market object held
    have same := inv.letters.dict market child object held
    refine absurd (inv.offered market child object held)
      (unoffered market object (.market market) ?_ same)
    simpa only [State.At, same] using held

theorem clear_fresh_inv {object : Object κ} (here : object.child = child)
    (fresh : state.Fresh object) (current : object.number = (state.child child).number)
    (single : (state.child child).marry = none) (free : ¬ state.Engaged child)
    (silent : ∀ uuid one, one.child = child → ¬ state.Waits uuid one)
    (marry : data.marry = (state.child child).marry)
    (number : data.number = (state.child child).number) (applyType : data.applyType = none)
    (applyTime : data.applyTime = none) (applyUuid : data.applyUuid = none) :
    Inv family (state.setChild child data) := by
  have unplaced : ∀ one place ty role, state.At one place → one.child = child →
      state.proposal child ≠ some (one.number, ty, role) := by
    intro one place ty role there same proposed
    have last := (proposal_eq_some.mp proposed).2.2.1
    obtain rfl : one = object := by
      cases one
      cases object
      simp_all
    exact fresh place there
  refine clear_inv inv single free silent ?_ ?_ marry number applyType applyTime applyUuid
  · rintro market one place there same ⟨ty, role, proposed, -⟩
    exact unplaced one place ty role there same (same ▸ proposed)
  · intro uuid one place there same proposed
    exact absurd proposed (unplaced one place _ _ there same)

end

end

section
variable {child : κ} {object : Object κ}

theorem live_iff : state.Live object ↔ ∃ applyType target,
    state.proposal object.child = some (object.number, applyType, target) := by
  unfold State.Live
  rw [Option.map_eq_some_iff]
  constructor
  · rintro ⟨⟨number, applyType, target⟩, current, rfl⟩
    exact ⟨applyType, target, current⟩
  · rintro ⟨applyType, target, current⟩
    exact ⟨_, current, rfl⟩

theorem object_eq_of_proposal {one : Object κ} (live : state.Live object)
    (same : one.child = object.child) {number : Nat} {applyType : ChildSendRequest}
    {target : Option ρ} (current : state.proposal one.child = some (number, applyType, target))
    (named : number = one.number) : one = object := by
  obtain ⟨ty, goal, proposed⟩ := live_iff.mp live
  cases one
  cases object
  simp_all

/-- A child that is free accepts a proposal that has left its place, and both will hear of it. -/
theorem wed_inv (inv : Inv family state) (fresh : state.Fresh object) (live : state.Live object)
    (free : state.Free child) (different : object.child ≠ child)
    (sex : family.sex object.child ≠ family.sex child) (session : Nat) :
    Inv family
      { state.send [.marriage object.child child,
          .marriageReply child (some object.child) session] with
        accepted := state.accepted ++ [{ object := object, child := child, live := true }] } := by
  obtain ⟨ty, goal, proposed⟩ := live_iff.mp live
  obtain ⟨⟨single, unengaged⟩, applied, -, -⟩ := proposal_eq_some.mp proposed
  obtain ⟨unapplied, unmarried, alone⟩ := free
  generalize made : ({ state.send [.marriage object.child child,
      .marriageReply child (some object.child) session] with
        accepted := state.accepted ++ [{ object := object, child := child, live := true }] } :
      State ρ κ) = after
  have data : after.child = state.child := by rw [← made]; rfl
  have mail : after.mail = state.mail ++
      [.marriage object.child child, .marriageReply child (some object.child) session] := by
    rw [← made]
    rfl
  have weddings : after.mail.filterMap Message.wedding = state.mail.filterMap Message.wedding ++
      [(object.child, child), (child, object.child)] := by
    simp [mail, Message.wedding]
  have letterMail : after.mail.filterMap Message.letter = state.mail.filterMap Message.letter := by
    simp [mail, Message.letter]
  have waitingMail : after.mail.filterMap Message.waiting =
      state.mail.filterMap Message.waiting := by
    simp [mail, Message.waiting]
  have engaged : ∀ one, after.Engaged one ↔
      state.Engaged one ∨ one = object.child ∨ one = child := by
    simp [State.Engaged, weddings]
  have same : ∀ one, one ≠ object.child → one ≠ child → Same state after one :=
    fun one other different => ⟨congrFun data one, by simp [engaged, other, different]⟩
  have past : ∀ one, state.Over one → after.Over one := by
    intro one past
    simpa only [State.Over, data] using past
  have keep : ∀ one place, state.At one place → ∀ applyType target,
      state.proposal one.child = some (one.number, applyType, target) →
        Same state after one.child := by
    intro one place here applyType target current
    refine same _ (fun there => ?_) fun there => ?_
    · obtain rfl := object_eq_of_proposal live there current rfl
      exact fresh place here
    · have held := (proposal_eq_some.mp current).2.1
      rw [there, unapplied] at held
      cases held
  have requests : ∀ uuid one place, state.At one place → state.Requests uuid one →
      after.Requests uuid one := by
    rintro uuid one place here (current | ⟨cancelled, done⟩)
    · exact .inl ((keep one place here _ _ current).proposal.trans current)
    · exact .inr ⟨mail ▸ List.mem_append_left _ cancelled, past one done⟩
  have old : ∀ message ∈ state.mail, after.Fine family message := by
    intro message member
    have fine := inv.fine message member
    cases about : message.subject with
    | none =>
        exact Same.fine (by simp [about])
          (fun _ _ _ there => mail ▸ List.mem_append_left _ there) fine
    | some one =>
        refine fine_of_parts fine about ?_ (fun uuid o named _ => requests uuid o _
          (at_mail member named)) ?_ ?_ ?_
        · rintro market o named - offers
          obtain ⟨applyType, target, current, -⟩ := id offers
          exact (keep o _ (at_mail member named) _ _ current).offers offers
        · rintro o named - (⟨target, current⟩ | done)
          · have same := keep o _ (at_mail member named) _ _ current
            exact .inl ⟨target, same.proposal.trans current⟩
          · exact .inr (past o done)
        · intro uuid o _ _ waits
          simpa only [State.Waits, data] using waits
        · intro other wedding
          cases message with
          | marriage bride groom => simpa only [State.Fine, data] using fine
          | marriageReply groom bride session =>
              cases bride with
              | none => trivial
              | some bride => simpa only [State.Fine, data] using fine
          | _ => cases wedding
  have lists : after.proposeObjectList = state.proposeObjectList := by rw [← made]; rfl
  have dicts : after.proposeObjectDict = state.proposeObjectDict := by rw [← made]; rfl
  have accepted : after.accepted =
      state.accepted ++ [{ object := object, child := child, live := true }] := by rw [← made]
  have letters : Letters after := by
    refine letters_move inv.letters (fun _ => False) .mail (fun o place here => .inl ⟨?_, id⟩)
      (fun one => Nat.le_of_eq (by rw [data])) (fun _ => False.elim)
      (by rw [letterMail]; exact inv.letters.nodup)
      (by rw [lists]; exact inv.letters.single) (by rw [dicts]; exact inv.letters.dict) ?_
    · cases place with
      | mail => simpa only [State.At, letterMail] using here
      | list uuid => simpa only [State.At, lists] using here
      | market market => simpa only [State.At, dicts] using here
    · intro one o session member
      refine inv.letters.reply one o session ?_
      simpa [mail] using member
  have couple : ∀ one other, after.Couple one other ↔ state.Couple one other ∨
      one = object.child ∧ other = child ∨ one = child ∧ other = object.child := by
    simp [State.Couple, weddings, data, or_assoc]
  have newcomer : ∀ acceptance ∈ state.accepted,
      ∀ one ∈ [acceptance.object.child, acceptance.child], one ≠ object.child ∧ one ≠ child := by
    intro acceptance member one part
    rcases inv.taken acceptance member one part with married | betrothed
    · exact ⟨fun here => married (here ▸ single), fun here => married (here ▸ unmarried)⟩
    · exact ⟨fun here => unengaged (here ▸ betrothed), fun here => alone (here ▸ betrothed)⟩
  refine ⟨letters, fun message member => ?_, ?_, ?_, ?_, ?_, ?_, ?_, fun one other => ?_, ?_, ?_,
    ?_⟩
  · rw [mail] at member
    rcases List.mem_append.mp member with there | there
    · exact old message there
    · rcases List.mem_pair.mp there with rfl | rfl
      · refine ⟨?_, ?_, sex⟩
        · rw [data, single]
        · rw [data, applied]
          simp
      · refine ⟨?_, ?_⟩
        · rw [data, unmarried]
        · rw [data, unapplied]
  · rw [lists]
    exact fun uuid o member => requests uuid o (.list uuid) member (inv.listed uuid o member)
  · rw [dicts]
    intro market one o held
    have here : state.At o (.market market) := by
      simpa only [State.At, inv.letters.dict market one o held] using held
    obtain ⟨applyType, target, current, served⟩ := inv.offered market one o held
    exact ⟨applyType, target, (keep o _ here _ _ current).proposal.trans current, served⟩
  · simpa only [data] using inv.timed
  · simpa only [data] using inv.addressed
  · rw [waitingMail]
    exact inv.waiting
  · rw [weddings, List.map_append, List.nodup_append]
    refine ⟨inv.weddings, by simpa using different, ?_⟩
    rintro one there one' new rfl
    have betrothed : state.Engaged one := there
    have here : one = object.child ∨ one = child := by simpa using new
    rcases here with rfl | rfl
    · exact unengaged betrothed
    · exact alone betrothed
  · rw [couple, couple]
    rintro (there | ⟨rfl, rfl⟩ | ⟨rfl, rfl⟩)
    · exact .inl (inv.paired one other there)
    · exact .inr (.inr ⟨rfl, rfl⟩)
    · exact .inr (.inl ⟨rfl, rfl⟩)
  · rw [accepted, List.flatMap_append, List.nodup_append]
    refine ⟨inv.once, by simpa using different, ?_⟩
    rintro one there one' new rfl
    obtain ⟨acceptance, member, part⟩ := List.mem_flatMap.mp there
    have apart := newcomer acceptance member one part
    have here : one = object.child ∨ one = child := by simpa using new
    exact here.elim apart.1 apart.2
  · rw [accepted]
    intro acceptance member one part
    rw [data, engaged]
    rcases List.mem_append.mp member with there | there
    · exact (inv.taken acceptance there one part).imp_right .inl
    · cases List.mem_singleton.mp there
      exact .inr (.inr (List.mem_pair.mp part))
  · rw [accepted]
    intro acceptance member
    rcases List.mem_append.mp member with there | there
    · exact inv.live acceptance there
    · cases List.mem_singleton.mp there
      rfl

end

section
variable [DecidableEq ρ] {child : κ}

theorem delivered_inv (inv : Inv family state) (message : Message ρ κ) (data : Child ρ κ)
    (member : message ∈ state.mail) {other : κ} (wedding : message.wedding = some (child, other))
    (single : (state.child child).marry = none) (marry : data.marry = some other)
    (number : data.number = (state.child child).number)
    (applyType : data.applyType = (state.child child).applyType)
    (target : data.target = (state.child child).target) (applyTime : data.applyTime = none) :
    Inv family ((state.taken message).setChild child data) := by
  have stays : ∀ uuid object, message ≠ .cancelRequest uuid object := by
    rintro uuid object rfl
    cases wedding
  have quiet : message.letter = none ∧ message.waiting = none := by
    cases message with
    | marriage bride groom => exact ⟨rfl, rfl⟩
    | marriageReply groom bride session => exact ⟨rfl, rfl⟩
    | _ => cases wedding
  have perm := filterMap_erase_perm member Message.wedding
  simp only [wedding, Option.toList_some, List.singleton_append] at perm
  have keys := (perm.map Prod.fst).nodup_iff.mp inv.weddings
  rw [List.map_cons, List.nodup_cons] at keys
  generalize made : (state.taken message).setChild child data = after
  have self : after.child child = data := by simp [← made, State.setChild]
  have others : ∀ one, one ≠ child → after.child one = state.child one := by
    intro one different
    simp [← made, State.setChild, State.taken, Function.update_of_ne different]
  have mail : after.mail = state.mail.erase message := by rw [← made]; rfl
  have engaged : ∀ one, one ≠ child → (after.Engaged one ↔ state.Engaged one) := by
    intro one different
    simp only [State.Engaged, mail, (perm.map Prod.fst).mem_iff, List.map_cons, List.mem_cons,
      different, false_or]
  have same : ∀ one, one ≠ child → Same state after one :=
    fun one different => ⟨others one different, engaged one different⟩
  have betrothed : state.Engaged child := engaged_of_wedding member wedding
  have past : ∀ object, state.Over object → after.Over object := by
    intro object past
    by_cases here : object.child = child
    · simpa only [State.Over, here, self, number, applyType] using past
    · simpa only [State.Over, others _ here] using past
  have cancels : ∀ uuid object, .cancelRequest uuid object ∈ state.mail →
      .cancelRequest uuid object ∈ after.mail := by
    intro uuid object there
    rw [mail]
    exact (List.mem_erase_of_ne (stays uuid object).symm).mpr there
  have requests : ∀ uuid object, state.Requests uuid object → after.Requests uuid object := by
    rintro uuid object (current | ⟨cancelled, done⟩)
    · have here : object.child ≠ child :=
        fun here => (proposal_eq_some.mp current).1.2 (here ▸ betrothed)
      exact .inl ((same _ here).proposal.trans current)
    · exact .inr ⟨cancels uuid object cancelled, past object done⟩
  have offers : ∀ market object, state.Offers family market object →
      after.Offers family market object := by
    rintro market object ⟨ty, role, current, served⟩
    have here : object.child ≠ child :=
      fun here => (proposal_eq_some.mp current).1.2 (here ▸ betrothed)
    exact ⟨ty, role, (same _ here).proposal.trans current, served⟩
  have couple : ∀ one two, after.Couple one two ↔ state.Couple one two := by
    intro one two
    unfold State.Couple
    rw [perm.mem_iff, mail]
    by_cases here : one = child
    · subst here
      have fresh : (one, two) ∉ (state.mail.erase message).filterMap Message.wedding :=
        fun there => keys.1 (List.mem_map.mpr ⟨_, there, rfl⟩)
      simp [self, marry, single, fresh, eq_comm]
    · simp [others one here, here]
  have letters : Letters after := by
    rw [← made]
    refine letters_child (letters_taken inv.letters member).1 fun one => ?_
    by_cases here : one = child
    · subst here
      simp [State.taken, number]
    · simp [State.taken, Function.update_of_ne here]
  have lists : after.proposeObjectList = state.proposeObjectList := by rw [← made]; rfl
  have dicts : after.proposeObjectDict = state.proposeObjectDict := by rw [← made]; rfl
  have accepted : after.accepted = state.accepted := by rw [← made]; rfl
  refine ⟨letters, fun one there => ?_, ?_, ?_, fun one => ?_, fun one => ?_, ?_, ?_,
    fun one two => ?_, ?_, ?_, ?_⟩
  · rw [mail] at there
    have old := List.mem_of_mem_erase there
    by_cases about : one.subject = some child
    · refine fine_of_parts (inv.fine one old) about (fun market object _ _ => offers market object)
        (fun uuid object _ _ => requests uuid object) ?_ ?_ ?_
      · rintro object - rfl (⟨role, current⟩ | done)
        · exact absurd betrothed (proposal_eq_some.mp current).1.2
        · exact .inr (past object done)
      · rintro uuid object - rfl ⟨last, role, -⟩
        refine ⟨?_, ?_, .inl ?_⟩ <;> rw [self]
        · rw [number, last]
        · rw [target, role]
        · simp [marry]
      · intro spouse again
        refine absurd (List.mem_map.mpr ⟨(child, spouse), ?_, rfl⟩) keys.1
        exact List.mem_filterMap.mpr ⟨one, there, again⟩
    · exact Same.fine (fun c named => same c fun here => about (here ▸ named))
        (fun uuid object _ => cancels uuid object) (inv.fine one old)
  · rw [lists]
    exact fun uuid object there => requests uuid object (inv.listed uuid object there)
  · rw [dicts]
    exact fun market one object held => offers market object (inv.offered market one object held)
  · by_cases here : one = child
    · rw [here, self]
      exact fun timed => absurd applyTime timed
    · rw [others one here]
      exact inv.timed one
  · by_cases here : one = child
    · rw [here, self, marry]
      intro none
      cases none
    · rw [others one here]
      exact inv.addressed one
  · rw [mail, filterMap_erase_of_none quiet.2]
    exact inv.waiting
  · rw [mail]
    exact keys.2
  · rw [couple, couple]
    exact inv.paired one two
  · rw [accepted]
    exact inv.once
  · rw [accepted]
    intro acceptance there one part
    by_cases here : one = child
    · rw [here, self, marry]
      exact .inl (by simp)
    · rw [others one here, engaged one here]
      exact inv.taken acceptance there one part
  · rw [accepted]
    exact inv.live

theorem cancelled_inv (inv : Inv family state) {uuid : ρ} {object : Object κ}
    (member : .cancelRequest uuid object ∈ state.mail)
    (settled : ∀ message ∈ state.mail, message.request ≠ some (uuid, object)) :
    Inv family ((state.taken (.cancelRequest uuid object)).setList uuid
      (state.listWithout uuid object.child)) := by
  have kept : (state.listWithout uuid object.child).Sublist (state.proposeObjectList uuid) :=
    List.eraseP_sublist
  have letters := letters_taken inv.letters member
  refine inv_of_moves inv (letters_sublist letters.1 kept).1 rfl rfl
    (filterMap_erase_of_none rfl _) ?_ ?_ (fun message there =>
      inv.fine message (List.mem_of_mem_erase there)) ?_ inv.offered
  · intro other one asked there
    refine (List.mem_erase_of_ne ?_).mpr there
    rintro ⟨⟩
    rcases asked with ⟨message, there, named⟩ | there
    · exact settled message (List.mem_of_mem_erase there) named
    · have there : object ∈ state.listWithout uuid object.child := by
        simpa [State.setList] using there
      exact child_ne_of_mem_eraseP (inv.letters.single uuid) there rfl
  · have waiting : (state.taken (.cancelRequest uuid object)).mail.filterMap Message.waiting =
        state.mail.filterMap Message.waiting := filterMap_erase_of_none rfl _
    simpa only [State.setList, waiting] using inv.waiting
  · intro other one there
    by_cases same : other = uuid
    · subst same
      have there : one ∈ state.listWithout other object.child := by
        simpa [State.setList] using there
      exact inv.listed other one (kept.subset there)
    · exact inv.listed other one
        (by simpa [State.setList, State.taken, Function.update_of_ne same] using there)

end

end

end UEServer.ChildMarry
