import Mathlib
import UEServer.RoleMail.Basic

/-!
# Attachments are given once

A mail's attachments are marked before they are given, the mark stays as long as the mail, and no two
mails ever have the same guid.  The invariant speaks of what has been given and of what a claim has
collected to give at its end.
-/

namespace UEServer.RoleMail

variable {τ : Type*} {env : Env} {state after : State τ} {mailGuid : String} {earlier : List String}

/-- A mail that is removed has passed its deadline, was deleted by itself, or has no attachments that
have not been claimed. -/
def Removal.Lawful (claimed : List String) (removal : Removal τ) : Prop :=
  removal.cause = .deadline ∧ removal.mail.deadlineTs ≤ removal.second ∨ removal.cause = .deleted ∨
    removal.mail.itemList = none ∨ removal.mail.mailGuid ∈ claimed

/-- Attachments are given once, counting those that had been claimed earlier, and no mail is removed
that still has some to be claimed. -/
structure Good (earlier : List String) (state : State τ) : Prop where
  /-- The attachments of a mail are given at most once. -/
  once : (earlier ++ state.given.map Prod.fst).Nodup
  received : state.received = state.given.flatMap Prod.snd
  lawful : ∀ removal ∈ state.removed, removal.Lawful state.claimed

/-- The guid has been made by `new_guid` and `rand_string(5)`. -/
def Made (number : ℕ) (mailGuid : String) : Prop :=
  ∃ made ≤ number, ∃ rand : String, rand.length = 5 ∧ mailGuid = toString made ++ rand

/-- A mailbox: the mails have guids of their own, and nothing has been given or removed yet.  What is
marked has been claimed earlier. -/
structure Started (state : State τ) : Prop where
  keyed : ∀ mailGuid mail, state.mailDict mailGuid = some mail → mail.mailGuid = mailGuid
  made : ∀ mailGuid, (state.mailDict mailGuid).isSome → Made state.guid mailGuid
  timers : ∀ mailGuid, state.deadlineTimerDict mailGuid = none
  marked : ∀ mailGuid mail, state.mailDict mailGuid = some mail → mail.isGetItem = true →
    mailGuid ∈ state.claimed
  spent : ∀ mailGuid ∈ state.claimed, ∀ mail, state.mailDict mailGuid = some mail →
    mail.isGetItem = true
  claimed_made : ∀ mailGuid ∈ state.claimed, Made state.guid mailGuid
  nodup : state.claimed.Nodup
  received : state.received = []
  given : state.given = []
  removed : state.removed = []

/-- The mails whose attachments had been claimed earlier, have been given, or are going to be. -/
def handed (earlier : List String) (given pending : List (String × List Item)) : List String :=
  earlier ++ (given ++ pending).map Prod.fst

/-- What holds while a claim has collected some attachments. -/
structure Inv (env : Env) (earlier : List String) (pending : List (String × List Item))
    (state : State τ) : Prop where
  keyed : ∀ mailGuid mail, state.mailDict mailGuid = some mail → mail.mailGuid = mailGuid
  made : ∀ mailGuid, (state.mailDict mailGuid).isSome → Made state.guid mailGuid
  timer_made : ∀ mailGuid, (state.deadlineTimerDict mailGuid).isSome → Made state.guid mailGuid
  given_made : ∀ mailGuid ∈ handed earlier state.given pending, Made state.guid mailGuid
  once : (handed earlier state.given pending).Nodup
  spent : ∀ mailGuid ∈ handed earlier state.given pending, ∀ mail,
    state.mailDict mailGuid = some mail → mail.isGetItem = true
  marked : ∀ mailGuid mail, state.mailDict mailGuid = some mail → mail.isGetItem = true →
    mailGuid ∈ state.claimed
  timely : ∀ mailGuid nextTs mail, state.deadlineTimerDict mailGuid = some nextTs →
    state.mailDict mailGuid = some mail → mail.deadlineTs ≤ env.startTime + nextTs / 100
  received : state.received = state.given.flatMap Prod.snd
  lawful : ∀ removal ∈ state.removed, removal.Lawful state.claimed

theorem Started.inv (started : Started state) : Inv env state.claimed [] state := by
  obtain ⟨keyed, made, timers, marked, spent, claimed_made, nodup, received, given, removed⟩ := started
  refine ⟨keyed, made, ?_, ?_, ?_, ?_, marked, ?_, ?_, ?_⟩
  · simp [timers]
  · simpa [handed, given] using claimed_made
  · simpa [handed, given] using nodup
  · simpa [handed, given] using spent
  · simp [timers]
  · simp [received, given]
  · simp [removed]

theorem Inv.good (inv : Inv env earlier [] state) : Good earlier state :=
  ⟨by simpa [handed] using inv.once, inv.received, inv.lawful⟩

theorem Made.mono {number later : ℕ} (made : Made number mailGuid) (le : number ≤ later) :
    Made later mailGuid := by
  obtain ⟨number, bound, rand⟩ := made
  exact ⟨number, bound.trans le, rand⟩

theorem not_made_succ {number : ℕ} {rand : String} (five : rand.length = 5) :
    ¬ Made number (toString (number + 1) ++ rand) := by
  rintro ⟨made, le, other, other_five, same⟩
  have lists : (toString (number + 1)).toList ++ rand.toList =
      (toString made).toList ++ other.toList := by
    rw [← String.toList_append, same, String.toList_append]
  have lengths : rand.toList.length = other.toList.length := by
    rw [String.length_toList, String.length_toList, five, other_five]
  have numbers := String.toList_inj.mp (List.append_inj' lists lengths).1
  have := Nat.repr_injective numbers
  omega

theorem Removal.Lawful.mono {claimed more : List String} {removal : Removal τ}
    (lawful : removal.Lawful claimed) (sub : claimed ⊆ more) : removal.Lawful more :=
  lawful.imp_right (Or.imp_right (Or.imp_right fun mem => sub mem))

variable {pending : List (String × List Item)}

theorem drop_inv {cause : Cause} (inv : Inv env earlier pending state)
    (lawful : ∀ mail, state.mailDict mailGuid = some mail →
      Removal.Lawful state.claimed ⟨mail, cause, state.timeSecond env⟩) :
    Inv env earlier pending (state.drop env mailGuid cause) := by
  unfold State.drop
  split
  · exact inv
  · next mail found =>
      obtain ⟨keyed, made, timer_made, given_made, once, spent, marked, timely, received, removed⟩ :=
        inv
      constructor <;> dsimp only
      case lawful =>
        intro removal mem
        rcases List.mem_append.mp mem with mem | mem
        · exact removed removal mem
        · cases List.mem_singleton.mp mem
          exact lawful mail found
      all_goals grind [Function.update_apply]

theorem mail_of_drop {cause : Cause} {other : String} {mail : Mail τ}
    (found : (state.drop env mailGuid cause).mailDict other = some mail) :
    state.mailDict other = some mail := by
  unfold State.drop at found
  split at found
  · exact found
  · grind [Function.update_apply]

theorem timeSecond_drop (cause : Cause) :
    (state.drop env mailGuid cause).timeSecond env = state.timeSecond env := by
  unfold State.drop
  split <;> rfl

theorem dropAll_inv (list : List String)
    (inv : Inv env earlier pending state) (past : ∀ mailGuid ∈ list, ∀ mail,
      state.mailDict mailGuid = some mail → mail.deadlineTs ≤ state.timeSecond env) :
    Inv env earlier pending (list.foldl (fun state mailGuid => state.drop env mailGuid .deadline) state) := by
  induction list generalizing state with
  | nil => exact inv
  | cons mailGuid list ih =>
      have first := past mailGuid List.mem_cons_self
      refine ih (drop_inv inv fun mail found => .inl ⟨rfl, first mail found⟩) ?_
      intro other mem mail found
      rw [timeSecond_drop]
      exact past other (List.mem_cons_of_mem _ mem) mail (mail_of_drop found)

theorem deadlineTimer_timely {mail : Mail τ}
    (timely : ∀ nextTs, state.deadlineTimerDict mail.mailGuid = some nextTs →
      mail.deadlineTs ≤ env.startTime + nextTs / 100) (nextTs : ℤ)
    (set : state.deadlineTimer env mail = some nextTs) :
    mail.deadlineTs ≤ env.startTime + nextTs / 100 := by
  unfold State.deadlineTimer State.timeSecond at set
  dsimp only at set
  split at set
  · split at set
    · next found => exact timely nextTs (found.trans set)
    · cases set
      omega
  · exact timely nextTs set

theorem checkDeadlineMail_inv (inv : Inv env earlier pending state) :
    Inv env earlier pending (state.checkDeadlineMail env) := by
  obtain ⟨keyed, made, timer_made, given_made, once, spent, marked, timely, received, lawful⟩ := inv
  refine ⟨keyed, made, ?_, given_made, once, spent, marked, ?_, received, lawful⟩
  · intro mailGuid isSome
    cases found : state.mailDict mailGuid with
    | none => exact timer_made mailGuid (by simpa [State.checkDeadlineMail, found] using isSome)
    | some mail => exact made mailGuid (by rw [found]; rfl)
  · intro mailGuid nextTs mail set found
    have named := keyed mailGuid mail found
    subst named
    change state.mailDict mail.mailGuid = some mail at found
    simp only [State.checkDeadlineMail, found] at set
    exact deadlineTimer_timely (fun ts timer => timely _ ts mail timer found) nextTs set

theorem loadMail_inv (inv : Inv env earlier pending state)
    (order : List String) : Inv env earlier pending (state.loadMail env order) := by
  refine checkDeadlineMail_inv (dropAll_inv _ ?_ ?_)
  · obtain ⟨keyed, made, timer_made, given_made, once, spent, marked, timely, received, lawful⟩ := inv
    exact ⟨keyed, made, nofun, given_made, once, spent, marked, nofun, received, lawful⟩
  · intro mailGuid mem mail found
    obtain ⟨key, -, passed⟩ := List.mem_filterMap.mp mem
    obtain ⟨other, listed, chosen⟩ := Option.bind_eq_some_iff.mp passed
    have same := inv.keyed key other listed
    grind [State.timeSecond]

theorem clearMail_inv {nextTs : ℤ}
    (inv : Inv env earlier pending state) (timer : state.deadlineTimerDict mailGuid = some nextTs)
    (due : nextTs ≤ state.now) : Inv env earlier pending (state.clearMail env mailGuid) := by
  refine drop_inv ?_ fun mail found => .inl ⟨rfl, ?_⟩
  · cases inv
    constructor <;> dsimp only
    all_goals grind [Function.update_apply]
  · have timely := inv.timely mailGuid nextTs mail timer found
    change mail.deadlineTs ≤ env.startTime + state.now / 100
    omega

theorem addMail_inv (inv : Inv env earlier [] state) {info : MailInfo τ} {rand : String}
    (five : rand.length = 5) : Inv env earlier [] (state.addMail env info rand) := by
  unfold State.addMail
  split
  · exact inv
  · next data kind =>
      have fresh := @not_made_succ state.guid _ five
      obtain ⟨keyed, made, timer_made, given_made, once, spent, marked, timely, received, lawful⟩ :=
        inv
      have own : Made (state.guid + 1) (toString (state.guid + 1) ++ rand) :=
        ⟨state.guid + 1, le_rfl, rand, five, rfl⟩
      have next : ∀ key, Made state.guid key → Made (state.guid + 1) key :=
        fun key made => made.mono (Nat.le_succ _)
      have no_timer : state.deadlineTimerDict (toString (state.guid + 1) ++ rand) = none := by
        by_contra timer
        exact fresh (timer_made _ (Option.isSome_iff_ne_none.mpr timer))
      constructor <;> dsimp only
      case timely =>
        intro key nextTs mail timer found
        by_cases same : key = toString (state.guid + 1) ++ rand
        · subst same
          rw [Function.update_self] at timer found
          cases found
          refine deadlineTimer_timely (fun ts old => ?_) nextTs timer
          cases no_timer.symm.trans old
        · rw [Function.update_of_ne same] at timer found
          exact timely key nextTs mail timer found
      all_goals grind [Function.update_apply]

section
variable (inv : Inv env earlier pending state)
include inv

theorem readMail_inv : Inv env earlier pending (state.readMail mailGuid) := by
  unfold State.readMail
  split
  · exact inv
  · next mail found =>
      obtain ⟨keyed, made, timer_made, given_made, once, spent, marked, timely, received, lawful⟩ :=
        inv
      constructor <;> dsimp only
      all_goals grind [Function.update_apply]

theorem mark_inv {mail : Mail τ} (found : state.mailDict mailGuid = some mail)
    (unclaimed : mail.isGetItem = false) (items : List Item) :
    Inv env earlier (pending ++ [(mailGuid, items)]) (state.mark mailGuid mail) := by
  have ungiven : mailGuid ∉ handed earlier state.given pending := by
    intro mem
    have spent := inv.spent mailGuid mem mail found
    rw [unclaimed] at spent
    cases spent
  obtain ⟨keyed, made, timer_made, given_made, once, spent, marked, timely, received, lawful⟩ := inv
  have more : handed earlier state.given (pending ++ [(mailGuid, items)]) =
      handed earlier state.given pending ++ [mailGuid] := by
    simp [handed]
  constructor <;> dsimp only [State.mark] <;> (try rw [more])
  case once =>
    rw [List.nodup_append]
    refine ⟨once, List.nodup_singleton _, ?_⟩
    rintro given mem _ last rfl
    exact ungiven ((List.mem_singleton.mp last) ▸ mem)
  case lawful =>
    exact fun removal mem => (lawful removal mem).mono (List.subset_append_left _ _)
  all_goals grind [Function.update_apply]

theorem give_inv : Inv env earlier [] (state.give pending) := by
  obtain ⟨keyed, made, timer_made, given_made, once, spent, marked, timely, received, lawful⟩ := inv
  have same : handed earlier (state.give pending).given [] = handed earlier state.given pending := by
    simp [handed, State.give]
  refine ⟨keyed, made, timer_made, ?_, ?_, ?_, marked, timely, ?_, lawful⟩
  · rw [same]
    exact given_made
  · rw [same]
    exact once
  · rw [same]
    exact spent
  · simp [State.give, received]

theorem abandon_inv : Inv env earlier [] state := by
  obtain ⟨keyed, made, timer_made, given_made, once, spent, marked, timely, received, lawful⟩ := inv
  have more : handed earlier state.given pending =
      handed earlier state.given [] ++ pending.map Prod.fst := by
    simp [handed]
  rw [more] at given_made once spent
  refine ⟨keyed, made, timer_made, ?_, once.of_append_left, ?_, marked, timely, received, lawful⟩
  · exact fun mailGuid mem => given_made mailGuid (List.mem_append_left _ mem)
  · exact fun mailGuid mem => spent mailGuid (List.mem_append_left _ mem)

end

theorem getMailItem_inv (inv : Inv env earlier [] state) : Inv env earlier [] (state.getMailItem mailGuid) := by
  unfold State.getMailItem
  split
  · exact inv
  · next mail found =>
      split
      · exact inv
      · split
        · exact inv
        · next unclaimed => exact give_inv (mark_inv inv found (by simpa using unclaimed) _)

variable {renders : Mail τ → Bool} {mailType : Option ℕ}

theorem quickGetLoop_inv {order : List String}
    {pending items : List (String × List Item)} {raised : Bool} (inv : Inv env earlier pending state)
    (ends : quickGetLoop env renders mailType order state pending = (after, items, raised)) :
    Inv env earlier items after := by
  induction order generalizing state pending with
  | nil =>
      obtain ⟨rfl, rfl, -⟩ : state = after ∧ pending = items ∧ false = raised := by
        simpa [quickGetLoop] using ends
      exact inv
  | cons mailGuid order ih =>
      rw [quickGetLoop] at ends
      split at ends
      · exact ih inv ends
      · next mail found =>
          split at ends
          · obtain ⟨rfl, rfl, -⟩ : state = after ∧ pending = items ∧ true = raised := by
              simpa using ends
            exact inv
          · next itemList _ _ =>
              split at ends
              · exact ih inv ends
              · next unclaimed =>
                  have marked := mark_inv inv found (by simpa using unclaimed) itemList
                  split at ends
                  · exact ih marked ends
                  · obtain ⟨rfl, rfl, -⟩ : state.mark mailGuid mail = after ∧
                        pending ++ [(mailGuid, itemList)] = items ∧ true = raised := by
                      simpa using ends
                    exact marked
          · exact ih inv ends

section
variable (inv : Inv env earlier [] state)
include inv

theorem quickGetMailItem_inv {order : List String} :
    Inv env earlier [] (state.quickGetMailItem env renders mailType order) := by
  unfold State.quickGetMailItem
  split
  · next ends => exact give_inv (quickGetLoop_inv inv ends)
  · next ends => exact abandon_inv (quickGetLoop_inv inv ends)

def Deletable (state : State τ) (mailGuid : String) : Prop :=
  ∀ mail, state.mailDict mailGuid = some mail → mail.itemList = none ∨ mail.isGetItem = true

theorem deletable_of_mem {order list : List String}
    (listed : quickDeleteList env mailType state order = some list) :
    ∀ mailGuid ∈ list, Deletable state mailGuid := by
  induction order generalizing list with
  | nil =>
      cases listed
      exact fun _ mem => absurd mem List.not_mem_nil
  | cons key order ih =>
      rw [quickDeleteList] at listed
      split at listed
      · exact ih listed
      · next mail found =>
          obtain ⟨selected, -, rest⟩ := Option.bind_eq_some_iff.mp listed
          obtain ⟨rest, rest_listed, rfl⟩ := Option.map_eq_some_iff.mp rest
          intro mailGuid mem
          split at mem
          · next chosen =>
              rcases List.mem_cons.mp mem with rfl | mem
              · rw [inv.keyed key mail found]
                intro other other_found
                cases found.symm.trans other_found
                exact chosen.2.imp_left And.right
              · exact ih rest_listed mailGuid mem
          · exact ih rest_listed mailGuid mem

theorem quickDeleteLoop_inv {list : List String}
    (deletable : ∀ mailGuid ∈ list, Deletable state mailGuid) :
    Inv env earlier [] (quickDeleteLoop env renders list state) := by
  induction list generalizing state with
  | nil => exact inv
  | cons mailGuid rest ih =>
      rw [quickDeleteLoop]
      split
      · exact inv
      · next mail found =>
          have dropped : Inv env earlier [] (state.drop env mailGuid .quick) := by
            refine drop_inv inv fun other other_found => .inr (.inr ?_)
            refine (deletable mailGuid List.mem_cons_self other other_found).imp_right fun marked => ?_
            rw [inv.keyed mailGuid other other_found]
            exact inv.marked mailGuid other other_found marked
          have cancelled : Inv env earlier [] { state.drop env mailGuid .quick with
              deadlineTimerDict := Function.update
                (state.drop env mailGuid .quick).deadlineTimerDict mailGuid none } := by
            cases dropped
            constructor <;> dsimp only
            all_goals grind [Function.update_apply]
          split
          · refine ih cancelled fun other mem mail found => ?_
            exact deletable other (List.mem_cons_of_mem _ mem) mail (mail_of_drop found)
          · exact cancelled

theorem quickDeleteMail_inv {order : List String} :
    Inv env earlier [] (state.quickDeleteMail env renders mailType order) := by
  unfold State.quickDeleteMail
  split
  · exact inv
  · next list listed => exact quickDeleteLoop_inv inv (deletable_of_mem inv listed)

end

theorem step_inv {op : Op τ} (inv : Inv env earlier [] state) (taken : step env state op = some after) :
    Inv env earlier [] after := by
  cases op with
  | load order =>
      cases taken
      exact loadMail_inv inv order
  | checkDeadline =>
      cases taken
      exact checkDeadlineMail_inv inv
  | timer mailGuid =>
      simp only [step] at taken
      split at taken
      · next nextTs timer =>
          obtain ⟨due, taken⟩ := Option.ite_none_right_eq_some.mp taken
          cases taken
          exact clearMail_inv inv timer due
      · cases taken
  | addMail info rand =>
      obtain ⟨five, taken⟩ := Option.ite_none_right_eq_some.mp taken
      cases taken
      exact addMail_inv inv five
  | readMail mailGuid =>
      cases taken
      exact readMail_inv inv
  | getMailItem mailGuid =>
      cases taken
      exact getMailItem_inv inv
  | quickGetMailItem renders mailType order =>
      cases taken
      exact quickGetMailItem_inv inv
  | deleteMail mailGuid =>
      cases taken
      exact drop_inv inv fun mail _ => .inr (.inl rfl)
  | quickDeleteMail renders mailType order =>
      cases taken
      exact quickDeleteMail_inv inv
  | newGuid =>
      cases taken
      obtain ⟨keyed, made, timer_made, given_made, once, spent, marked, timely, received, lawful⟩ :=
        inv
      refine ⟨keyed, ?_, ?_, ?_, once, spent, marked, timely, received, lawful⟩
      · exact fun mailGuid mem => (made mailGuid mem).mono (Nat.le_succ _)
      · exact fun mailGuid mem => (timer_made mailGuid mem).mono (Nat.le_succ _)
      · exact fun mailGuid mem => (given_made mailGuid mem).mono (Nat.le_succ _)
  | tick passed =>
      cases taken
      exact { inv with }

/-- In every run from a mailbox, the attachments of a mail are given at most once, and a mail with
attachments that have not been claimed is removed only for its deadline or by itself. -/
theorem attachments_given_once {ops : List (Op τ)} (started : Started state) :
    Execution.Always (step env) (Good state.claimed) state ops :=
  (Execution.always_invariant step_inv started.inv).mono fun _ inv => inv.good

/-- A role with one mail, which has an attachment and expires at the time 1000. -/
def oneMail : State Unit where
  mailDict := fun mailGuid =>
    if mailGuid = "1abcde" then
      some ⟨"1abcde", 0, (), some [⟨7, some 2⟩], 0, 1000, false, false⟩
    else none
  deadlineTimerDict := fun _ => none
  guid := 1
  now := 0
  received := []
  claimed := []
  given := []
  removed := []

theorem oneMail_started : Started oneMail where
  keyed := by
    intro mailGuid mail found
    obtain ⟨same, found⟩ := Option.ite_none_right_eq_some.mp found
    cases found
    exact same.symm
  made := by
    intro mailGuid isSome
    have same : mailGuid = "1abcde" := by
      by_contra other
      simp [oneMail, other] at isSome
    exact ⟨1, le_rfl, "abcde", by decide, same⟩
  timers := fun _ => rfl
  marked := by
    intro mailGuid mail found marked
    obtain ⟨-, found⟩ := Option.ite_none_right_eq_some.mp found
    cases found
    cases marked
  spent := nofun
  claimed_made := nofun
  nodup := List.nodup_nil
  received := rfl
  given := rfl
  removed := rfl

/-- The mail is read, kept when mails are deleted, claimed twice, and then deleted. -/
def claimingRun : List (Op Unit) :=
  [.checkDeadline, .readMail "1abcde", .quickDeleteMail (fun _ => true) none ["1abcde"],
    .getMailItem "1abcde", .quickGetMailItem (fun _ => true) none ["1abcde"],
    .quickDeleteMail (fun _ => true) none ["1abcde"]]

theorem attachments_given_once_claimingRun :
    Execution.Always (step ⟨fun _ => none, 0⟩) (Good []) oneMail claimingRun ∧
      ((Execution.run (step ⟨fun _ => none, 0⟩) oneMail claimingRun).map fun state =>
        (state.received, state.removed.map Removal.cause)) =
          some ([⟨7, some 2⟩], [Cause.quick]) :=
  ⟨attachments_given_once oneMail_started, by decide⟩

end UEServer.RoleMail
