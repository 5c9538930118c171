import Mathlib.Data.Int.Basic
import UEServer.Library.Execution

/-!
# The mails of a role

`meta_table/mail.lua`.  `pairs` visits the mails in any order, which is part of the label.  Making the
text of a mail, for a log entry, raises when an argument of it is missing, and leaves what was being
done where it is.  What the role has been given and which mails have been removed is recorded.
-/

namespace UEServer.RoleMail

structure Item where
  itemId : ℕ
  count : Option ℕ
  deriving DecidableEq

/-- A kind of mail, of the table `MailData`. -/
structure MailData where
  mailType : ℕ
  /-- `item_list`: the ids of the attachments that every mail of the kind has. -/
  itemList : Option (List ℕ)
  /-- `item_value_list`: how many of each. -/
  itemValueList : List ℕ

/-- What a mail is made of.  Its text consists of `content`, `title` and `mail_args`. -/
structure MailInfo (τ : Type*) where
  /-- `mail_id`: the kind of the mail. -/
  mailId : ℕ
  text : τ
  itemList : Option (List Item)
  sendTs : Option ℤ
  deadlineTs : Option ℤ

structure Mail (τ : Type*) where
  mailGuid : String
  /-- `mail_id`: the kind of the mail. -/
  mailId : ℕ
  text : τ
  /-- `item_list`: the attachments. -/
  itemList : Option (List Item)
  sendTs : ℤ
  deadlineTs : ℤ
  isRead : Bool
  /-- `is_get_item`: the attachments have been claimed. -/
  isGetItem : Bool

structure Env where
  mailData : ℕ → Option MailData
  startTime : ℤ

inductive Cause where
  | deadline
  | deleted
  | quick
  deriving DecidableEq

structure Removal (τ : Type*) where
  mail : Mail τ
  cause : Cause
  /-- `date.time_second()`. -/
  second : ℤ

structure State (τ : Type*) where
  mailDict : String → Option (Mail τ)
  /-- `deadline_timer_dict`, with the `next_ts` of each timer. -/
  deadlineTimerDict : String → Option ℤ
  /-- `guid`: the last number that `new_guid` has given. -/
  guid : ℕ
  /-- `date.now()`, in hundredths of a second. -/
  now : ℤ
  /-- What `add_item_list` has added. -/
  received : List Item
  /-- The mails whose attachments have been claimed. -/
  claimed : List String
  /-- The attachments that have been given, by mail. -/
  given : List (String × List Item)
  removed : List (Removal τ)

variable {τ : Type*}

namespace State

/-- `date.time_second()`. -/
def timeSecond (env : Env) (state : State τ) : ℤ :=
  env.startTime + state.now / 100

/-- A mail is taken out of `mail_dict`. -/
def drop (env : Env) (state : State τ) (mailGuid : String) (cause : Cause) : State τ :=
  match state.mailDict mailGuid with
  | none => state
  | some mail =>
      { state with
        mailDict := Function.update state.mailDict mailGuid none
        removed := state.removed ++ [⟨mail, cause, state.timeSecond env⟩] }

/-- The attachments of a mail are marked as claimed. -/
def mark (state : State τ) (mailGuid : String) (mail : Mail τ) : State τ :=
  { state with
    mailDict := Function.update state.mailDict mailGuid
      (some { mail with isGetItem := true, isRead := true })
    claimed := state.claimed ++ [mailGuid] }

/-- `add_item_list`, for the attachments of some mails. -/
def give (state : State τ) (attachments : List (String × List Item)) : State τ :=
  { state with
    received := state.received ++ attachments.flatMap Prod.snd
    given := state.given ++ attachments }

/-- `set_mail_deadline_timer`: the timer of a mail, if it has less than an hour left. -/
def deadlineTimer (env : Env) (state : State τ) (mail : Mail τ) : Option ℤ :=
  let leftTime := mail.deadlineTs - state.timeSecond env
  if leftTime < 3600 then
    match state.deadlineTimerDict mail.mailGuid with
    | some nextTs => some nextTs
    | none => some (state.now + max 1 (leftTime * 100))
  else state.deadlineTimerDict mail.mailGuid

def checkDeadlineMail (env : Env) (state : State τ) : State τ :=
  { state with
    deadlineTimerDict := fun mailGuid =>
      match state.mailDict mailGuid with
      | none => state.deadlineTimerDict mailGuid
      | some mail => state.deadlineTimer env mail }

/-- `load_mail`, of a role that is loaded anew and has no timers. -/
def loadMail (env : Env) (state : State τ) (order : List String) : State τ :=
  let past := order.filterMap fun key => (state.mailDict key).bind fun mail =>
    if mail.deadlineTs ≤ state.timeSecond env then some mail.mailGuid else none
  let fresh := { state with deadlineTimerDict := fun _ => none }
  (past.foldl (fun state mailGuid => state.drop env mailGuid .deadline) fresh).checkDeadlineMail env

/-- The callback of a mail's timer, and `clear_mail`. -/
def clearMail (env : Env) (state : State τ) (mailGuid : String) : State τ :=
  { state with
    deadlineTimerDict := Function.update state.deadlineTimerDict mailGuid none }.drop env mailGuid
      .deadline

def itemsOf (info : MailInfo τ) (data : MailData) : Option (List Item) :=
  match data.itemList with
  | none => info.itemList
  | some ids => some ((info.itemList.getD []) ++
      ids.zipIdx.map fun (itemId, index) => ⟨itemId, data.itemValueList[index]?⟩)

/-- `add_mail`.  `MAIL_PAST_TS` is thirty days. -/
def addMail (env : Env) (state : State τ) (info : MailInfo τ) (rand : String) : State τ :=
  match env.mailData info.mailId with
  | none => state
  | some data =>
      let mailGuid := toString (state.guid + 1) ++ rand
      let sendTs := info.sendTs.getD (state.timeSecond env)
      let mail : Mail τ :=
        { mailGuid, mailId := info.mailId, text := info.text, itemList := itemsOf info data, sendTs,
          deadlineTs := info.deadlineTs.getD (sendTs + 30 * 24 * 60 * 60)
          isRead := false, isGetItem := false }
      { state with
        guid := state.guid + 1
        mailDict := Function.update state.mailDict mailGuid (some mail)
        deadlineTimerDict := Function.update state.deadlineTimerDict mailGuid
          (state.deadlineTimer env mail) }

def readMail (state : State τ) (mailGuid : String) : State τ :=
  match state.mailDict mailGuid with
  | none => state
  | some mail =>
      { state with
        mailDict := Function.update state.mailDict mailGuid (some { mail with isRead := true }) }

def getMailItem (state : State τ) (mailGuid : String) : State τ :=
  match state.mailDict mailGuid with
  | none => state
  | some mail =>
      match mail.itemList with
      | none => state
      | some items =>
          if mail.isGetItem then state
          else (state.mark mailGuid mail).give [(mailGuid, items)]

end State

/-- A mail is of the type asked for; this raises for a mail of no kind. -/
def selects (env : Env) (mailType : Option ℕ) (mail : Mail τ) : Option Bool :=
  match mailType with
  | none => some true
  | some mailType => (env.mailData mail.mailId).map fun data => data.mailType = mailType

/-- The loop of `quick_get_mail_item`: what it marks, what it collects, and whether it raises. -/
def quickGetLoop (env : Env) (renders : Mail τ → Bool) (mailType : Option ℕ) :
    List String → State τ → List (String × List Item) → State τ × List (String × List Item) × Bool
  | [], state, items => (state, items, false)
  | mailGuid :: order, state, items =>
      match state.mailDict mailGuid with
      | none => quickGetLoop env renders mailType order state items
      | some mail =>
          match selects env mailType mail, mail.itemList with
          | none, _ => (state, items, true)
          | some true, some itemList =>
              if mail.isGetItem then quickGetLoop env renders mailType order state items
              else
                let marked := state.mark mailGuid mail
                let collected := items ++ [(mailGuid, itemList)]
                if renders mail then
                  quickGetLoop env renders mailType order marked collected
                else (marked, collected, true)
          | _, _ => quickGetLoop env renders mailType order state items

def State.quickGetMailItem (env : Env) (state : State τ) (renders : Mail τ → Bool)
    (mailType : Option ℕ) (order : List String) : State τ :=
  match quickGetLoop env renders mailType order state [] with
  | (state, items, false) => state.give items
  | (state, _, true) => state

/-- The first loop of `quick_delete_mail`: the mails to delete, unless it raises. -/
def quickDeleteList (env : Env) (mailType : Option ℕ) (state : State τ) :
    List String → Option (List String)
  | [] => some []
  | mailGuid :: order =>
      match state.mailDict mailGuid with
      | none => quickDeleteList env mailType state order
      | some mail =>
          (selects env mailType mail).bind fun selected =>
            (quickDeleteList env mailType state order).map fun rest =>
              if selected ∧ (mail.isRead ∧ mail.itemList = none ∨ mail.isGetItem) then
                mail.mailGuid :: rest
              else rest

/-- The second loop of `quick_delete_mail`, which ends early when it raises. -/
def quickDeleteLoop (env : Env) (renders : Mail τ → Bool) : List String → State τ → State τ
  | [], state => state
  | mailGuid :: rest, state =>
      match state.mailDict mailGuid with
      | none => state
      | some mail =>
          let dropped := state.drop env mailGuid .quick
          let cancelled := { dropped with
            deadlineTimerDict := Function.update dropped.deadlineTimerDict mailGuid none }
          if renders mail then quickDeleteLoop env renders rest cancelled
          else cancelled

def State.quickDeleteMail (env : Env) (state : State τ) (renders : Mail τ → Bool)
    (mailType : Option ℕ) (order : List String) : State τ :=
  match quickDeleteList env mailType state order with
  | none => state
  | some list => quickDeleteLoop env renders list state

/-- What happens to the mails of a role.  An order is that in which `pairs` visits the mails, and a
mail renders if its text can be made. -/
inductive Op (τ : Type*) where
  | load (order : List String)
  | checkDeadline
  | timer (mailGuid : String)
  | addMail (info : MailInfo τ) (rand : String)
  | readMail (mailGuid : String)
  | getMailItem (mailGuid : String)
  | quickGetMailItem (renders : Mail τ → Bool) (mailType : Option ℕ) (order : List String)
  | deleteMail (mailGuid : String)
  | quickDeleteMail (renders : Mail τ → Bool) (mailType : Option ℕ) (order : List String)
  | newGuid
  | tick (passed : ℕ)

/-- One operation.  A timer is due. -/
def step (env : Env) (state : State τ) : Op τ → Option (State τ)
  | .load order => some (state.loadMail env order)
  | .checkDeadline => some (state.checkDeadlineMail env)
  | .timer mailGuid =>
      match state.deadlineTimerDict mailGuid with
      | some nextTs => if nextTs ≤ state.now then some (state.clearMail env mailGuid) else none
      | none => none
  | .addMail info rand => if rand.length = 5 then some (state.addMail env info rand) else none
  | .readMail mailGuid => some (state.readMail mailGuid)
  | .getMailItem mailGuid => some (state.getMailItem mailGuid)
  | .quickGetMailItem renders mailType order =>
      some (state.quickGetMailItem env renders mailType order)
  | .deleteMail mailGuid => some (state.drop env mailGuid .deleted)
  | .quickDeleteMail renders mailType order =>
      some (state.quickDeleteMail env renders mailType order)
  | .newGuid => some { state with guid := state.guid + 1 }
  | .tick passed => some { state with now := state.now + passed }

end UEServer.RoleMail
