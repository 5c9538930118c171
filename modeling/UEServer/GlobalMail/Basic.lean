import Mathlib.Data.Rat.Floor
import UEServer.Library.Lru
import UEServer.RoleMail.Basic

/-!
# Global mails

`global_mail.lua`.  A mail is sent from its `start_ts` on: it then gets the next number, and every
role remembers the number up to which it has been looked at.  The mails are objects of an LRU, which
the loading traverses; a mail's attachments are one table, which every role's mail refers to, and which
the first of them makes a container of.
-/

namespace UEServer.GlobalMail

open RoleMail (Item MailData)

structure Table where
  /-- It has been made a container of its schema. -/
  converted : Bool
  items : List Item
  deriving DecidableEq

structure Mail (κ τ : Type*) where
  guid : κ
  /-- `last_global_mail_id`: the number of the mail, once it has been sent. -/
  lastGlobalMailId : Option ℕ
  startTs : ℤ
  endTs : ℤ
  isAllChannel : Bool
  channel : Option String
  roleCreateTs1 : ℚ
  roleCreateTs2 : ℚ
  /-- `attach`: the table of its attachments. -/
  attach : Option ℕ
  /-- `title` and `content`, by language. -/
  text : String → τ
  deadlineTs : ℚ

structure Receipt (κ ρ τ : Type*) where
  role : ρ
  guid : κ
  /-- `title` and `content`. -/
  text : τ
  deadlineTs : ℤ
  /-- `item_list`: the table of its attachments. -/
  itemList : Option ℕ

structure RoleInfo where
  /-- `get_channel`. -/
  channel : String
  /-- `get_create_ts`. -/
  createTs : ℚ
  /-- `get_language`. -/
  language : Option String

/-- The mails, the tables, the roles, and what has been done. -/
structure State (κ ρ τ : Type*) where
  mailDb : Lru κ (Mail κ τ)
  mailGuidMapper : ℕ → Option κ
  /-- `_mail_timer`, with the time of each timer. -/
  mailTimer : κ → Option ℤ
  /-- `last_global_mail_id` of the server. -/
  lastGlobalMailId : ℕ
  /-- `last_global_mail` of each role. -/
  lastGlobalMail : ρ → ℕ
  tables : ℕ → Table
  tableCount : ℕ
  /-- `date.time_second()`. -/
  now : ℤ
  receipts : List (Receipt κ ρ τ)
  /-- The mails as they were added, with their attachments. -/
  added : κ → Option (Mail κ τ × Option (List Item))
  rows : List κ
  /-- The mails that `load_all_mail` has processed. -/
  processed : List κ

/-- `MailData` of the kind `Gm`. -/
def gmMailData : MailData where
  mailType := 1
  itemList := none
  itemValueList := []

variable {κ ρ τ : Type*} [DecidableEq κ] [DecidableEq ρ]

namespace State

def items (state : State κ ρ τ) (itemList : Option ℕ) : Option (List Item) :=
  itemList.map fun table => (state.tables table).items

def newTable (state : State κ ρ τ) (items : List Item) : State κ ρ τ :=
  { state with
    tables := Function.update state.tables state.tableCount ⟨false, items⟩
    tableCount := state.tableCount + 1 }

/-- A new table, if there is something to be put into it. -/
def newItems (state : State κ ρ τ) : Option (List Item) → State κ ρ τ × Option ℕ
  | none => (state, none)
  | some items => (state.newTable items, some state.tableCount)

/-- The part of `add_mail` that adds the attachments of the kind of mail. -/
def addItems (state : State κ ρ τ) (data : MailData) (itemList : Option ℕ) :
    State κ ρ τ × Option ℕ :=
  match data.itemList with
  | none => (state, itemList)
  | some ids =>
      let (state, table) := match itemList with
        | none => (state.newTable [], state.tableCount)
        | some table => (state, table)
      let more := ids.zipIdx.map fun (itemId, index) => ⟨itemId, data.itemValueList[index]?⟩
      let old := state.tables table
      ({ state with
          tables := Function.update state.tables table { old with items := old.items ++ more } },
        some table)

/-- `__F_CONVERTER` of the attachments' schema: the contents of a table that is not a container yet are
moved into it. -/
def convert (state : State κ ρ τ) (itemList : Option ℕ) : State κ ρ τ :=
  match itemList with
  | none => state
  | some table =>
      { state with
        tables := Function.update state.tables table { state.tables table with converted := true } }

/-- `add_mail`, as far as it concerns the global mail. -/
def addMail (state : State κ ρ τ) (receipt : Receipt κ ρ τ) : State κ ρ τ :=
  let (state, itemList) := state.addItems gmMailData receipt.itemList
  let state := state.convert itemList
  { state with receipts := state.receipts ++ [{ receipt with itemList }] }

/-- The conditions of `_send_global_mail`. -/
def Eligible (state : State κ ρ τ) (info : RoleInfo) (mail : Mail κ τ) : Prop :=
  mail.startTs ≤ state.now ∧ state.now ≤ mail.endTs ∧
    (mail.isAllChannel = true ∨ mail.channel = some info.channel) ∧
    mail.roleCreateTs1 ≤ info.createTs ∧ info.createTs ≤ mail.roleCreateTs2

instance (state : State κ ρ τ) (info : RoleInfo) (mail : Mail κ τ) :
    Decidable (state.Eligible info mail) :=
  inferInstanceAs (Decidable (_ ∧ _ ∧ (_ ∨ _) ∧ _ ∧ _))

def sendGlobalMail (state : State κ ρ τ) (number : ℕ) (role : ρ) (info : RoleInfo) : State κ ρ τ :=
  match state.mailGuidMapper number with
  | none => state
  | some guid =>
      match state.mailDb.get guid with
      | none => state
      | some mail =>
          if state.Eligible info mail then
            state.addMail ⟨role, guid, mail.text (info.language.getD "chs"), ⌊mail.deadlineTs⌋,
              mail.attach⟩
          else state

/-- The loop of `check_send_global_mail`. -/
def sendFrom (role : ρ) (info : RoleInfo) : ℕ → State κ ρ τ → State κ ρ τ
  | 0, state => state
  | left + 1, state =>
      let number := state.lastGlobalMail role + 1
      let state :=
        { state with lastGlobalMail := Function.update state.lastGlobalMail role number }
      sendFrom role info left (state.sendGlobalMail number role info)

def checkSendGlobalMail (state : State κ ρ τ) (role : ρ) (info : RoleInfo) : State κ ρ τ :=
  sendFrom role info (state.lastGlobalMailId - state.lastGlobalMail role) state

def mailTakeEffect (state : State κ ρ τ) (mail : Mail κ τ) : State κ ρ τ :=
  let number := state.lastGlobalMailId + 1
  { state with
    lastGlobalMailId := number
    mailGuidMapper := Function.update state.mailGuidMapper number (some mail.guid)
    mailDb := state.mailDb.put mail.guid { mail with lastGlobalMailId := some number }
      state.now.toNat }

def addMailTimer (state : State κ ρ τ) (guid : κ) (delaySeconds : ℤ) : State κ ρ τ :=
  { state with
    mailTimer := Function.update state.mailTimer guid (some (state.now + delaySeconds)) }

def start (state : State κ ρ τ) (mail : Mail κ τ) : State κ ρ τ :=
  let delaySeconds := mail.startTs - state.now
  if 0 < delaySeconds then state.addMailTimer mail.guid delaySeconds
  else state.mailTakeEffect mail

/-- `_add_global_mail`, with a `guid` that is not in use, and the attachments. -/
def addGlobalMail (state : State κ ρ τ) (mail : Mail κ τ) (items : Option (List Item)) :
    State κ ρ τ :=
  let (state, attach) := state.newItems items
  let mail := { mail with attach, lastGlobalMailId := none }
  { state with
    mailDb := state.mailDb.put mail.guid mail state.now.toNat
    added := Function.update state.added mail.guid (some ({ mail with attach := none }, items)) }.start
      mail

/-- What `load_all_mail` does with a mail. -/
def process (state : State κ ρ τ) (mail : Mail κ τ) : State κ ρ τ :=
  let state := { state with processed := state.processed ++ [mail.guid] }
  match mail.lastGlobalMailId with
  | none => state.start mail
  | some number =>
      { state with
        mailGuidMapper := Function.update state.mailGuidMapper number (some mail.guid) }

/-- The loop of `load_all_mail`, which goes on from the mail at a key. -/
def loadLoop : ℕ → State κ ρ τ → Option κ → State κ ρ τ
  | 0, state, _ => state
  | fuel + 1, state, key =>
      match state.mailDb.next key with
      | none => state
      | some (guid, mail) => loadLoop fuel (state.process mail) (some guid)

/-- `load_all` of the mail database: a mail comes with a table of its own. -/
def loadRow (old : Lru κ (Mail κ τ)) (state : State κ ρ τ) (guid : κ) : State κ ρ τ :=
  match old.get guid with
  | none => state
  | some mail =>
      let (state, attach) := state.newItems (state.items mail.attach)
      { state with mailDb := state.mailDb.put guid { mail with attach } state.now.toNat }

/-- A restart, and `load_all_mail`. -/
def restart (state : State κ ρ τ) (rows : List κ) : State κ ρ τ :=
  let empty := { state with
    mailDb := .empty, mailGuidMapper := fun _ => none, mailTimer := fun _ => none, rows
    processed := [] }
  let loaded := rows.foldl (loadRow state.mailDb) empty
  loadLoop (rows.length + 1) loaded none

end State

/-- What happens to the global mails. -/
inductive Op (κ ρ τ : Type*) where
  | restart (rows : List κ)
  | add (mail : Mail κ τ) (items : Option (List Item))
  | timer (guid : κ)
  /-- A role logs in, or a mail has been sent while it is online. -/
  | checkSend (role : ρ) (info : RoleInfo)
  | tick (passed : ℕ)

/-- One operation. -/
def step (state : State κ ρ τ) : Op κ ρ τ → Option (State κ ρ τ)
  | .restart rows =>
      if rows.Perm (state.mailDb.entries.map Prod.fst) then some (state.restart rows) else none
  | .add mail items =>
      if state.mailDb.get mail.guid = none then some (state.addGlobalMail mail items) else none
  | .timer guid =>
      match state.mailTimer guid, state.mailDb.get guid with
      | some due, some mail =>
          if due ≤ state.now then
            some { state.mailTakeEffect mail with
              mailTimer := Function.update state.mailTimer guid none }
          else none
      | _, _ => none
  | .checkSend role info => some (state.checkSendGlobalMail role info)
  | .tick passed => some { state with now := state.now + passed }

end UEServer.GlobalMail
