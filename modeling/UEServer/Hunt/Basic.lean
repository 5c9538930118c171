import UEServer.Rank.SortedList

/-!
# Hunts of rare animals

`AnimalCls` of `hunt_utils.lua`.  Roles join the hunt of an animal and hit it, and the hits decide the
ranks; the animal itself loses a part of its life every second.  When it is killed, the rewards of all
roles are made out at once and mailed one after the other, and requests are handled between the mails.

The record of a role is shared by `role_dict` and `hurt_rank`.  A role is named by its id here, and the
fields of its record are kept beside both.
-/

namespace UEServer.Hunt

open Rank

def rankLen : ℕ := 100

/-- `RareAnimalData`.  The lists are the entries of the tables with the keys from 1 on. -/
structure RareAnimalData (κ : Type*) where
  percentHp : ℚ
  mustItem : List κ
  dropId : List κ

inductive MailId where
  | hunt
  | hunt1
  deriving DecidableEq

/-- A mail.  Its items are those of `must_item` and a roll of `drop_id`. -/
structure MailInfo (κ : Type*) where
  mailId : MailId
  /-- `rank` of `mail_args`. -/
  rank : Option ℕ
  /-- The reward that every role of this rank gets. -/
  mustItem : Option κ
  dropId : Option κ
  deriving DecidableEq

structure AnimalCls (ι : Type*) where
  percentHp : ℚ
  /-- `kill_ts` is set. -/
  isDeath : Bool
  /-- `reduce_hp_timer` runs. -/
  reduceHpTimer : Bool
  /-- The ids of `role_dict`. -/
  roleDict : List ι
  /-- `hurt` of the records. -/
  hurt : ι → ℤ
  /-- `hurt_rank`, and `rank` of the records. -/
  hurtRank : Ranked ι

section
variable {ι κ : Type*} [DecidableEq ι]

def AnimalCls.new (ι : Type*) : AnimalCls ι where
  percentHp := 1
  isDeath := false
  reduceHpTimer := false
  roleDict := []
  hurt _ := 0
  hurtRank := ⟨[], fun _ => none⟩

def AnimalCls.huntStar (animal : AnimalCls ι) (uuid : ι) : AnimalCls ι :=
  if animal.isDeath then animal
  else if uuid ∈ animal.roleDict then { animal with reduceHpTimer := true }
  else
    { animal with
      reduceHpTimer := true
      roleDict := animal.roleDict ++ [uuid]
      hurt := Function.update animal.hurt uuid 0
      hurtRank := { animal.hurtRank with rank := Function.update animal.hurtRank.rank uuid none } }

def evict (ranked : Ranked ι) (last : ι) : Ranked ι where
  list := ranked.list.dropLast
  rank := Function.update ranked.rank last none

/-- The ranking in which the role that has hit is moved; nothing if it stays out of the list.  The
last role of a full list is compared with the hit alone. -/
def AnimalCls.enlist (animal : AnimalCls ι) (hurts : ι → ℤ) (uuid : ι) (hurt : ℤ) :
    Option (Option (Ranked ι)) :=
  match animal.hurtRank.rank uuid with
  | some _ => some (some animal.hurtRank)
  | none =>
      if rankLen ≤ animal.hurtRank.list.length then
        match animal.hurtRank.list.getLast? with
        | none => none
        | some last =>
            if hurt ≤ hurts last then some none else some (some (evict animal.hurtRank last))
      else some (some animal.hurtRank)

/-- `on_hunt`; nothing if it raises. -/
def AnimalCls.onHunt (animal : AnimalCls ι) (uuid : ι) (hurt : ℤ) : Option (AnimalCls ι) :=
  if animal.isDeath then some animal
  else if uuid ∈ animal.roleDict then
    let hurts := Function.update animal.hurt uuid (animal.hurt uuid + hurt)
    match animal.enlist hurts uuid hurt with
    | none => none
    | some none => some { animal with hurt := hurts }
    | some (some ranked) =>
        (updateSortedList hurts ranked uuid true).map fun hurtRank =>
          { animal with hurt := hurts, hurtRank := hurtRank }
  else some animal

/-- The mail of a role with this rank, as `give_reward` makes it out. -/
def RareAnimalData.mailInfo (data : RareAnimalData κ) (rank : Option ℕ) : MailInfo κ where
  mailId := if rank.isSome then .hunt else .hunt1
  rank := rank
  mustItem := (rank.bind fun rank => data.mustItem[rank - 1]?).or data.mustItem.getLast?
  dropId := (rank.bind fun rank => data.dropId[rank - 1]?).or data.dropId[data.mustItem.length - 1]?

/-- `on_kill`, up to the mails. -/
def AnimalCls.onKill (animal : AnimalCls ι) : AnimalCls ι :=
  { animal with isDeath := true, reduceHpTimer := false }

/-- `on_kill`, after the mails. -/
def AnimalCls.clear (animal : AnimalCls ι) : AnimalCls ι :=
  { animal with
    percentHp := 0
    roleDict := []
    hurt := fun _ => 0
    hurtRank := ⟨[], fun _ => none⟩ }

def AnimalCls.revive (animal : AnimalCls ι) : AnimalCls ι :=
  { animal with percentHp := 1, isDeath := false }

/-- An animal, and what has happened since it has lived. -/
structure Game (ι κ : Type*) where
  animal : AnimalCls ι
  /-- The mails that `give_reward` has not sent yet, while it runs. -/
  pending : Option (List (ι × MailInfo κ))
  joined : List ι
  hits : List (ι × ℤ)
  standing : Ranked ι
  mails : List (ι × MailInfo κ)

inductive HuntEvent (ι : Type*) where
  | join (uuid : ι)
  | hit (uuid : ι) (hurt : ℤ)
  /-- A second passes.  If the animal is killed, its roles are visited in this order. -/
  | second (order : List ι)
  | mail
  | sent
  | revive

def Game.reduceHp (data : RareAnimalData κ) (game : Game ι κ) (order : List ι) :
    Option (Game ι κ) :=
  let animal := { game.animal with percentHp := game.animal.percentHp - data.percentHp }
  if animal.percentHp ≤ 0 then
    if order.Perm animal.roleDict then
      some { game with
        animal := animal.onKill
        pending := some (order.map fun uuid => (uuid, data.mailInfo (animal.hurtRank.rank uuid)))
        standing := animal.hurtRank }
    else none
  else some { game with animal := animal }

/-- One step; nothing if the event cannot happen. -/
def step (data : RareAnimalData κ) (game : Game ι κ) : HuntEvent ι → Option (Game ι κ)
  | .join uuid =>
      some { game with
        animal := game.animal.huntStar uuid
        joined :=
          if game.animal.isDeath ∨ uuid ∈ game.joined then game.joined else game.joined ++ [uuid] }
  | .hit uuid hurt =>
      (game.animal.onHunt uuid hurt).map fun animal =>
        { game with
          animal := animal
          hits :=
            if game.animal.isDeath ∨ uuid ∉ game.joined then game.hits
            else game.hits ++ [(uuid, hurt)] }
  | .second order => if game.animal.reduceHpTimer then game.reduceHp data order else none
  | .mail =>
      match game.pending with
      | some (next :: rest) =>
          some { game with pending := some rest, mails := game.mails ++ [next] }
      | _ => none
  | .sent =>
      match game.pending with
      | some [] => some { game with animal := game.animal.clear, pending := none }
      | _ => none
  | .revive =>
      if game.animal.isDeath ∧ game.pending.isNone then
        some ⟨game.animal.revive, none, [], [], ⟨[], fun _ => none⟩, []⟩
      else none

def Game.new (ι κ : Type*) : Game ι κ :=
  ⟨.new ι, none, [], [], ⟨[], fun _ => none⟩, []⟩

def accumulated (hits : List (ι × ℤ)) (uuid : ι) : ℤ :=
  ((hits.filter fun hit => hit.1 = uuid).map Prod.snd).sum

omit [DecidableEq ι] in
def HasHit (hits : List (ι × ℤ)) (uuid : ι) : Prop :=
  uuid ∈ hits.map Prod.fst

/-- The ranking has the top participants. -/
structure Top (hits : List (ι × ℤ)) (ranked : Ranked ι) : Prop where
  listed : ∀ uuid ∈ ranked.list, HasHit hits uuid
  /-- All of them are, if they are no more than `RankLen`. -/
  all : (hits.map Prod.fst).toFinset.card ≤ rankLen → ∀ uuid, HasHit hits uuid → uuid ∈ ranked.list
  /-- Otherwise `RankLen` of them are. -/
  full : rankLen < (hits.map Prod.fst).toFinset.card → ranked.list.length = rankLen
  best : ∀ uuid ∈ ranked.list, ∀ other, HasHit hits other → other ∉ ranked.list →
    accumulated hits other ≤ accumulated hits uuid
  sorted : Descending (accumulated hits) ranked.list
  inOrder : ranked.InOrder
  absent : ∀ uuid, uuid ∉ ranked.list → ranked.rank uuid = none

/-- What the ranking is to be at every moment. -/
structure Good (data : RareAnimalData κ) (game : Game ι κ) : Prop where
  /-- The ranking of a living animal has the top participants. -/
  top : game.animal.isDeath = false → Top game.hits game.animal.hurtRank
  standing : game.animal.isDeath = true → Top game.hits game.standing
  once : game.joined.Nodup
  /-- The mails of a kill, sent or not, are one for every role, for its rank at the kill. -/
  rewarded : game.animal.isDeath = true → (game.mails ++ game.pending.getD []).Perm
    (game.joined.map fun uuid => (uuid, data.mailInfo (game.standing.rank uuid)))
  sound : ∀ uuid hurt, (game.animal.onHunt uuid hurt).isSome

/-- The condition on a counted hit.  After the hit of a listed role nobody behind it or left out has
more than it.  Where the list is full, the last role compares in the same way with the hit of a role as
with what this role has accumulated. -/
def Fits (animal : AnimalCls ι) (hits : List (ι × ℤ)) (uuid : ι) (hurt : ℤ) : Prop :=
  if uuid ∈ animal.hurtRank.list then
    ∀ other, HasHit hits other → other ∉ animal.hurtRank.list.takeWhile (· ≠ uuid) →
      other ≠ uuid → animal.hurt other ≤ animal.hurt uuid + hurt
  else
    ∀ last, animal.hurtRank.list.getLast? = some last → animal.hurtRank.list.length = rankLen →
      if hurt ≤ animal.hurt last then animal.hurt uuid + hurt ≤ animal.hurt last
      else animal.hurt last ≤ animal.hurt uuid + hurt

def Permitted (game : Game ι κ) : HuntEvent ι → Prop
  | .hit uuid hurt =>
      game.animal.isDeath = false → uuid ∈ game.joined → Fits game.animal game.hits uuid hurt
  | _ => True

end

end UEServer.Hunt
