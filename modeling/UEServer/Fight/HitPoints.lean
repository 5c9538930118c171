import Mathlib
import UEServer.Fight.Anger
import UEServer.Library.Follows

/-!
# Hit points through a battle

What holds of the hit points in every state of a battle, also of one that raises an error.
-/

namespace UEServer.Fight

/-- A battle whose units start with the hit points that they may have, and whose buffs leave alone
how many that are. -/
structure FairFight extends FightData where
  spares : ∀ buffId time info, (getBuffData buffId).doAt time = some info →
    info.attrName ≠ some .maxHp
  healthy : ∀ place data, lineUp place = some data →
    0 ≤ data.bare.hp ∧ data.bare.hp ≤ data.fightAttrDict .maxHp

instance : Coe FairFight FightData := ⟨FairFight.toFightData⟩

structure Healthy (start unit : BattleUnit) : Prop where
  nonneg : 0 ≤ unit.hp
  le_maxHp : unit.hp ≤ unit.attrDict .maxHp
  maxHp : unit.attrDict .maxHp = start.attrDict .maxHp
  buffs : ∀ buff ∈ unit.buffList, buff.attrDict .maxHp = 0
  unitId : unit.unitId = start.unitId
  spells : unit.spells = start.spells

/-- The units are healthy, and the hurt that they are credited with adds up to the hit points that
have been taken. -/
structure Sound (fight : FightData) (units : Place → BattleUnit) (removed : ℚ) : Prop where
  healthy : ∀ place, Healthy (fight.start.units place) (units place)
  finite : (Function.support fun place => (units place).totalHurt).Finite
  credited : ∑ᶠ place, (units place).totalHurt = removed

/-- The battle is sound, and has been so at all times. -/
def Lasting (fight : FightData) (game : Game) : Prop :=
  Sound fight game.units game.removed ∧
    ∀ moment ∈ game.history, Sound fight moment.units moment.removed

/-- The program keeps the battle lasting. -/
abbrev Safe (fight : FairFight) {α : Type} (program : M α) : Prop :=
  Keeps (Lasting fight) program ⊤

variable {fight : FairFight} {place caster self target : Place} {side : Side}

@[simp]
theorem Game.set_self (game : Game) (unit : BattleUnit) : (game.set place unit).units place = unit :=
  Function.update_self _ _ _

@[simp]
theorem Game.set_of_ne (game : Game) (unit : BattleUnit) {other : Place} (away : other ≠ place) :
    (game.set place unit).units other = game.units other :=
  Function.update_of_ne away _ _

theorem Game.forall_set (game : Game) {unit : BattleUnit} (p : Place → BattleUnit → Prop)
    (changed : p place unit) (rest : ∀ other, p other (game.units other)) (other : Place) :
    p other ((game.set place unit).units other) := by
  by_cases here : other = place
  · cases here
    rwa [Game.set_self]
  · rw [Game.set_of_ne _ _ here]
    exact rest other

instance note_keeps (event : Event) : Safe fight (note event) := by
  refine .modify fun game lasting => ⟨lasting.1, fun moment mem => ?_⟩
  rcases List.mem_append.mp mem with mem | mem
  · exact lasting.2 moment mem
  · cases List.mem_singleton.mp mem
    exact lasting.1

theorem getUnit_keeps : Keeps (Lasting fight) (getUnit place) (Healthy (fight.start.units place)) :=
  .bind .get fun _ lasting => .pure (lasting.1.healthy place)

theorem modifyUnit_keeps {change : BattleUnit → BattleUnit}
    (kept : ∀ unit, Healthy (fight.start.units place) unit →
      Healthy (fight.start.units place) (change unit) ∧
        (change unit).totalHurt = unit.totalHurt) :
    Safe fight (modifyUnit place change) := by
  refine .modify fun game lasting => ⟨?_, lasting.2⟩
  have sound := lasting.1
  have changed := kept _ (sound.healthy place)
  have same : (fun other => ((game.set place (change (game.units place))).units other).totalHurt) =
      fun other => (game.units other).totalHurt :=
    funext (game.forall_set (fun other unit => unit.totalHurt = (game.units other).totalHurt)
      changed.2 fun _ => rfl)
  exact ⟨game.forall_set (fun other => Healthy (fight.start.units other)) changed.1 sound.healthy,
    same ▸ sound.finite, same ▸ sound.credited⟩

instance random_keeps : Safe fight random :=
  .bind .get fun _ _ => .bind (.modify fun _ lasting => lasting) fun _ _ => .pure trivial

instance {α : Type} : Safe fight (raise : M α) := by
  unfold raise
  infer_instance

instance (first last : Int) : Safe fight (randomInt first last) := by
  unfold randomInt
  infer_instance

instance {α : Type} (list : List α) (index : Int) : Safe fight (entry list index) := by
  unfold entry
  split
  · split <;> infer_instance
  · infer_instance

instance {α : Type} (num : Nat) (list : List α) : Safe fight (pick num list) := by
  induction num generalizing list <;> unfold pick <;> infer_instance

instance (pos : Nat) : Safe fight (getNeighborColumn pos) := by
  unfold getNeighborColumn
  infer_instance

instance (pos : Nat) : Safe fight (aliveAt fight side pos) := by
  unfold aliveAt
  infer_instance

instance : Safe fight (getUnit place) :=
  getUnit_keeps.any

instance (anger : ℚ) (list : List Nat) (targets : List Place) :
    Safe fight (takeAnger fight side anger list targets) := by
  induction list generalizing targets <;> unfold takeAnger <;> infer_instance

instance (list : List Nat) : Safe fight (allAlive fight side list) := by
  induction list <;> unfold allAlive <;> infer_instance

instance (list : List Nat) : Safe fight (firstAlive fight side list) := by
  induction list <;> unfold firstAlive <;> infer_instance

instance (pos : Nat) : Safe fight (getColumnAttackPos pos) := by
  unfold getColumnAttackPos
  infer_instance

instance (angers : List ℚ) (targets : List Place) :
    Safe fight (angerLoop fight self side angers targets) := by
  induction angers generalizing targets <;> unfold angerLoop <;> infer_instance

instance (attackType : AttackType) : Safe fight (getAttackTarget fight self side attackType) := by
  cases attackType with
  | neighbor =>
      dsimp only [getAttackTarget, getAttackTargetNeighbor]
      refine .seq fun _ => .ite (fun _ => inferInstance) fun _ => .seq fun _ => .ite
        (fun _ => .seq fun _ => .seq fun _ => ?_) fun _ => .seq fun _ => .seq fun _ => ?_
      all_goals split <;> infer_instance
  | cureOne =>
      dsimp only [getAttackTarget, getAttackTargetCureOne, getAttackTargetAll]
      refine .seq fun _ => .seq fun _ => ?_
      split <;> infer_instance
  | _ =>
      dsimp only [getAttackTarget, getAttackTargetAll, getAttackTargetAngerNum,
        getAttackTargetColumn, getAttackTargetFrontRow, getAttackTargetBackRow,
        getAttackTargetBackOne, getAttackTargetFrontOne, getAttackTargetRandomNum,
        getAttackTargetColumnOne, getOneAttackPos]
      infer_instance

instance (attacked : List Place) (object : AddBuffType) :
    Safe fight (getAddBuffTarget fight self attacked object) := by
  cases object <;> dsimp only [getAddBuffTarget, getAddBuffTargetRandom, getAttackTargetAll] <;>
    infer_instance

theorem BattleUnit.hp_sub_lose (unit : BattleUnit) (hpDiff : ℚ) :
    unit.hp - (unit.lose hpDiff).hp = unit.realHurt hpDiff := by
  unfold lose realHurt
  split_ifs <;> dsimp only <;> linarith

theorem Healthy.lose {start unit : BattleUnit} (healthy : Healthy start unit) {hpDiff : ℚ}
    (neg : hpDiff < 0) : Healthy start (unit.lose hpDiff) := by
  have nonneg := healthy.nonneg
  have le_maxHp := healthy.le_maxHp
  unfold BattleUnit.lose
  split
  · exact { healthy with nonneg := le_rfl, le_maxHp := nonneg.trans le_maxHp, buffs := by simp }
  · exact { healthy with
      nonneg := by
        dsimp only
        linarith
      le_maxHp := by
        dsimp only
        linarith }

theorem Healthy.gain {start unit : BattleUnit} (healthy : Healthy start unit) {hpDiff : ℚ}
    (pos : 0 < hpDiff) : Healthy start (unit.gain hpDiff) := by
  have nonneg := healthy.nonneg
  have le_maxHp := healthy.le_maxHp
  refine { healthy with nonneg := ?_, le_maxHp := ?_ } <;> dsimp only [BattleUnit.gain] <;>
    split <;> linarith

theorem Sound.hurt {game : Game} (sound : Sound fight game.units game.removed) {hpDiff : ℚ}
    (neg : hpDiff < 0) :
    Sound fight (game.hurt place caster hpDiff).units (game.hurt place caster hpDiff).removed := by
  let real := (game.units place).realHurt hpDiff
  have lost : ((game.units place).lose hpDiff).totalHurt = (game.units place).totalHurt := by
    unfold BattleUnit.lose
    split <;> rfl
  have units : ∀ other, Healthy (fight.start.units other)
        ((game.set place ((game.units place).lose hpDiff)).units other) ∧
      ((game.set place ((game.units place).lose hpDiff)).units other).totalHurt =
        (game.units other).totalHurt :=
    game.forall_set (fun other unit => Healthy (fight.start.units other) unit ∧
        unit.totalHurt = (game.units other).totalHurt)
      ⟨(sound.healthy place).lose neg, lost⟩ fun other => ⟨sound.healthy other, rfl⟩
  have credits : (fun other => ((game.hurt place caster hpDiff).units other).totalHurt) =
      fun other => (game.units other).totalHurt + if other = caster then real else 0 := by
    funext other
    by_cases here : other = caster
    · cases here
      rw [if_pos rfl, ← (units caster).2]
      simp [Game.hurt, real]
    · rw [if_neg here, add_zero, ← (units other).2]
      simp [Game.hurt, here]
  have single : (Function.support fun other => if other = caster then real else 0).Finite :=
    (Set.finite_singleton caster).subset fun other given => by
      by_contra here
      exact given (if_neg here)
  refine ⟨Game.forall_set _ (fun other => Healthy (fight.start.units other))
    { (units caster).1 with } fun other => (units other).1, ?_, ?_⟩
  · rw [credits]
    exact (sound.finite.union single).subset (Function.support_add _ _)
  · rw [credits, finsum_add_distrib sound.finite single, sound.credited,
      finsum_eq_single _ caster fun _ other => if_neg other, if_pos rfl]
    exact congrArg _ ((game.units place).hp_sub_lose hpDiff).symm

instance (source : HurtSource) (hpDiff : ℚ) : Safe fight (hurt place caster source hpDiff) := by
  refine .seq fun _ => .ite (fun _ => inferInstance) fun neg => .seq fun _ =>
    .bind (.modify fun game lasting => ?_) fun _ _ => inferInstance
  exact ⟨lasting.1.hurt (by exact_mod_cast not_le.mp neg), lasting.2⟩

instance (source : CureSource) (hpDiff : ℚ) : Safe fight (cure place source hpDiff) := by
  refine .seq fun _ => .ite (fun _ => inferInstance) fun pos =>
    .bind (modifyUnit_keeps fun _ healthy => ?_) fun _ _ => inferInstance
  exact ⟨healthy.gain (by exact_mod_cast not_le.mp pos), rfl⟩

instance (angerDiff : ℚ) : Safe fight (changeAnger place angerDiff) :=
  modifyUnit_keeps fun _ healthy => ⟨{ healthy with }, rfl⟩

instance (value : ℚ) : Safe fight (hurtOrCure place caster value) := by
  unfold hurtOrCure
  infer_instance

instance (data : BuffData) (info : BuffInfo) :
    Safe fight (computeBuffHp data place caster info) := by
  unfold computeBuffHp
  refine .seq fun _ => ?_
  split <;> infer_instance

instance (data : BuffData) (info : BuffInfo) : Safe fight (computeBuffAnger data place info) := by
  unfold computeBuffAnger
  refine .seq fun _ => ?_
  split <;> infer_instance

theorem Healthy.set {start unit : BattleUnit} (healthy : Healthy start unit) (index : Nat)
    {buff : Buff} (spare : buff.attrDict .maxHp = 0) :
    ∀ other ∈ unit.buffList.set index buff, other.attrDict .maxHp = 0 := by
  intro other mem
  obtain mem | rfl := List.mem_or_eq_of_mem_set mem
  exacts [healthy.buffs other mem, spare]

section
variable {index : Nat} {buff : Buff} (spare : buff.attrDict .maxHp = 0)
include spare

theorem computeBuffValue_keeps (data : BuffData) {info : BuffInfo}
    (spares : info.attrName ≠ some .maxHp) :
    Keeps (Lasting fight) (computeBuffValue data place index buff info)
      fun next => next.attrDict .maxHp = 0 := by
  unfold computeBuffValue
  split
  · exact .pure spare
  · exact .seq fun _ => .pure spare
  · exact .seq fun _ => .pure spare
  · rename_i attr _ _ named
    have other : Attr.maxHp ≠ attr := fun same => spares (same ▸ named)
    have contributed : ∀ value, (buff.contribute attr value).attrDict .maxHp = 0 := by
      intro value
      rw [← spare]
      exact Function.update_of_ne other _ _
    refine .seq fun _ => .bind (modifyUnit_keeps fun unit healthy => ?_) fun _ _ =>
      .pure (contributed _)
    have same : ∀ value, (unit.contribute index buff attr value).attrDict .maxHp =
        unit.attrDict .maxHp := fun _ => Function.update_of_ne other _ _
    refine ⟨{ healthy with le_maxHp := ?_, maxHp := ?_, buffs := ?_ }, rfl⟩
    · rw [same]
      exact healthy.le_maxHp
    · rw [same]
      exact healthy.maxHp
    · exact healthy.set index (contributed _)

theorem becomeEffective_keeps (time : ComputeBuffTime) :
    Keeps (Lasting fight) (becomeEffective fight place index buff time)
      fun next => (next.getD buff).attrDict .maxHp = 0 := by
  unfold becomeEffective
  split
  · exact .pure spare
  · rename_i info does
    refine .bind (.bind (computeBuffValue_keeps spare _ (fight.spares _ _ _ does)) fun next spare => ?_)
      fun _ => .pure
    split
    · exact .pure spare
    · exact .seq fun _ => .bind (modifyUnit_keeps fun _ healthy =>
        ⟨{ healthy with buffs := healthy.set index spare }, rfl⟩) fun _ _ => .pure spare

theorem becomeInvalid_keeps : Safe fight (becomeInvalid place index buff) := by
  refine .seq fun _ => .seq fun _ => .ite
    (fun _ => modifyUnit_keeps fun unit healthy => ?_) fun _ => inferInstance
  have same : (unit.drop index buff).attrDict .maxHp = unit.attrDict .maxHp := by
    simp [BattleUnit.drop, spare]
  refine ⟨{ healthy with le_maxHp := ?_, maxHp := ?_, buffs := ?_ }, rfl⟩
  · rw [same]
    exact healthy.le_maxHp
  · rw [same]
    exact healthy.maxHp
  · exact fun other mem => healthy.buffs other (List.mem_of_mem_eraseIdx mem)

end

instance (buffIds : List Nat) : Safe fight (removeAll fight place buffIds) := by
  induction buffIds with
  | nil =>
      unfold removeAll
      infer_instance
  | cons buffId buffIds ih =>
      refine .bind (.bind getUnit_keeps fun unit healthy => ?_) fun _ (_ : True) => ih
      dsimp only
      split
      · exact .pure trivial
      · rename_i found
        exact .bind (becomeEffective_keeps (healthy.buffs _ (List.mem_of_getElem? found)) _)
          fun _ spare => becomeInvalid_keeps spare

instance (buffIds : List Nat) : Safe fight (removeBuff fight place buffIds) := by
  unfold removeBuff
  infer_instance

instance (time : ComputeBuffTime) (rounds index : Nat) (removed : List Nat) :
    Safe fight (computeBuffLoop fight place time rounds index removed) := by
  induction rounds generalizing index removed with
  | zero =>
      unfold computeBuffLoop
      infer_instance
  | succ rounds ih =>
      refine .bind getUnit_keeps fun unit healthy => ?_
      split
      · infer_instance
      · rename_i found
        exact .bind (becomeEffective_keeps (healthy.buffs _ (List.mem_of_getElem? found)) _)
          fun _ _ => inferInstance

instance (time : ComputeBuffTime) : Safe fight (computeBuffs fight place time) := by
  refine .seq fun _ => .seq fun removed => ?_
  cases removed <;> infer_instance

instance (buffId : Nat) : Safe fight (appendBuff fight place buffId caster) := by
  refine .seq fun _ => .seq fun _ =>
    .bind (modifyUnit_keeps fun _ healthy => ⟨{ healthy with buffs := ?_ }, rfl⟩) fun _ _ =>
      .bind (becomeEffective_keeps rfl _) fun _ _ => inferInstance
  intro buff mem
  rcases List.mem_append.mp mem with mem | mem
  · exact healthy.buffs buff mem
  · cases List.mem_singleton.mp mem
    rfl

instance (buffId : Nat) : Safe fight (addBuff fight place buffId caster) := by
  refine .seq fun _ => .ite (fun _ => inferInstance) fun _ => ?_
  split <;> infer_instance

instance (level : Int) (places : List Place) : Safe fight (spellClearAll fight level places) := by
  induction places <;> unfold spellClearAll <;> infer_instance

theorem reduceTemp_keeps (info : AttackDo) (attr : Attr) (targets : List Place) :
    Safe fight (reduceTemp info attr targets) := by
  induction targets with
  | nil => exact .pure trivial
  | cons place places ih =>
      exact .seq fun _ => .bind (modifyUnit_keeps fun _ healthy => ⟨{ healthy with }, rfl⟩)
        fun _ _ => ih

instance (data : BuffData) (info : AttackDo) (targets : List Place) (triggered : Triggered) :
    Safe fight (triggerBuff data info targets triggered) := by
  have := @reduceTemp_keeps fight
  unfold triggerBuff
  split
  · infer_instance
  · split <;> infer_instance

instance (targets : List Place) (buffs : List Buff) (triggered : Triggered) :
    Safe fight (triggerAll fight targets buffs triggered) := by
  induction buffs generalizing triggered <;> unfold triggerAll
  · infer_instance
  · dsimp only
    split <;> infer_instance

instance (hurt : ℚ) (buffs : List Buff) (rebound : Option ℚ) :
    Safe fight (hitAll fight place hurt buffs rebound) := by
  induction buffs generalizing rebound <;> unfold hitAll
  · infer_instance
  · dsimp only
    split
    · infer_instance
    · refine .seq fun _ => .ite (fun _ => ?_) fun _ => inferInstance
      split <;> infer_instance

instance (attacker unit : BattleUnit) (spell : SpellData) (hurtRate : ℚ) :
    Safe fight (computeHurt attacker unit spell hurtRate) := by
  unfold computeHurt
  infer_instance

instance (spell : Spell) (triggered : Triggered) :
    Safe fight (spellHpDiff self target spell triggered) := by
  refine .seq fun _ => .seq fun _ => .ite (fun _ => .ite (fun _ => ?_) fun _ => .seq fun _ => ?_)
    fun _ => inferInstance
  · unfold computeCure
    infer_instance
  · dsimp only
    split <;> infer_instance

instance (spell : SpellData) (hpDiff : ℚ) (hitTb : List NNRat) (singleHurt : ℚ) (missed : Bool) :
    Safe fight (hitLoop self target spell hpDiff hitTb singleHurt missed) := by
  induction hitTb generalizing singleHurt missed <;> unfold hitLoop <;> infer_instance

instance (spell : Spell) (triggered : Triggered) (targets : List Place) (hits : Hits) :
    Safe fight (hitTargets fight self spell triggered targets hits) := by
  induction targets generalizing hits <;> unfold hitTargets
  · infer_instance
  · unfold onHit
    infer_instance

instance (rebounds : List (ℚ × Place)) : Safe fight (reboundAll self rebounds) := by
  induction rebounds <;> unfold reboundAll <;> infer_instance

instance (places : List Place) : Safe fight (clearTempAttr places) := by
  induction places with
  | nil => exact .pure trivial
  | cons place places ih =>
      exact .bind (modifyUnit_keeps fun _ healthy => ⟨{ healthy with }, rfl⟩) fun _ _ => ih

instance (spell : Spell) (targets : List Place) :
    Safe fight (hitAndRebound fight self spell targets) := by
  unfold hitAndRebound checkIsTriggerBuff
  refine .seq fun triggered => .seq fun hits => ?_
  dsimp only [suckBlood]
  split <;> infer_instance

instance (added : AddedBuff) (missed : List Nat) (targets : List Place) :
    Safe fight (addToAll fight self added missed targets) := by
  induction targets <;> unfold addToAll <;> infer_instance

instance (attacked : List Place) (missed : List Nat) (addBuffList : List AddedBuff) :
    Safe fight (addBuffs fight self attacked missed addBuffList) := by
  induction addBuffList <;> unfold addBuffs <;> infer_instance

instance (reduce : ReduceAnger) (places : List Place) :
    Safe fight (spellReduceAnger reduce places) := by
  induction places <;> unfold spellReduceAnger <;> infer_instance

instance (spell : SpellData) (targets : List Place) :
    Safe fight (clearBuffs fight spell targets) := by
  unfold clearBuffs spellClearBuff
  split
  · infer_instance
  · refine .seq fun _ => .seq fun _ => ?_
    split <;> infer_instance

instance (spell : Spell) : Safe fight (castSpell fight self spell) := by
  refine .seq fun _ => .bind (modifyUnit_keeps fun _ healthy => ⟨{ healthy with }, rfl⟩)
    fun _ _ => .seq fun _ => .seq fun _ => .seq fun _ => .seq fun _ => ?_
  split <;> infer_instance

instance (spell : SpellData) : Safe fight (canCastSpell fight self spell) := by
  refine .seq fun _ => .ite (fun _ => inferInstance) fun _ => ?_
  split <;> infer_instance

instance (spellTypes : List Nat) : Safe fight (attackLoop fight self spellTypes) := by
  induction spellTypes <;> unfold attackLoop
  · infer_instance
  · refine .seq fun _ => ?_
    split <;> infer_instance

instance : Safe fight (endRound fight place) :=
  .seq fun _ => .bind (modifyUnit_keeps fun _ healthy =>
    ⟨{ healthy with buffs := List.forall_mem_map.mpr healthy.buffs }, rfl⟩) fun _ _ => inferInstance

instance : Safe fight (roundStart fight place) := by
  unfold roundStart beginRound attack
  infer_instance

instance (places : List Place) : Safe fight (startLoop fight places) := by
  induction places <;> unfold startLoop <;> infer_instance

instance (rounds : Nat) : Safe fight (roundLoop fight rounds) := by
  induction rounds with
  | zero => exact .pure trivial
  | succ rounds ih => exact .bind (.modify fun _ lasting => lasting) fun _ _ => inferInstance

instance (buffList : List Nat) : Safe fight (addOwnBuffs fight place buffList) := by
  induction buffList <;> unfold addOwnBuffs <;> infer_instance

instance (places : List Place) : Safe fight (newUnits fight places) := by
  induction places with
  | nil => exact .pure trivial
  | cons place places ih =>
      refine .bind (?_ : Keeps _ (newUnit fight place) ⊤) fun _ _ => ih
      unfold newUnit
      split
      · infer_instance
      · exact .seq fun _ => modifyUnit_keeps fun _ healthy => ⟨{ healthy with }, rfl⟩

theorem FairFight.lasting (fight : FairFight) : Lasting fight fight.start := by
  have fresh : ∀ place, (fight.start.units place).totalHurt = 0 := by
    intro place
    unfold FightData.start
    dsimp only
    split <;> rfl
  refine ⟨⟨fun place => ?_, ?_, ?_⟩, by simp [FightData.start]⟩
  · unfold FightData.start
    dsimp only
    split
    · exact ⟨le_rfl, le_rfl, rfl, by simp [noUnit], rfl, rfl⟩
    · rename_i data found
      obtain ⟨nonneg, le_maxHp⟩ := fight.healthy place data found
      exact ⟨nonneg, le_maxHp, rfl, by simp [UnitData.bare], rfl, rfl⟩
  · simp [fresh]
  · simp only [fresh, finsum_zero]
    rfl

end UEServer.Fight
