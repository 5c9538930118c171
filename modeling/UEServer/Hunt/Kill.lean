import UEServer.Hunt.Ranking
import UEServer.Library.Execution

/-!
# Whole hunts

Every participant is mailed once for its rank at the kill, and in a run that starts with a new animal
the ranking has the top participants throughout exactly if every hit is permitted.
-/

namespace UEServer.Hunt

open Rank Execution

section
variable {ι κ : Type*} [DecidableEq ι] {data : RareAnimalData κ} {game after : Game ι κ}

/-- What holds while the animal lives, whatever the hits are. -/
structure Alive (game : Game ι κ) : Prop where
  pending : game.pending = none
  mails : game.mails = []
  roleDict : game.animal.roleDict = game.joined
  hurt : game.animal.hurt = accumulated game.hits
  joined : ∀ uuid, HasHit game.hits uuid → uuid ∈ game.joined
  listed : Listed game.hits game.animal.hurtRank

/-- What holds after the kill, whatever the hits are. -/
structure Dead (data : RareAnimalData κ) (game : Game ι κ) : Prop where
  timer : game.animal.reduceHpTimer = false
  rewarded : (game.mails ++ game.pending.getD []).Perm
    (game.joined.map fun uuid => (uuid, data.mailInfo (game.standing.rank uuid)))
  cleared : game.pending = none →
    game.animal.roleDict = [] ∧ (game.animal.hurt = fun _ => 0) ∧
      game.animal.hurtRank = ⟨[], fun _ => none⟩

/-- What holds at every moment, whatever the hits are. -/
structure Kept (data : RareAnimalData κ) (game : Game ι κ) : Prop where
  once : game.joined.Nodup
  alive : game.animal.isDeath = false → Alive game
  dead : game.animal.isDeath = true → Dead data game

theorem alive_new : Alive (Game.new ι κ) where
  pending := rfl
  mails := rfl
  roleDict := rfl
  hurt := rfl
  joined _ hit := absurd hit List.not_mem_nil
  listed := Listed.nil

theorem kept_new (data : RareAnimalData κ) : Kept data (Game.new ι κ) :=
  ⟨List.nodup_nil, fun _ => alive_new, nofun⟩

theorem onHunt_of_dead (dead : game.animal.isDeath = true) (uuid : ι) (hurt : ℤ) :
    game.animal.onHunt uuid hurt = some game.animal :=
  if_pos dead

theorem onHunt_of_stranger {animal : AnimalCls ι} {uuid : ι} (stranger : uuid ∉ animal.roleDict)
    (hurt : ℤ) : animal.onHunt uuid hurt = some animal := by
  rw [AnimalCls.onHunt, ite_eq_left_iff]
  exact fun _ => if_neg stranger

theorem Kept.sound (kept : Kept data game) (uuid : ι) (hurt : ℤ) :
    (game.animal.onHunt uuid hurt).isSome := by
  cases death : game.animal.isDeath with
  | true =>
      rw [onHunt_of_dead death]
      rfl
  | false =>
      have alive := kept.alive death
      by_cases joined : uuid ∈ game.animal.roleDict
      · obtain ⟨after, struck, -⟩ := onHunt_struck death joined alive.listed hurt
        rw [struck]
        rfl
      · rw [onHunt_of_stranger joined]
        rfl

def Ordered (game : Game ι κ) : Prop :=
  Top game.hits (if game.animal.isDeath then game.standing else game.animal.hurtRank)

theorem Kept.good_iff (kept : Kept data game) : Good data game ↔ Ordered game := by
  rw [Ordered]
  constructor
  · intro good
    cases death : game.animal.isDeath with
    | true => exact good.standing death
    | false => exact good.top death
  · intro ordered
    refine ⟨fun alive => ?_, fun dead => ?_, kept.once, fun dead => (kept.dead dead).rewarded,
      kept.sound⟩
    · rwa [alive] at ordered
    · rwa [dead] at ordered

/-- What a step keeps, and when it keeps the order. -/
structure Steps (data : RareAnimalData κ) (game after : Game ι κ) (fits : Prop) : Prop where
  kept : Kept data after
  ordered : Ordered game → (Ordered after ↔ fits)

section
variable (kept : Kept data game)
include kept

theorem join_steps {uuid : ι} (taken : step data game (.join uuid) = some after) :
    Steps data game after True := by
  cases taken
  cases death : game.animal.isDeath with
  | true =>
      have same : game.animal.huntStar uuid = game.animal := if_pos death
      refine ⟨?_, ?_⟩
      · rw [same, if_pos (.inl rfl)]
        exact ⟨kept.once, kept.alive, kept.dead⟩
      · intro ordered
        rw [Ordered, same]
        exact iff_true_intro ordered
  | false =>
      have alive := kept.alive death
      by_cases joined : uuid ∈ game.joined
      · have known : uuid ∈ game.animal.roleDict := by rwa [alive.roleDict]
        have same : game.animal.huntStar uuid = { game.animal with reduceHpTimer := true } := by
          rw [AnimalCls.huntStar, if_neg (by simp [death]), if_pos known]
        rw [same, if_pos (.inr joined)]
        refine ⟨⟨kept.once, fun _ => ?_, fun dead => absurd (death.symm.trans dead) nofun⟩,
          fun ordered => iff_true_intro ordered⟩
        exact { alive with }
      · have fresh : ¬ HasHit game.hits uuid := fun hit => joined (alive.joined uuid hit)
        have unknown : uuid ∉ game.animal.roleDict := by rwa [alive.roleDict]
        have same_hurt : Function.update game.animal.hurt uuid 0 = game.animal.hurt := by
          refine Function.update_eq_self_iff.mpr ?_
          rw [alive.hurt, accumulated_of_not_hasHit fresh]
        have same_rank : Function.update game.animal.hurtRank.rank uuid none =
            game.animal.hurtRank.rank := by
          refine Function.update_eq_self_iff.mpr (Eq.symm ?_)
          exact alive.listed.absent uuid fun mem => fresh (alive.listed.listed uuid mem)
        have entered : game.animal.huntStar uuid = { game.animal with
            reduceHpTimer := true, roleDict := game.animal.roleDict ++ [uuid] } := by
          rw [AnimalCls.huntStar, if_neg (by simp [death]), if_neg unknown, same_hurt, same_rank]
        rw [entered, if_neg (by simp [joined])]
        refine ⟨⟨?_, fun _ => ?_, fun dead => absurd (death.symm.trans dead) nofun⟩, fun ordered => ?_⟩
        · exact kept.once.append (List.nodup_singleton uuid) (by simpa using joined)
        · refine { alive with roleDict := ?_, joined := fun other hit => ?_ }
          · rw [alive.roleDict]
          · exact List.mem_append_left _ (alive.joined other hit)
        · exact iff_true_intro ordered

theorem hit_steps {uuid : ι} {hurt : ℤ} (taken : step data game (.hit uuid hurt) = some after) :
    Steps data game after (Permitted game (.hit uuid hurt)) := by
  obtain ⟨animal, hunted, rfl⟩ := Option.map_eq_some_iff.mp taken
  cases death : game.animal.isDeath with
  | true =>
      rw [onHunt_of_dead death] at hunted
      cases hunted
      refine ⟨⟨kept.once, kept.alive, kept.dead⟩, fun ordered => ?_⟩
      exact iff_of_true ordered fun alive => absurd (death.symm.trans alive) nofun
  | false =>
      have alive := kept.alive death
      by_cases joined : uuid ∈ game.joined
      · have known : uuid ∈ game.animal.roleDict := by rwa [alive.roleDict]
        obtain ⟨ranked, struck_eq, struck⟩ := onHunt_struck death known alive.listed hurt
        rw [struck_eq] at hunted
        cases hunted
        rw [if_neg (by simp [joined])]
        refine ⟨⟨kept.once, fun _ => ?_, fun dead => absurd (death.symm.trans dead) nofun⟩,
          fun ordered => ?_⟩
        · refine ⟨alive.pending, alive.mails, alive.roleDict, ?_, fun other hit => ?_,
            struck.listed alive.listed⟩
          · rw [accumulated_concat, alive.hurt]
          · rcases hasHit_concat.mp hit with before | rfl
            · exact alive.joined other before
            · exact joined
        · rw [Ordered, if_neg (by simp [death])] at ordered
          rw [Ordered, if_neg (by simp [death]), struck.top_iff alive.listed ordered alive.hurt]
          exact ⟨fun fits _ _ => fits, fun permitted => permitted death joined⟩
      · have unknown : uuid ∉ game.animal.roleDict := by rwa [alive.roleDict]
        rw [onHunt_of_stranger unknown] at hunted
        cases hunted
        rw [if_pos (.inr joined)]
        refine ⟨⟨kept.once, kept.alive, kept.dead⟩, fun ordered => ?_⟩
        exact iff_of_true ordered fun _ here => absurd here joined

theorem second_steps {order : List ι} (taken : step data game (.second order) = some after) :
    Steps data game after True := by
  rw [step] at taken
  split at taken
  · rename_i timer
    have death : game.animal.isDeath = false := by
      cases death : game.animal.isDeath with
      | true => cases (kept.dead death).timer.symm.trans timer
      | false => rfl
    have alive := kept.alive death
    rw [Game.reduceHp] at taken
    split at taken
    · split at taken
      · rename_i order_perm
        cases taken
        refine ⟨⟨kept.once, nofun, fun _ => ⟨rfl, ?_, nofun⟩⟩, fun ordered => ?_⟩
        · rw [alive.mails, ← alive.roleDict]
          exact order_perm.map _
        · rw [Ordered, if_neg (by simp [death])] at ordered
          exact iff_true_intro ordered
      · cases taken
    · cases taken
      refine ⟨⟨kept.once, fun _ => ?_, fun dead => absurd (death.symm.trans dead) nofun⟩,
        fun ordered => iff_true_intro ordered⟩
      exact { alive with }
  · cases taken

theorem Kept.dead_of_pending {pending : List (ι × MailInfo κ)}
    (running : game.pending = some pending) : game.animal.isDeath = true := by
  cases death : game.animal.isDeath with
  | true => rfl
  | false => cases (kept.alive death).pending.symm.trans running

theorem mail_steps (taken : step data game .mail = some after) : Steps data game after True := by
  rw [step] at taken
  split at taken
  · rename_i next rest running
    have death := kept.dead_of_pending running
    have dead := kept.dead death
    cases taken
    refine ⟨⟨kept.once, fun alive => absurd (death.symm.trans alive) nofun,
      fun _ => ⟨dead.timer, ?_, nofun⟩⟩, fun ordered => iff_true_intro ordered⟩
    have rewarded := dead.rewarded
    rw [running] at rewarded
    simpa using rewarded
  · cases taken

theorem sent_steps (taken : step data game .sent = some after) : Steps data game after True := by
  rw [step] at taken
  split at taken
  · rename_i running
    have death := kept.dead_of_pending running
    have dead := kept.dead death
    cases taken
    refine ⟨⟨kept.once, fun alive => absurd (death.symm.trans alive) nofun,
      fun _ => ⟨dead.timer, ?_, fun _ => ⟨rfl, rfl, rfl⟩⟩⟩, fun ordered => ?_⟩
    · have rewarded := dead.rewarded
      rw [running] at rewarded
      exact rewarded
    · rw [Ordered, if_pos death] at ordered
      rw [Ordered]
      refine iff_true_intro ?_
      rwa [if_pos (show game.animal.clear.isDeath = true from death)]
  · cases taken

theorem revive_steps (taken : step data game .revive = some after) :
    Steps data game after True := by
  rw [step] at taken
  split at taken
  · rename_i dead
    obtain ⟨death, sent⟩ := dead
    obtain ⟨roleDict, hurt, hurtRank⟩ := (kept.dead death).cleared (Option.isNone_iff_eq_none.mp sent)
    cases taken
    refine ⟨⟨List.nodup_nil, fun _ => ?_, nofun⟩, fun _ => iff_true_intro ?_⟩
    · refine ⟨rfl, rfl, roleDict, hurt, fun uuid hit => absurd hit List.not_mem_nil, ?_⟩
      rw [AnimalCls.revive, hurtRank]
      exact Listed.nil
    · rw [Ordered, if_neg nofun, AnimalCls.revive, hurtRank]
      exact Listed.top_nil
  · cases taken

theorem step_steps {event : HuntEvent ι} (taken : step data game event = some after) :
    Steps data game after (Permitted game event) := by
  cases event with
  | join uuid => exact join_steps kept taken
  | hit uuid hurt => exact hit_steps kept taken
  | second order => exact second_steps kept taken
  | mail => exact mail_steps kept taken
  | sent => exact sent_steps kept taken
  | revive => exact revive_steps kept taken

end

/-- In a run from a new animal everything is right throughout exactly if every hit is permitted. -/
theorem hunt_iff (data : RareAnimalData κ) (events : List (HuntEvent ι)) (final : Game ι κ)
    (execution : run (step data) (Game.new ι κ) events = some final) :
    Always (step data) (Good data) (Game.new ι κ) events ↔
      Guarded (step data) Permitted (Game.new ι κ) events := by
  refine always_iff_guarded (fun kept _ taken => (step_steps kept taken).kept) ?_ execution
    (kept_new data) ((kept_new data).good_iff.mpr Listed.top_nil)
  intro before event next kept good taken
  have steps := step_steps kept taken
  rw [steps.kept.good_iff]
  exact steps.ordered (kept.good_iff.mp good)

end

def rabbit : RareAnimalData ℕ := ⟨1 / 2, [13001, 13002], [1017, 1018]⟩

/-- Two roles hunt it, the second one overtakes the first one, and a third one does not hit. -/
def rabbitRun : List (HuntEvent ℕ) :=
  [.join 1, .hit 1 4, .join 2, .second [], .hit 2 3, .hit 2 3, .join 3, .second [2, 3, 1], .hit 1 9,
    .mail, .mail, .mail, .sent, .revive]

theorem hunt_iff_rabbitRun :
    Always (step rabbit) (Good rabbit) (Game.new ℕ ℕ) rabbitRun ↔
      Guarded (step rabbit) Permitted (Game.new ℕ ℕ) rabbitRun :=
  hunt_iff rabbit rabbitRun _ (Option.some_get (by decide +kernel)).symm

/-- As many roles as the list has places for hit for 100 each, and one more hits twice for 60. -/
def crowdedRun : List (HuntEvent ℕ) :=
  (List.range rankLen).flatMap (fun uuid => [.join uuid, .hit uuid 100]) ++
    [.join rankLen, .hit rankLen 60, .hit rankLen 60]

/-- The last role has accumulated more than all others, and it is left out. -/
theorem crowdedRun_not_good :
    ∃ final, run (step rabbit) (Game.new ℕ ℕ) crowdedRun = some final ∧ ¬ Good rabbit final := by
  have passed : ∃ final ∈ run (step rabbit) (Game.new ℕ ℕ) crowdedRun,
      final.animal.isDeath = false ∧ 0 ∈ final.animal.hurtRank.list ∧
        rankLen ∈ final.hits.map Prod.fst ∧ rankLen ∉ final.animal.hurtRank.list ∧
          accumulated final.hits 0 < accumulated final.hits rankLen := by
    decide +kernel
  obtain ⟨final, execution, alive, listed, hit, out, more⟩ := passed
  refine ⟨final, execution, fun good => ?_⟩
  exact absurd more (not_lt.mpr ((good.top alive).best 0 listed rankLen hit out))

/-- Whatever the hits are, all who have joined are rewarded once for a kill, by the ranks of that
moment. -/
theorem hunters_rewarded {ι κ : Type*} [DecidableEq ι] (data : RareAnimalData κ)
    (events : List (HuntEvent ι)) : Always (step data) (Kept data) (Game.new ι κ) events :=
  always_invariant (fun kept taken => (step_steps kept taken).kept) (kept_new data)

end UEServer.Hunt
