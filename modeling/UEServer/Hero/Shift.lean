import UEServer.Hero.Ops

/-!
# Changes of the computed fields

What `modify_hero_attr` and the loops that call it do: they leave the stored data alone and shift
the raw attributes of heroes.
-/

namespace UEServer.Hero

/-- A change of the raw attributes of the heroes. -/
abbrev Delta := Int → Attribute → ℚ

/-- A change of the raw attributes of one hero, if there is one. -/
def Delta.at (heroId : Option Int) (change : Attribute → ℚ) : Delta :=
  fun other attr => if heroId = some other then change attr else 0

/-- A role differs from another in the computed fields only, and the raw attributes of its heroes by
a change. -/
structure Shifts (param : ParamData) (role after : Role) (delta : Delta) : Prop where
  stored : after = { role with computed := after.computed }
  raw : ∀ heroId, (role.heroDict.get heroId).isSome → ∀ attr,
    (after.computed heroId).rawAttrDict.read attr =
      (role.computed heroId).rawAttrDict.read attr + delta heroId attr
  coherent : ∀ heroId, (role.computed heroId).Coherent param →
    (after.computed heroId).Coherent param

section
variable {param : ParamData} {role after last : Role} {delta next : Delta}

theorem Shifts.refl (role : Role) : Shifts param role role 0 :=
  ⟨rfl, fun _ _ _ => (add_zero _).symm, fun _ coherent => coherent⟩

theorem Shifts.trans (first : Shifts param role after delta)
    (second : Shifts param after last next) : Shifts param role last (delta + next) := by
  have heroes : after.heroDict = role.heroDict := by rw [first.stored]
  refine ⟨?_, fun heroId present attr => ?_, fun heroId coherent => ?_⟩
  · rw [second.stored, first.stored]
  · rw [second.raw heroId (by rw [heroes]; exact present), first.raw heroId present, add_assoc]
    rfl
  · exact second.coherent heroId (first.coherent heroId coherent)

theorem Shifts.congr (shifts : Shifts param role after delta)
    (same : ∀ heroId, (role.heroDict.get heroId).isSome → delta heroId = next heroId) :
    Shifts param role after next :=
  ⟨shifts.stored, fun heroId present attr => by
    rw [shifts.raw heroId present, same heroId present], shifts.coherent⟩

/-- A loop whose every step shifts the raw attributes by a change that depends on the stored data
shifts them by the sum of the changes. -/
theorem Shifts.foldl {ι : Type*} {f : Role → ι → Role} {change : ι → Delta} (items : List ι)
    (start : Shifts param role after delta)
    (each : ∀ computed, ∀ item ∈ items, Shifts param { role with computed }
      (f { role with computed } item) (change item)) :
    Shifts param role (items.foldl f after)
      (fun heroId attr => delta heroId attr + (items.map fun item => change item heroId attr).sum) := by
  induction items generalizing after delta with
  | nil => simpa using start
  | cons item items ih =>
      have step : Shifts param after (f after item) (change item) := by
        rw [start.stored]
        exact each after.computed item List.mem_cons_self
      have rest := ih (start.trans step) fun computed item mem =>
        each computed item (List.mem_cons_of_mem _ mem)
      refine rest.congr fun heroId _ => ?_
      simp only [Pi.add_apply, List.map_cons, List.sum_cons, add_assoc]

end

section
variable {config : Config} (role : Role)

theorem readOpt_of_keys_eq_nil {dict : AttrDict} (nothing : dict.keys = []) (attr : Attribute) :
    readOpt (some dict) attr = 0 := by
  refine @Table.read_of_not_mem _ _ _ _ dict _ ?_
  rw [nothing]
  exact List.not_mem_nil

theorem modifyHeroAttr_shifts (heroId : Option Int) (oldAttr newAttr : Option AttrDict) :
    Shifts config.param role (modifyHeroAttr config role heroId oldAttr newAttr)
      (.at heroId fun attr => readOpt newAttr attr - readOpt oldAttr attr) := by
  have unchanged : (∀ other, (role.heroDict.get other).isSome → ∀ attr,
      Delta.at heroId (fun attr => readOpt newAttr attr - readOpt oldAttr attr) other attr = 0) →
      Shifts config.param role role
        (.at heroId fun attr => readOpt newAttr attr - readOpt oldAttr attr) := by
    intro zero
    refine (Shifts.refl role).congr fun other present => funext fun attr => ?_
    exact (zero other present attr).symm
  have diff := fun attr => read_getAttrDictDiff oldAttr newAttr attr
  unfold modifyHeroAttr
  cases heroId with
  | none => exact unchanged fun other _ attr => if_neg nofun
  | some heroId =>
      cases made : getAttrDictDiff oldAttr newAttr with
      | none =>
          rw [made] at diff
          refine unchanged fun other _ attr => ?_
          have zero : readOpt newAttr attr - readOpt oldAttr attr = 0 := by
            rw [← diff, readOpt, Option.getD_none, Table.read_empty]
          simp only [Delta.at, zero, ite_self]
      | some dict =>
          rw [made] at diff
          dsimp only
          by_cases nothing : dict.keys = []
          · rw [if_pos nothing]
            refine unchanged fun other _ attr => ?_
            simp only [Delta.at, ← diff, readOpt_of_keys_eq_nil nothing, ite_self]
          rw [if_neg nothing]
          by_cases present : (role.heroDict.get heroId).isSome
          · rw [if_pos present]
            refine ⟨rfl, fun other _ attr => ?_, fun other coherent => ?_⟩
            · by_cases same : heroId = other
              · subst same
                simp only [Function.update_self, Computed.read_modify, Delta.at, if_true, ← diff]
                rfl
              · have different : some heroId ≠ some other := fun eq => same (Option.some.inj eq)
                simp only [Function.update_of_ne (Ne.symm same), Delta.at, if_neg different,
                  add_zero]
            · by_cases same : other = heroId
              · subst same
                simp only [Function.update_self]
                exact coherent.modify dict
              · simp only [Function.update_of_ne same]
                exact coherent
          · rw [if_neg present]
            refine unchanged fun other found attr => if_neg ?_
            intro eq
            cases eq
            exact present found

/-- What a hero gives the others of the line-up. -/
def givenOthers (config : Config) (role : Role) (heroId : Int) : Delta :=
  fun other attr => (role.lined.map fun lined =>
    if lined ≠ heroId ∧ lined = other then
      (getAddTalentAttr config role heroId (config.heroData other).power).read attr
    else 0).sum

def sign (isClear : Bool) : ℚ :=
  if isClear then -1 else 1

theorem changeAttr_shifts (isClear : Bool) (heroId : Int) (dict : AttrDict) :
    Shifts config.param role (changeAttr config role isClear heroId dict)
      (.at (some heroId) fun attr => sign isClear * dict.read attr) := by
  cases isClear with
  | true =>
      refine (modifyHeroAttr_shifts role (some heroId) (some dict) none).congr fun _ _ => ?_
      simp [readOpt, sign]
  | false =>
      refine (modifyHeroAttr_shifts role (some heroId) none (some dict)).congr fun _ _ => ?_
      simp [readOpt, sign]

theorem getAddTalentAttr_of_breakLv_zero {heroId : Int} {heroInfo : HeroInfo}
    (found : role.heroDict.get heroId = some heroInfo) (zero : heroInfo.breakLv = 0)
    (power : Nat) : getAddTalentAttr config role heroId power = Table.empty := by
  rw [getAddTalentAttr, found]
  dsimp only
  rw [zero]
  rfl

theorem changeGivenAttr_shifts {heroId : Int} {heroInfo : HeroInfo}
    (found : role.heroDict.get heroId = some heroInfo) (isClear : Bool) :
    Shifts config.param role (changeGivenAttr config role heroId heroInfo isClear)
      (fun other attr => sign isClear * givenOthers config role heroId other attr) := by
  unfold changeGivenAttr
  by_cases broken : heroInfo.breakLv > 0
  · rw [if_pos broken]
    refine (@Shifts.foldl _ _ _ _ _ _ (fun lined other attr =>
      sign isClear * if lined ≠ heroId ∧ lined = other then
        (getAddTalentAttr config role heroId (config.heroData other).power).read attr
      else 0) role.lined (Shifts.refl role) ?_).congr ?_
    · intro computed lined _
      by_cases same : lined = heroId
      · rw [if_neg (not_not.mpr same)]
        refine (Shifts.refl _).congr fun other _ => funext fun attr => ?_
        simp [same]
      · rw [if_pos same]
        refine (changeAttr_shifts { role with computed } isClear lined _).congr
          fun other _ => funext fun attr => ?_
        by_cases eq : lined = other
        · subst eq
          simp only [Delta.at, if_true, same, ne_eq, not_false_eq_true, and_self]
          rfl
        · have different : some lined ≠ some other := fun same => eq (Option.some.inj same)
          simp only [Delta.at, if_neg different, eq, and_false, if_false, mul_zero]
    · intro other _
      funext attr
      rw [givenOthers, ← List.sum_map_mul_left]
      simp only [Pi.zero_apply, zero_add]
  · rw [if_neg broken]
    have zero : heroInfo.breakLv = 0 := by omega
    refine (Shifts.refl role).congr fun other _ => funext fun attr => ?_
    simp [givenOthers, getAddTalentAttr_of_breakLv_zero role found zero]

theorem changeLineupHeroTalentAttr_shifts {heroId : Int}
    (present : (role.heroDict.get heroId).isSome) (isClear : Bool) :
    Shifts config.param role (changeLineupHeroTalentAttr config role heroId isClear)
      (fun other attr => sign isClear * (givenOthers config role heroId other attr +
        Delta.at (some heroId)
          (receivedAttr config role (config.heroData heroId).power).read other attr)) := by
  obtain ⟨heroInfo, found⟩ := Option.isSome_iff_exists.mp present
  unfold changeLineupHeroTalentAttr
  rw [found]
  dsimp only
  have given := @changeGivenAttr_shifts config role _ _ found isClear
  have received : receivedAttr config (changeGivenAttr config role heroId heroInfo isClear)
      (config.heroData heroId).power =
        receivedAttr config role (config.heroData heroId).power := by
    rw [given.stored]
    rfl
  rw [received]
  refine (given.trans (changeAttr_shifts _ isClear heroId _)).congr
    fun other _ => funext fun attr => ?_
  by_cases same : heroId = other
  · subst same
    simp only [Pi.add_apply, Delta.at, if_true, mul_add]
  · have different : some heroId ≠ some other := fun eq => same (Option.some.inj eq)
    simp only [Pi.add_apply, Delta.at, if_neg different, add_zero]

end

/-- A role differs from another in the heroes' fates and the computed fields only. -/
structure Refreshed (role after : Role) : Prop where
  stored : after = { role with heroDict := after.heroDict, computed := after.computed }
  heroes : ∀ heroId, (after.heroDict.get heroId).isSome = (role.heroDict.get heroId).isSome

section
variable {config : Config}

theorem Refreshed.refl (role : Role) : Refreshed role role :=
  ⟨rfl, fun _ => rfl⟩

theorem Refreshed.trans {role after last : Role} (first : Refreshed role after)
    (second : Refreshed after last) : Refreshed role last := by
  refine ⟨?_, fun heroId => (second.heroes heroId).trans (first.heroes heroId)⟩
  rw [second.stored, first.stored]

theorem Shifts.refreshed {param : ParamData} {role after : Role} {delta : Delta}
    (shifts : Shifts param role after delta) : Refreshed role after := by
  have heroes : after.heroDict = role.heroDict := by rw [shifts.stored]
  refine ⟨?_, fun heroId => by rw [heroes]⟩
  rw [heroes]
  exact shifts.stored

theorem Refreshed.setHero {role : Role} {heroId : Int} (present : (role.heroDict.get heroId).isSome)
    (heroInfo : HeroInfo) : Refreshed role (setHero role heroId heroInfo) := by
  refine ⟨rfl, fun other => ?_⟩
  change ((role.heroDict.set heroId (some heroInfo)).get other).isSome = _
  rw [Table.get_set]
  by_cases same : other = heroId
  · subst same
    rw [if_pos rfl, present]
    rfl
  · rw [if_neg same]

theorem refreshFate_refreshed (role : Role) (heroId : Option Int) :
    Refreshed role (refreshFate config role heroId) := by
  unfold refreshFate
  cases heroId with
  | none => exact .refl role
  | some heroId =>
      cases found : role.heroDict.get heroId with
      | none => simp only [found]; exact .refl role
      | some heroInfo =>
          simp only [found]
          split
          · exact (Refreshed.setHero (by rw [found]; rfl) _).trans
              (@modifyHeroAttr_shifts config _ _ _ _).refreshed
          · exact .refl role

theorem refreshFates_refreshed (role : Role) : Refreshed role (refreshFates config role) := by
  have loop : ∀ (heroes : List Int) (after : Role), Refreshed role after →
      Refreshed role
        (heroes.foldl (fun role heroId => refreshFate config role (some heroId)) after) := by
    intro heroes
    induction heroes with
    | nil => exact fun after refreshed => refreshed
    | cons heroId heroes ih =>
        exact fun after refreshed => ih _ (refreshed.trans (refreshFate_refreshed after _))
  exact loop role.lined role (.refl role)

end

theorem consuming_eq (config : Config) (force : Bool) (role : Role)
    (itemList : List Bag.Required) (next : Role → Role) :
    consuming config force role itemList next =
      if (consumeItemList config force role.bag itemList).1 then
        next { role with bag := (consumeItemList config force role.bag itemList).2 }
      else { role with bag := (consumeItemList config force role.bag itemList).2 } :=
  rfl

end UEServer.Hero
