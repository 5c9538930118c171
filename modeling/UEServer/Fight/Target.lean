import UEServer.Fight.Data

/-!
# The targets of spells

`BattleGround.lua`, and the parts of `Unit.lua` that choose the targets of spells and of buffs.
-/

namespace UEServer.Fight

def columnNum : Nat := 3

/-- `GetMaxPos`. -/
def maxPos : Nat := 6

def getTheSameColumn (pos : Nat) : List Nat :=
  if columnNum < pos then [pos - columnNum, pos] else [pos, pos + columnNum]

def getNeighborColumn (pos : Nat) : M (List Nat) := do
  if pos % columnNum = 0 then return getTheSameColumn (pos - 1)
  else if pos % columnNum = 1 then return getTheSameColumn (pos + 1)
  else do
    let index ← randomInt 1 2
    let neighbor ← entry [pos - 1, pos + 1] index
    return getTheSameColumn neighbor

def getColumnAttackPos (pos : Nat) : M (List Nat) := do
  let front := getTheSameColumn pos ++ (← getNeighborColumn pos)
  return front ++ positions.filter fun other => other ∉ front

/-- `GetOneAttackPos`: the front row and the back row. -/
def getOneAttackPos (pos : Nat) : M (List Nat × List Nat) := do
  let same := (getTheSameColumn pos).headD 0
  let neighbor := (← getNeighborColumn pos).headD 0
  let front := [same, neighbor] ++
    (positions.take columnNum).filter fun other => other ≠ same ∧ other ≠ neighbor
  return (front, front.map fun other => other + columnNum)

def getNeighborPos (pos : Nat) : List Nat :=
  getTheSameColumn pos ++
    (if pos + 1 ≠ columnNum + 1 ∧ pos + 1 ≠ maxPos + 1 then [pos + 1] else []) ++
    (if pos - 1 ≠ 0 ∧ pos - 1 ≠ columnNum then [pos - 1] else [])

def Game.alive (game : Game) (fight : FightData) (place : Place) : Bool :=
  fight.occupied place && !(game.units place).isDeath

/-- `next(unit) and not unit:IsDeath()`, of the unit at a position, which must be one. -/
def aliveAt (fight : FightData) (side : Side) (pos : Nat) : M Bool := do
  if pos ∈ positions then return (← get).alive fight { side, pos } else raise

def allAlive (fight : FightData) (side : Side) : List Nat → M (List Place)
  | [] => return []
  | pos :: rest => do
      let alive ← aliveAt fight side pos
      let others ← allAlive fight side rest
      return if alive then { side, pos } :: others else others

def firstAlive (fight : FightData) (side : Side) : List Nat → M (List Place)
  | [] => return []
  | pos :: rest => do
      if ← aliveAt fight side pos then return [{ side, pos }]
      else firstAlive fight side rest

def pick {α : Type} : Nat → List α → M (List α)
  | 0, _ => return []
  | num + 1, list => do
      let index ← randomInt 1 list.length
      let value ← entry list index
      let others ← pick num (list.eraseIdx (index.toNat - 1))
      return value :: others

def getAttackTargetAll (fight : FightData) (side : Side) : M (List Place) :=
  allAlive fight side positions

def maxAngerNum : Nat := 3

def FightData.units (fight : FightData) (side : Side) : List Place :=
  (positions.map fun pos => { side, pos }).filter fun place => fight.occupied place

def Game.maxAnger (game : Game) (fight : FightData) (side : Side) : ℚ :=
  (fight.units side).foldl (fun anger place => max anger (game.units place).anger) 0

/-- The loop over the column positions in `GetAttackTargetAngerNum`. -/
def takeAnger (fight : FightData) (side : Side) (anger : ℚ) :
    List Nat → List Place → M (List Place)
  | [], targets => return targets
  | pos :: rest, targets => do
      if ← aliveAt fight side pos then
        if (← getUnit { side, pos }).anger = anger then
          let targets := targets ++ [{ side, pos }]
          if maxAngerNum ≤ targets.length then return targets
          else takeAnger fight side anger rest targets
        else takeAnger fight side anger rest targets
      else takeAnger fight side anger rest targets

/-- The loop of `GetAttackTargetAngerNum`, from an anger down to zero. -/
def angerLoop (fight : FightData) (self : Place) (side : Side) :
    List ℚ → List Place → M (List Place)
  | [], targets => return targets
  | anger :: angers, targets => do
      let game ← get
      let group := (fight.units side).filter fun place => (game.units place).anger = anger
      if group = [] then angerLoop fight self side angers targets
      else do
        let targets ←
          if maxAngerNum < targets.length + group.length then do
            takeAnger fight side anger (← getColumnAttackPos self.pos) targets
          else pure (targets ++ group)
        if maxAngerNum ≤ targets.length then return targets
        else angerLoop fight self side angers targets

def getAttackTargetAngerNum (fight : FightData) (self : Place) (side : Side) :
    M (List Place) := do
  let all ← getAttackTargetAll fight side
  if all.length ≤ maxAngerNum then return all
  else do
    let maxAnger := (← get).maxAnger fight side
    angerLoop fight self side
      ((List.range (⌊maxAnger⌋.toNat + 1)).map fun (step : Nat) => maxAnger - step) []

def getAttackTargetColumn (fight : FightData) (self : Place) (side : Side) :
    M (List Place) := do
  let same ← allAlive fight side (getTheSameColumn self.pos)
  if same ≠ [] then return same
  else do
    let neighbors ← allAlive fight side (← getNeighborColumn self.pos)
    if neighbors ≠ [] then return neighbors
    else getAttackTargetAll fight side

def getAttackTargetFrontRow (fight : FightData) (side : Side) : M (List Place) := do
  let front ← allAlive fight side (positions.take columnNum)
  if front ≠ [] then return front
  else allAlive fight side (positions.drop columnNum)

def getAttackTargetBackRow (fight : FightData) (side : Side) : M (List Place) := do
  let back ← allAlive fight side (positions.drop columnNum)
  if back ≠ [] then return back
  else allAlive fight side (positions.take columnNum)

def getAttackTargetBackOne (fight : FightData) (self : Place) (side : Side) :
    M (List Place) := do
  let (front, back) ← getOneAttackPos self.pos
  firstAlive fight side (back ++ front)

def getAttackTargetFrontOne (fight : FightData) (self : Place) (side : Side) :
    M (List Place) := do
  let (front, back) ← getOneAttackPos self.pos
  firstAlive fight side (front ++ back)

def attackRandomNum : Nat := 3

def getAttackTargetRandomNum (fight : FightData) (side : Side) : M (List Place) := do
  let all ← getAttackTargetAll fight side
  if all.length ≤ attackRandomNum then return all
  else pick attackRandomNum all

def getAttackTargetColumnOne (fight : FightData) (self : Place) (side : Side) :
    M (List Place) := do
  firstAlive fight side (← getColumnAttackPos self.pos)

def getAttackTargetNeighbor (fight : FightData) (self : Place) (side : Side) :
    M (List Place) := do
  let pos := if columnNum < self.pos then self.pos - columnNum else self.pos
  let near ← allAlive fight side (getNeighborPos pos)
  if near ≠ [] then return near
  else do
    let after ← firstAlive fight side (positions.drop pos)
    let before ← if after ≠ [] then pure [] else firstAlive fight side (positions.take pos)
    note (.neighbor (after ++ before))
    match after ++ before with
    -- there is no list of positions
    | [] => raise
    | place :: _ => allAlive fight side (getNeighborPos place.pos)

/-- The choice of `GetAttackTargetCureOne` among the living units: the first that has the fewest
hit points of those that lack some. -/
def cureOne (game : Game) (places : List Place) : Option Place :=
  places.foldl
    (fun target place =>
      let unit := game.units place
      if unit.hp < unit.attrDict .maxHp then
        match target with
        | none => some place
        | some other => if unit.hp < (game.units other).hp then some place else target
      else target)
    none

def getAttackTargetCureOne (fight : FightData) (side : Side) : M (List Place) := do
  let all ← getAttackTargetAll fight side
  match cureOne (← get) all with
  | some target => return [target]
  | none => return all.take 1

def getAttackTarget (fight : FightData) (self : Place) (side : Side) :
    AttackType → M (List Place)
  | .all => getAttackTargetAll fight side
  | .angerNum => getAttackTargetAngerNum fight self side
  | .column => getAttackTargetColumn fight self side
  | .frontRow => getAttackTargetFrontRow fight side
  | .backRow => getAttackTargetBackRow fight side
  | .backOne => getAttackTargetBackOne fight self side
  | .frontOne => getAttackTargetFrontOne fight self side
  | .randomNum => getAttackTargetRandomNum fight side
  | .columnOne => getAttackTargetColumnOne fight self side
  | .neighbor => getAttackTargetNeighbor fight self side
  | .cureOne => getAttackTargetCureOne fight side
  | .extraCure _ _ => getAttackTargetAll fight side

/-- `GetAddBuffTargetAttack`: the living ones of the units that were attacked, by their
positions. -/
def getAddBuffTargetAttack (game : Game) (attacked : List Place) : List Place :=
  positions.filterMap fun pos =>
    (attacked.reverse.find? fun place => place.pos = pos).filter fun place =>
      !(game.units place).isDeath

/-- `GetAddBuffTargetRandomOwnN` and `GetAddBuffTargetRandomEnemyN`. -/
def getAddBuffTargetRandom (fight : FightData) (side : Side) (num : Nat) : M (List Place) := do
  let all ← getAttackTargetAll fight side
  if all.length ≤ num then return all
  else pick num all

def getAddBuffTarget (fight : FightData) (self : Place) (attacked : List Place) :
    AddBuffType → M (List Place)
  | .own => do
      if (← getUnit self).isDeath then return [] else return [self]
  | .attackTarget => return getAddBuffTargetAttack (← get) attacked
  | .ownAll => getAttackTargetAll fight self.side
  | .enemyAll => getAttackTargetAll fight self.side.other
  | .randomOwn num => getAddBuffTargetRandom fight self.side num
  | .randomEnemy num => getAddBuffTargetRandom fight self.side.other num

end UEServer.Fight
