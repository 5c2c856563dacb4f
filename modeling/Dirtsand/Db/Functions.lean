import Dirtsand.Db.Tables

/-!
# The functions of the database

The functions of db/functions.sql that the daemon calls.

A `SELECT` without an order gives its rows in any order, and each call of a recursive
function makes one of its own: `select` stands for these.  How deep a recursion goes is
bounded by the fuel, and `none` is that it goes deeper.
-/

namespace Dirtsand.Db

/-! ## References -/

/-- `SELECT * FROM vault."NodeRefs" WHERE "ParentIdx"=nodeId` for every `nodeId`. -/
def Selects (refs : List RefRow) (select : Int32 → List RefRow) : Prop :=
  ∀ nodeId, (select nodeId).Perm (refs.filter fun row => row.parentIdx = nodeId)

/-- The loop of `vault.fetch_tree`. -/
def fetchTreeLoop (recurse : Int32 → Option (List RefRow)) : List RefRow → Option (List RefRow)
  | [] => some []
  | curNode :: rest => do
    let subtree ← recurse curNode.childIdx
    let others ← fetchTreeLoop recurse rest
    return curNode :: (subtree ++ others)

/-- `vault.fetch_tree`. -/
def fetchTree (select : Int32 → List RefRow) : Nat → Int32 → Option (List RefRow)
  | 0, _ => none
  | fuel + 1, nodeId => fetchTreeLoop (fetchTree select fuel) (select nodeId)

/-- The loop of `vault.has_node`. -/
def hasNodeLoop (recurse : Int32 → Option Bool) (childId : Int32) : List RefRow → Option Bool
  | [] => some false
  | curNode :: rest =>
    if curNode.childIdx = childId then some true
    else do
      if ← recurse curNode.childIdx then return true
      hasNodeLoop recurse childId rest

/-- `vault.has_node`. -/
def hasNode (select : Int32 → List RefRow) : Nat → Int32 → Int32 → Option Bool
  | 0, _, _ => none
  | fuel + 1, parentId, childId =>
    hasNodeLoop (fun nodeId => hasNode select fuel nodeId childId) childId (select parentId)

/-! ## Folders -/

/-- `vault.find_folder`: a node that is referenced twice comes once. -/
def findFolder (d : Tables) (nodeId : Int32) (folderType : Int) : List NodeRow :=
  d.nodes.filter fun row =>
    (d.refs.any fun ref => ref.parentIdx = nodeId ∧ ref.childIdx = row.idx) ∧
      (row.node.nodeType = some 22 ∨ row.node.nodeType = some 30 ∨ row.node.nodeType = some 34) ∧
      row.node.int32_1 = some folderType

/-! ## Scores -/

/-- `auth.create_score`: the number of the new score, or -1. -/
def createScore (ownerId scoreType : Int32) (scoreName : String) (points : Int32) (d : Tables) :
    Option (Int32 × Tables) := do
  if d.scores.any fun row => row.ownerIdx = ownerId ∧ row.name = scoreName then return (-1, d)
  let name ← varchar 64 scoreName
  let idx ← inRange d.nextScore
  return (idx, { d with
    scores := d.scores ++ [{ idx, ownerIdx := ownerId, type := scoreType, name, points }]
    nextScore := d.nextScore + 1 })

/-- `UPDATE auth."Scores" SET "Points"=f("Points") WHERE idx=scoreId`. -/
def updatePoints (scoreId : Int32) (f : Int32 → Option Int32) (d : Tables) : Option Tables :=
  if d.scores.all fun row => row.idx ≠ scoreId || (f row.points).isSome then
    some { d with scores := d.scores.map fun row =>
      if row.idx = scoreId then { row with points := (f row.points).getD row.points } else row }
  else none

/-- `SELECT "Points" FROM auth."Scores" WHERE idx=scoreId LIMIT 1`, where no row is
`NULL`. -/
def selectPoints (scoreId : Int32) (d : Tables) : Option Int32 :=
  (d.scores.find? fun row => row.idx = scoreId).map (·.points)

/-- `(dbPoints + points >= 0) OR allowNegative`, where `NULL` is false; the outer `none` is
an overflow. -/
def enough (dbPoints : Option Int32) (points : Int) (allowNegative : Bool) : Option Bool :=
  match dbPoints with
  | none => some allowNegative
  | some dbPoints => (inRange (dbPoints.toInt + points)).map fun sum => 0 ≤ sum.toInt || allowNegative

/-- `auth.add_score_points`. -/
def addScorePoints (scoreId points : Int32) (allowNegative : Bool) (d : Tables) :
    Option (Bool × Tables) := do
  if ← enough (selectPoints scoreId d) points.toInt allowNegative then
    return (true, ← updatePoints scoreId (fun old => inRange (old.toInt + points.toInt)) d)
  else
    return (false, ← updatePoints scoreId (fun _ => some 0) d)

/-- `auth.transfer_score_points`. -/
def transferScorePoints (srcScoreId dstScoreId numPoints : Int32) (allowNegative : Bool)
    (d : Tables) : Option (Bool × Tables) := do
  if ← enough (selectPoints srcScoreId d) (-numPoints.toInt) allowNegative then
    let d ← updatePoints srcScoreId (fun old => inRange (old.toInt - numPoints.toInt)) d
    return (true, ← updatePoints dstScoreId (fun old => inRange (old.toInt + numPoints.toInt)) d)
  else
    return (false, d)

end Dirtsand.Db
