import Dirtsand.AuthServ.Daemon
import Dirtsand.Db.Functions
import Dirtsand.Lib.Served

/-!
# The database that the daemon asks

What the statements of the daemon do with the tables (db/dbinit.sql,
db/functions.sql), and how the daemon reads what comes back.

Of the statements that only touch what the tables of `Db.Tables` leave out, any answer
is taken.  A statement may fail at any time; then it has changed no row.
-/

namespace Dirtsand.AuthServ

open Db (Tables integer inRange varchar storedFields assignFields)
open Lib.Prog

/-! ## Results as text -/

/-- A row with these columns. -/
def cells (values : List String) : Row := fun j => values[j]?

def intCell (v : Int32) : String := fromInt v.toInt

/-- `boolean` as libpq prints it. -/
def boolCell (b : Bool) : String := if b then "t" else "f"

def uuidCell (uuid : Uuid) : String := String.ofList uuid.toText

/-- The rows of `SELECT idx`. -/
def idxRows (rows : List Int32) : List Row := rows.map fun idx => cells [intCell idx]

/-! ## Statements -/

/-- `SELECT idx FROM vault."Nodes" WHERE ...`. -/
def nodeRows (d : Tables) (p : Vault.Node → Bool) : List Row :=
  idxRows ((d.nodes.filter fun row => p row.node).map (·.idx))

/-- `SELECT idx FROM vault.find_folder($1, $2)`. -/
def folderRows (d : Tables) (nodeId : UInt32) (folder : Vault.StandardNode) :
    Option (List Row) := do
  let nodeId ← integer nodeId
  return idxRows ((Db.findFolder d nodeId folder.toInt).map (·.idx))

/-- The rows of the `SELECT`s on the tables, where the parameters are taken.  `hoodUserName`
is the setting that `find_a_friendly_neighborhood_for_our_new_visitor` binds. -/
def selectRows (hoodUserName : String) (d : Tables) : Statement → Option (List Row)
  | .selectPlayerName playerName =>
    -- The number of a player's row is not kept.
    some ((d.players.filter fun row => row.playerName = cstr playerName).map fun _ => cells [""])
  | .selectOwnPlayer acctUuid playerId => do
    let playerId ← integer playerId
    return (d.players.filter fun row => row.acctUuid = acctUuid ∧ row.playerIdx = playerId).map
      fun _ => cells [""]
  | .selectPlayerInfo playerId => do
    let playerId ← integer playerId
    return nodeRows d fun node => node.uint32_1 = some playerId.toUInt32 ∧
      node.nodeType = some Vault.NodeType.playerInfo.toInt
  | .selectAgeNode ageId => some <| nodeRows d fun node => node.uuid_1 = some ageId ∧
      node.nodeType = some Vault.NodeType.age.toInt
  | .selectAgeInfoNode ageId => some <| nodeRows d fun node => node.uuid_1 = some ageId ∧
      node.nodeType = some Vault.NodeType.ageInfo.toInt
  | .selectHoods => some <| nodeRows d fun node => node.string64_2 = some "Neighborhood" ∧
      node.string64_4 = some (cstr hoodUserName)
  | .selectPublicAge filename => some <| nodeRows d fun node =>
      node.nodeType = some Vault.NodeType.ageInfo.toInt ∧ node.int32_2 = some 1 ∧
      node.string64_2 = some (cstr filename)
  | .findReltoOwners ageInfo => folderRows d ageInfo .ageOwnersFolder
  | .findHoodOwners hoodInfo => folderRows d hoodInfo .ageOwnersFolder
  | .findAgeOwners ageInfoId => folderRows d ageInfoId .ageOwnersFolder
  | .findScoreOwners owner => folderRows d owner .ageOwnersFolder
  | .findInbox playerId => folderRows d playerId .inboxFolder
  | .countOwners parentIdx =>
    some [cells [fromUint (d.refs.countP fun row => intCell row.parentIdx = parentIdx)]]
  | .selectServer instanceId =>
    some ((d.servers.filter fun row => row.ageUuid = instanceId).map fun row =>
      cells [intCell row.idx, intCell row.ageIdx, row.displayName])
  | .selectSdlServer nodeIdx => do
    let nodeIdx ← integer nodeIdx
    return idxRows ((d.servers.filter fun row => row.sdlIdx = nodeIdx).map (·.idx))
  | .selectScoreType scoreId => do
    let scoreId ← integer scoreId
    return idxRows ((d.scores.filter fun row => row.idx = scoreId).map (·.type))
  | .selectScoreTypes srcScoreId dstScoreId => do
    let srcScoreId ← integer srcScoreId
    let dstScoreId ← integer dstScoreId
    return idxRows ((d.scores.filter fun row => row.idx = srcScoreId ∨ row.idx = dstScoreId).map
      (·.type))
  | _ => none

/-- `UPDATE vault."Nodes" SET ... WHERE ...`. -/
def updateNodes (d : Tables) (p : Db.NodeRow → Bool) (f : Vault.Node → Vault.Node) : Tables :=
  { d with nodes := d.nodes.map fun row => if p row then { row with node := f row.node } else row }

/-- The `UPDATE`s of the `PlayerInfo` nodes of a player, which return their numbers. -/
def markPlayer (d : Tables) (playerId : UInt32) (f : Vault.Node → Vault.Node) :
    Option (QueryOutcome × Tables) := do
  let playerId ← integer playerId
  let p (node : Vault.Node) : Bool := node.nodeType = some Vault.NodeType.playerInfo.toInt ∧
    node.uint32_1 = some playerId.toUInt32
  return (.tuples (nodeRows d p), updateNodes d (fun row => p row.node) f)

/-- `dm_auth_set_public` and `dm_auth_set_private`. -/
def setVisible (d : Tables) (nodeid : UInt32) (visible : Int) :
    Option (QueryOutcome × Tables) := do
  let nodeid ← integer nodeid
  return (.command, updateNodes d
    (fun row => row.idx = nodeid ∧ row.node.nodeType = some Vault.NodeType.ageInfo.toInt)
    fun node => { node with int32_2 := some visible })

/-- `INSERT INTO game."Servers" ...`. -/
def insertServerRow (d : Tables) (ageUuid : Uuid) (ageFilename displayName : String)
    (ageIdx sdlIdx : UInt32) (temporary : Bool) : Option (Db.ServerRow × Tables) := do
  let idx ← inRange d.nextServer
  let ageFilename ← varchar 64 (cstr ageFilename)
  let displayName ← varchar 1024 (cstr displayName)
  let ageIdx ← integer ageIdx
  let sdlIdx ← integer sdlIdx
  let row := { idx, ageUuid, ageFilename, displayName, ageIdx, sdlIdx, temporary }
  return (row, { d with servers := d.servers ++ [row], nextServer := d.nextServer + 1 })

/-- What the statements that change the tables do, where they are carried out. -/
def carryOut (d : Tables) : Statement → Option (QueryOutcome × Tables)
  | .markOffline playerId => markPlayer d playerId fun node =>
      { node with int32_1 := some 0, string64_1 := some "", uuid_1 := some .null }
  | .markOnline playerId => markPlayer d playerId fun node =>
      { node with int32_1 := some 1, string64_1 := some "Lobby", uuid_1 := some .null }
  | .markInAge ageDesc instanceId playerId => do
    let ageDesc ← varchar 64 (cstr ageDesc)
    markPlayer d playerId fun node =>
      { node with string64_1 := some ageDesc, uuid_1 := some instanceId }
  | .insertPlayer acctUuid player => do
    let playerIdx ← integer player.playerId
    let playerName ← varchar 40 (cstr player.playerName)
    let avatarShape ← varchar 64 (cstr player.avatarModel)
    let explorer ← integer player.explorer
    return (.command, { d with
      players := d.players ++ [{ acctUuid, playerIdx, playerName, avatarShape, explorer }] })
  | .deletePlayer playerId => do
    let playerId ← integer playerId
    return (.command, { d with players := d.players.filter fun row => row.playerIdx ≠ playerId })
  | .deleteChildRefs playerInfo => do
    let playerInfo ← integer playerInfo
    return (.command, { d with refs := d.refs.filter fun row => row.childIdx ≠ playerInfo })
  | .insertTempServer instanceId name => do
    let (row, d) ← insertServerRow d instanceId name name 0 0 true
    return (.tuples [cells [intCell row.idx, intCell row.ageIdx, row.displayName]], d)
  | .insertServer ageId filename agedesc ageNode ageSdlNode => do
    let (_, d) ← insertServerRow d ageId filename agedesc ageNode ageSdlNode false
    return (.command, d)
  | .setPublic nodeid => setVisible d nodeid 1
  | .setPrivate nodeid => setVisible d nodeid 0
  | .createNode node => do
    let idx ← inRange d.nextNode
    let node ← storedFields node
    let _ ← node.nodeType
    return (.tuples [cells [intCell idx]],
      { d with nodes := d.nodes ++ [{ idx, node }], nextNode := d.nextNode + 1 })
  | .updateNode node => do
    let nodeIdx ← integer (node.nodeIdx.getD 0)
    let node ← storedFields node
    return (.command, updateNodes d (fun row => row.idx = nodeIdx) fun old => assignFields old node)
  | .refNode parentIdx childIdx ownerIdx => do
    let parentIdx ← integer parentIdx
    let childIdx ← integer childIdx
    let ownerIdx ← integer ownerIdx
    return (.command, { d with refs := d.refs ++ [{ parentIdx, childIdx, ownerIdx }] })
  | .unrefNode parentIdx childIdx => do
    let parentIdx ← integer parentIdx
    let childIdx ← integer childIdx
    return (.command, { d with
      refs := d.refs.filter fun row => ¬(row.parentIdx = parentIdx ∧ row.childIdx = childIdx) })
  | .createScore owner type name points => do
    let owner ← integer owner
    let type ← integer type
    let (scoreId, d) ← Db.createScore owner type (cstr name) points d
    return (.tuples [cells [intCell scoreId]], d)
  | .addScorePoints scoreId points allowNegative => do
    let scoreId ← integer scoreId
    let (done, d) ← Db.addScorePoints scoreId points (allowNegative ≠ 0) d
    return (.tuples [cells [boolCell done]], d)
  | .transferScorePoints srcScoreId dstScoreId points allowNegative => do
    let srcScoreId ← integer srcScoreId
    let dstScoreId ← integer dstScoreId
    let points ← integer points
    let (done, d) ← Db.transferScorePoints srcScoreId dstScoreId points (allowNegative ≠ 0) d
    return (.tuples [cells [boolCell done]], d)
  | .setScorePoints scoreId points => do
    let scoreId ← integer scoreId
    let d ← Db.updatePoints scoreId (fun _ => some points) d
    return (.command, d)
  | _ => none

/-- What a statement does. -/
inductive Statement.Kind where
  /-- It reads the tables. -/
  | select
  /-- It changes the tables. -/
  | change
  /-- It reads what the tables leave out. -/
  | read
  /-- It changes what the tables leave out. -/
  | write
  /-- A function of its own. -/
  | function
deriving DecidableEq

def Statement.kind : Statement → Statement.Kind
  | .selectAccount _ | .selectLogin _ | .selectPlayers _ | .selectPlayer .. | .selectScores ..
  | .selectAllScores .. | .selectOwnerScores .. | .selectAcctFlags _ | .fetchNode _ | .findNodes _
  | .selectPublicAges _ => .read
  | .insertAccount .. | .updateAcctFlags .. | .updateGlobalState _ => .write
  | .genUuid | .nextAgeSeq | .hasNode .. | .fetchTree _ => .function
  | .selectPlayerName _ | .selectOwnPlayer .. | .selectPlayerInfo _ | .selectAgeNode _
  | .selectAgeInfoNode _ | .selectHoods | .selectPublicAge _ | .findReltoOwners _
  | .findHoodOwners _ | .findAgeOwners _ | .findScoreOwners _ | .findInbox _ | .countOwners _
  | .selectServer _ | .selectSdlServer _ | .selectScoreType _ | .selectScoreTypes .. => .select
  | .markOffline _ | .markOnline _ | .markInAge .. | .insertPlayer .. | .deletePlayer _
  | .deleteChildRefs _ | .insertTempServer .. | .insertServer .. | .setPublic _ | .setPrivate _
  | .createNode _ | .updateNode _ | .refNode .. | .unrefNode .. | .createScore ..
  | .addScorePoints .. | .transferScorePoints .. | .setScorePoints .. => .change

theorem Statement.kind_of_selectRows {hoodUserName : String} {d : Tables} {q : Statement}
    (h : (selectRows hoodUserName d q).isSome = true) : q.kind = .select := by
  revert h
  cases q <;> intro h <;> first | rfl | cases h

theorem Statement.kind_of_change {d : Tables} {q : Statement}
    (h : (carryOut d q).isSome = true) : q.kind = .change := by
  revert h
  cases q <;> intro h <;> first | rfl | cases h

/-- The statement is carried out: `d` answers `q` with `a` and is `d'` then.  The rows of a
`SELECT` come in any order. -/
inductive Succeeds (hoodUserName : String) :
    Tables → CallSite × Statement → QueryOutcome → Tables → Prop where
  | select {d : Tables} {site : CallSite} {q : Statement} {rows rows' : List Row}
      (h : selectRows hoodUserName d q = some rows) (horder : rows'.Perm rows) :
      Succeeds hoodUserName d (site, q) (.tuples rows') d
  | change {d d' : Tables} {site : CallSite} {q : Statement} {a : QueryOutcome}
      (h : carryOut d q = some (a, d')) : Succeeds hoodUserName d (site, q) a d'
  | hasNode {d : Tables} {site : CallSite} {parentId childId : UInt32} {parent child : Int32}
      {select : Int32 → List Db.RefRow} {fuel : Nat} {found : Bool}
      (hparent : integer parentId = some parent) (hchild : integer childId = some child)
      (hselect : Db.Selects d.refs select) (h : Db.hasNode select fuel parent child = some found) :
      Succeeds hoodUserName d (site, .hasNode parentId childId) (.tuples [cells [boolCell found]]) d
  | fetchTree {d : Tables} {site : CallSite} {nodeId : UInt32} {node : Int32}
      {select : Int32 → List Db.RefRow} {fuel : Nat} {refs : List Db.RefRow}
      (hnode : integer nodeId = some node) (hselect : Db.Selects d.refs select)
      (h : Db.fetchTree select fuel node = some refs) :
      Succeeds hoodUserName d (site, .fetchTree nodeId) (.tuples (refs.map fun row =>
        cells [intCell row.parentIdx, intCell row.childIdx, intCell row.ownerIdx])) d
  /-- A new UUID is none that is in use. -/
  | genUuid {d : Tables} {site : CallSite} {uuid : Uuid} (hnull : uuid.isNull = false)
      (hservers : ∀ row ∈ d.servers, row.ageUuid ≠ uuid)
      (hnodes : ∀ row ∈ d.nodes, row.node.uuid_1 ≠ some uuid) :
      Succeeds hoodUserName d (site, .genUuid) (.tuples [cells [uuidCell uuid]]) d
  | nextAgeSeq {d : Tables} {site : CallSite} (n : Nat) :
      Succeeds hoodUserName d (site, .nextAgeSeq) (.tuples [cells [fromUint n]]) d
  | read {d : Tables} {site : CallSite} {q : Statement} (rows : List Row)
      (h : q.kind = .read) : Succeeds hoodUserName d (site, q) (.tuples rows) d
  | write {d : Tables} {site : CallSite} {q : Statement} (h : q.kind = .write) :
      Succeeds hoodUserName d (site, q) .command d

/-- The statement is carried out, or fails. -/
def Answers (hoodUserName : String) (d : Tables) (q : CallSite × Statement) (a : QueryOutcome)
    (d' : Tables) : Prop :=
  Succeeds hoodUserName d q a d' ∨ (a = .error ∨ a = .throws) ∧ d.SameRows d'

end Dirtsand.AuthServ
