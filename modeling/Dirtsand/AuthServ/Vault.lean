import Dirtsand.AuthServ.Postgres

/-!
# The vault functions of the daemon

`gen_uuid` and the `v_` functions of AuthServ/AuthVault.cpp that the handlers
call.  Those that `v_create_player` reaches as well as others take the place of
the call with them.
-/

namespace Dirtsand.AuthServ

open Lib.Prog

/-- `gen_uuid`. -/
def genUuid (site : CallSite) : DM Uuid := do
  let result ← exec site .genUuid
  if result.status ≠ .tuplesOk then return .null
  dsAssert (result.ntuples = 1)
  uuidAt result 0 0

/-- `if (id.isNull()) id = gen_uuid();`. -/
def uuidOrNew (site : CallSite) (id : Uuid) : DM Uuid :=
  if id.isNull then genUuid site else pure id

/-! ## Nodes -/

/-- `v_create_node`. -/
def vCreateNode (site : CallSite) (node : Vault.Node) : DM UInt32 := do
  let result ← exec site (.createNode node)
  if result.status ≠ .tuplesOk then return 0
  dsAssert (result.ntuples = 1)
  numAt result 0 0

/-- `v_has_node`. -/
def vHasNode (parentId childId : UInt32) : DM Bool := do
  if parentId = 0 then return false
  if parentId = childId then return true
  let result ← exec .handler (.hasNode parentId childId)
  if result.status ≠ .tuplesOk then return false
  dsAssert (result.ntuples = 1)
  match result.getvalue 0 0 with
  | some text => return text.toList.head? = some 't'
  | none => crash

/-- `v_update_node`. -/
def vUpdateNode (node : Vault.Node) : DM Bool := do
  let result ← exec .handler (.updateNode node)
  return result.status = .commandOk

/-- `if (!PQgetisnull(result, 0, j)) node.set_...(...)`. -/
def unlessNull {α : Type} (result : PGresult) (j : Nat) (read : DM α) : DM (Option α) := do
  if result.getisnull 0 j then return none
  return some (← read)

/-- `v_fetch_node`. -/
def vFetchNode (ext : External) (nodeIdx : UInt32) : DM Vault.Node := do
  let result ← exec .handler (.fetchNode nodeIdx)
  if result.status ≠ .tuplesOk then return {}
  if result.ntuples = 0 then return {}
  let num (j : Nat) : DM (Option UInt32) := unlessNull result j (numAt result 0 j)
  let int (j : Nat) : DM (Option Int) := unlessNull result j (intAt result 0 j)
  let uuid (j : Nat) : DM (Option Uuid) := unlessNull result j (uuidAt result 0 j)
  let text (j : Nat) : DM (Option String) := unlessNull result j (textAt ext result 0 j)
  let blob (j : Nat) : DM (Option Vault.Blob) := unlessNull result j (blobAt ext result 0 j)
  return {
    nodeIdx := some (← numAt result 0 0)
    createTime := some (← numAt result 0 1)
    modifyTime := some (← numAt result 0 2)
    createAgeName := ← text 3
    createAgeUuid := ← uuid 4
    creatorUuid := ← uuid 5
    creatorIdx := ← num 6
    nodeType := some (toInt32 (← numAt result 0 7).toNat)
    int32_1 := ← int 8
    int32_2 := ← int 9
    int32_3 := ← int 10
    int32_4 := ← int 11
    uint32_1 := ← num 12
    uint32_2 := ← num 13
    uint32_3 := ← num 14
    uint32_4 := ← num 15
    uuid_1 := ← uuid 16
    uuid_2 := ← uuid 17
    uuid_3 := ← uuid 18
    uuid_4 := ← uuid 19
    string64_1 := ← text 20
    string64_2 := ← text 21
    string64_3 := ← text 22
    string64_4 := ← text 23
    string64_5 := ← text 24
    string64_6 := ← text 25
    iString64_1 := ← text 26
    iString64_2 := ← text 27
    text_1 := ← text 28
    text_2 := ← text 29
    blob_1 := ← blob 30
    blob_2 := ← blob 31 }

/-- `v_ref_node`. -/
def vRefNode (site : CallSite) (parentIdx childIdx ownerIdx : UInt32) : DM Bool := do
  let result ← exec site (.refNode parentIdx childIdx ownerIdx)
  return result.status = .commandOk

/-- A run of `if (!v_ref_node(parent, child, 0)) return ...;`, whose value says
that all went well. -/
def vRefNodes (site : CallSite) : List (UInt32 × UInt32) → DM Bool
  | [] => pure true
  | (parentIdx, childIdx) :: rest => do
    if !(← vRefNode site parentIdx childIdx 0) then return false
    vRefNodes site rest

/-- `v_unref_node`. -/
def vUnrefNode (parentIdx childIdx : UInt32) : DM Bool := do
  let result ← exec .handler (.unrefNode parentIdx childIdx)
  return result.status = .commandOk

/-- `v_fetch_tree`. -/
def vFetchTree (nodeId : UInt32) : DM (Option (List Vault.NodeRef)) := do
  let result ← exec .handler (.fetchTree nodeId)
  if result.status ≠ .tuplesOk then return none
  let refs ← forRows result fun i => do
    return { parent := ← numAt result i 0, child := ← numAt result i 1, owner := ← numAt result i 2 }
  return some refs

/-- `v_find_nodes`: a template that is null or has nothing but an index finds
nothing. -/
def vFindNodes (nodeTemplate : Vault.Node) : DM (Option (List UInt32)) := do
  if nodeTemplate.isNull then return none
  if ({ nodeTemplate with nodeIdx := none } : Vault.Node).isNull then return none
  let result ← exec .handler (.findNodes nodeTemplate)
  if result.status ≠ .tuplesOk then return none
  let nodes ← forRows result fun i => numAt result i 0
  return some nodes

/-- `v_send_node`. -/
def vSendNode (nodeId playerId senderId : UInt32) : DM Vault.NodeRef := do
  let result ← exec .handler (.findInbox playerId)
  if result.status ≠ .tuplesOk then return ⟨0, 0, 0⟩
  if result.ntuples = 0 then return ⟨0, 0, 0⟩
  let inbox ← numAt result 0 0
  if ← vRefNode .handler inbox nodeId senderId then
    return { parent := inbox, child := nodeId, owner := senderId }
  return ⟨0, 0, 0⟩

/-! ## Ages -/

/-- `AuthServer_AgeInfo`. -/
structure AgeInfo where
  ageId : Uuid := .null
  parentId : Uuid := .null
  filename : String := ""
  instName : String := ""
  userName : String := ""
  description : String := ""
  seqNumber : Int := 0
  language : Int := -1
deriving DecidableEq, Repr

/-- `e_AgePublic`. -/
def agePublic : UInt32 := 1

def someUnlessEmpty (text : String) : Option String := if text.isEmpty then none else some text

/-- `v_create_age` from the first node on. -/
def vCreateAgeNodes (ext : External) (site : CallSite) (age : AgeInfo) (seqNumber : Int)
    (flags : UInt32) : DM (UInt32 × UInt32) := do
  let parentId := if age.parentId.isNull then none else some age.parentId
  let ageNode ← vCreateNode site
    { nodeType := some Vault.NodeType.age.toInt, creatorUuid := some age.ageId
      uuid_1 := some age.ageId, uuid_2 := parentId, string64_1 := some age.filename }
  if ageNode = 0 then return (0, 0)
  let folder (type : Vault.NodeType) (folder : Vault.StandardNode) : Vault.Node :=
    { nodeType := some type.toInt, creatorUuid := some age.ageId, creatorIdx := some ageNode
      int32_1 := some folder.toInt }
  let chronFolder ← vCreateNode site (folder .folder .chronicleFolder)
  if chronFolder = 0 then return (0, 0)
  let knownFolder ← vCreateNode site (folder .playerInfoList .peopleIKnowAboutFolder)
  if knownFolder = 0 then return (0, 0)
  let subAgesFolder ← vCreateNode site (folder .ageInfoList .subAgesFolder)
  if subAgesFolder = 0 then return (0, 0)
  let ageInfoNode ← vCreateNode site
    { nodeType := some Vault.NodeType.ageInfo.toInt, creatorUuid := some age.ageId
      creatorIdx := some ageNode, int32_1 := some seqNumber
      int32_2 := some (if flags &&& agePublic ≠ 0 then 1 else 0), int32_3 := some age.language
      uint32_1 := some ageNode, uint32_2 := some 0, uint32_3 := some 0, uuid_1 := some age.ageId
      uuid_2 := parentId, string64_2 := some age.filename
      string64_3 := someUnlessEmpty age.instName, string64_4 := someUnlessEmpty age.userName
      text_1 := someUnlessEmpty age.description }
  if ageInfoNode = 0 then return (0, 0)
  let devsFolder ← vCreateNode site (folder .folder .ageDevicesFolder)
  if devsFolder = 0 then return (0, 0)
  let canVisitList ← vCreateNode site (folder .playerInfoList .canVisitFolder)
  if canVisitList = 0 then return (0, 0)
  let ageSdlNode ← vCreateNode site
    { nodeType := some Vault.NodeType.sdl.toInt, creatorUuid := some age.ageId
      creatorIdx := some ageNode, int32_1 := some 0, string64_1 := some age.filename
      blob_1 := some (ext.genDefaultSdl age.filename) }
  if ageSdlNode = 0 then return (0, 0)
  let ageOwners ← vCreateNode site (folder .playerInfoList .ageOwnersFolder)
  if ageOwners = 0 then return (0, 0)
  let childAges ← vCreateNode site (folder .ageInfoList .childAgesFolder)
  if childAges = 0 then return (0, 0)
  let systemNode := (← get).systemNode
  if !(← vRefNodes site [(ageNode, systemNode), (ageNode, chronFolder), (ageNode, knownFolder),
      (ageNode, subAgesFolder), (ageNode, ageInfoNode), (ageNode, devsFolder),
      (ageInfoNode, canVisitList), (ageInfoNode, ageSdlNode), (ageInfoNode, ageOwners),
      (ageInfoNode, childAges)]) then return (0, 0)
  let agedesc :=
    if !age.description.isEmpty then age.description
    else if !age.instName.isEmpty then age.instName
    else age.filename
  let result ← exec site (.insertServer age.ageId age.filename agedesc ageNode ageSdlNode)
  if result.status ≠ .commandOk then return (0, 0)
  return (ageNode, ageInfoNode)

/-- `v_create_age`. -/
def vCreateAge (ext : External) (site : CallSite) (age : AgeInfo) (flags : UInt32) :
    DM (UInt32 × UInt32) := do
  let ageId ← uuidOrNew site age.ageId
  let age := { age with ageId }
  if age.seqNumber < 0 then
    let result ← exec site .nextAgeSeq
    if result.status ≠ .tuplesOk then return (0, 0)
    dsAssert (result.ntuples = 1)
    let seqNumber ← intAt result 0 0
    vCreateAgeNodes ext site age seqNumber flags
  else vCreateAgeNodes ext site age age.seqNumber flags

/-- `v_count_age_owners`. -/
def vCountAgeOwners (ext : External) (ageInfoId : UInt32) : DM UInt32 := do
  let result ← exec .createPlayer (.findAgeOwners ageInfoId)
  if result.status ≠ .tuplesOk then return 0
  let parentIdx ← textAt ext result 0 0
  let result ← exec .createPlayer (.countOwners parentIdx)
  if result.status ≠ .tuplesOk then return 0
  numAt result 0 0

/-- `v_find_public_ages`. -/
def vFindPublicAges (ext : External) (ageFilename : String) : DM (Option (List NetAgeInfo)) := do
  let result ← exec .handler (.selectPublicAges ageFilename)
  if result.status ≠ .tuplesOk then return none
  let ages ← forRows result fun i => do
    return {
      instanceId := ← uuidAt result i 0
      instancename := ← textAt ext result i 1
      username := ← textAt ext result i 2
      description := ← textAt ext result i 3
      sequence := ← numAt result i 4
      language := ← numAt result i 5
      curPopulation := ← numAt result i 6
      population := ← numAt result i 7 }
  return some ages

/-! ## Players -/

/-- The loop of `find_a_friendly_neighborhood_for_our_new_visitor`, from row `i`
on: the first hood below the threshold, or 0. -/
def findHood (ext : External) (result : PGresult) : List Nat → DM UInt32
  | [] => pure 0
  | i :: rest => do
    let ageInfoId ← numAt result i 0
    let owners ← vCountAgeOwners ext ageInfoId
    if owners < ext.hoodPopThreshold then return ageInfoId
    findHood ext result rest

/-- A hood for the visitors that no other hood takes. -/
def newHood (ext : External) : DM UInt32 := do
  let ageId ← genUuid .createPlayer
  let hood ← vCreateAge ext .createPlayer
    { ageId, filename := "Neighborhood", instName := ext.hoodInstanceName
      userName := ext.hoodUserName
      description := ext.hoodUserName ++ " " ++ ext.hoodInstanceName, seqNumber := -1 }
    agePublic
  return hood.2

/-- `find_a_friendly_neighborhood_for_our_new_visitor`. -/
def findNeighborhood (ext : External) : DM (UInt32 × UInt32) := do
  let result ← exec .createPlayer .selectHoods
  if result.status ≠ .tuplesOk then return (0, 0)
  let found ← findHood ext result (List.range result.ntuples)
  let theHoodInfo ← (if found = 0 then newHood ext else pure found : DM UInt32)
  let result ← exec .createPlayer (.findHoodOwners theHoodInfo)
  if result.status = .tuplesOk then
    let ownersFolder ← numAt result 0 0
    return (theHoodInfo, ownersFolder)
  return (0, 0)

/-- `find_public_age_1` without a UUID. -/
def findPublicAge1 (filename : String) : DM UInt32 := do
  let result ← exec .createPlayer (.selectPublicAge filename)
  if result.status = .tuplesOk then
    if result.ntuples > 0 then numAt result 0 0 else pure 0
  else pure 0

/-- `v_create_player`. -/
def vCreatePlayer (ext : External) (acctId : Uuid) (player : PlayerInfo) :
    DM (UInt32 × UInt32 × UInt32) := do
  let playerIdx ← vCreateNode .createPlayer
    { nodeType := some Vault.NodeType.player.toInt, creatorUuid := some acctId
      int32_2 := some (toInt32 player.explorer.toNat), uuid_1 := some acctId
      string64_1 := some player.avatarModel, iString64_1 := some player.playerName }
  if playerIdx = 0 then return (0, 0, 0)
  let playerInfoNode ← vCreateNode .createPlayer
    { nodeType := some Vault.NodeType.playerInfo.toInt, creatorUuid := some acctId
      creatorIdx := some playerIdx, uint32_1 := some playerIdx
      iString64_1 := some player.playerName }
  if playerInfoNode = 0 then return (0, 0, 0)
  let folder (type : Vault.NodeType) (folder : Vault.StandardNode) : Vault.Node :=
    { nodeType := some type.toInt, creatorUuid := some acctId, creatorIdx := some playerIdx
      int32_1 := some folder.toInt }
  let buddyList ← vCreateNode .createPlayer (folder .playerInfoList .buddyListFolder)
  if buddyList = 0 then return (0, 0, 0)
  let ignoreList ← vCreateNode .createPlayer (folder .playerInfoList .ignoreListFolder)
  if ignoreList = 0 then return (0, 0, 0)
  let invites ← vCreateNode .createPlayer (folder .folder .playerInviteFolder)
  if invites = 0 then return (0, 0, 0)
  let agesNode ← vCreateNode .createPlayer (folder .ageInfoList .agesIOwnFolder)
  if agesNode = 0 then return (0, 0, 0)
  let journals ← vCreateNode .createPlayer (folder .folder .ageJournalsFolder)
  if journals = 0 then return (0, 0, 0)
  let chronicles ← vCreateNode .createPlayer (folder .folder .chronicleFolder)
  if chronicles = 0 then return (0, 0, 0)
  let visitFolder ← vCreateNode .createPlayer (folder .ageInfoList .agesICanVisitFolder)
  if visitFolder = 0 then return (0, 0, 0)
  let outfit ← vCreateNode .createPlayer (folder .folder .avatarOutfitFolder)
  if outfit = 0 then return (0, 0, 0)
  let closet ← vCreateNode .createPlayer (folder .folder .avatarClosetFolder)
  if closet = 0 then return (0, 0, 0)
  let inbox ← vCreateNode .createPlayer (folder .folder .inboxFolder)
  if inbox = 0 then return (0, 0, 0)
  let peopleNode ← vCreateNode .createPlayer (folder .playerInfoList .peopleIKnowAboutFolder)
  if peopleNode = 0 then return (0, 0, 0)
  let link (spawnPoint : String) : Vault.Node :=
    { nodeType := some Vault.NodeType.ageLink.toInt, creatorUuid := some acctId
      creatorIdx := some playerIdx, blob_1 := some spawnPoint.toUTF8.toList }
  let reltoLink ← vCreateNode .createPlayer (link "Default:LinkInPointDefault:;")
  if reltoLink = 0 then return (0, 0, 0)
  let hoodLink ← vCreateNode .createPlayer (link "Default:LinkInPointDefault:;")
  if hoodLink = 0 then return (0, 0, 0)
  let cityLink ← vCreateNode .createPlayer (link "Ferry Terminal:LinkInPointFerry:;")
  if cityLink = 0 then return (0, 0, 0)
  let ageId ← genUuid .createPlayer
  let reltoUser := player.playerName ++ "'s"
  let reltoAge ← vCreateAge ext .createPlayer
    { ageId, filename := "Personal", instName := "Relto", userName := reltoUser
      description := reltoUser ++ " " ++ "Relto" } 0
  if reltoAge.1 = 0 then return (0, 0, 0)
  let result ← exec .createPlayer (.findReltoOwners reltoAge.2)
  if result.status ≠ .tuplesOk then return (0, 0, 0)
  if result.ntuples = 0 then return (0, 0, 0)
  let ownerFolder ← numAt result 0 0
  if !(← vRefNode .createPlayer ownerFolder playerInfoNode 0) then return (0, 0, 0)
  let hoodAge ← findNeighborhood ext
  if hoodAge.1 = 0 then return (0, 0, 0)
  let cityAge ← findPublicAge1 "city"
  if cityAge = 0 then return (0, 0, 0)
  let systemNode := (← get).systemNode
  if !(← vRefNodes .createPlayer [(playerIdx, systemNode), (playerIdx, playerInfoNode),
      (playerIdx, buddyList), (playerIdx, ignoreList), (playerIdx, invites), (playerIdx, agesNode),
      (playerIdx, journals), (playerIdx, chronicles), (playerIdx, visitFolder),
      (playerIdx, outfit), (playerIdx, closet), (playerIdx, inbox), (playerIdx, peopleNode),
      (agesNode, reltoLink), (agesNode, hoodLink), (agesNode, cityLink), (reltoLink, reltoAge.2),
      (hoodLink, hoodAge.1), (cityLink, cityAge), (reltoAge.1, agesNode)]) then return (0, 0, 0)
  return (playerIdx, playerInfoNode, hoodAge.2)

end Dirtsand.AuthServ
