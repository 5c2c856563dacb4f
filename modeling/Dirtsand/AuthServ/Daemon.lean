import Dirtsand.AuthServ.Vault

/-!
# The auth daemon

The handlers of AuthServ/AuthDaemon.cpp and the loop body of `dm_authDaemon`.

A message is its type, the connection whose channel its replies go to, and the
fields that the handler reads.  What the handler writes into it is the output of
the reply.

Left out are the messages that the broadcasts put on the broadcast channels.
The queries by which they pick their receivers are here.  That
`DS::GameServer_UpdateVaultSDL` may block is the subject of the modules on the
game server.
-/

namespace Dirtsand.AuthServ.Daemon

open Lib.Prog

/-! ## Messages -/

/-- The messages of `AuthDaemonMessages` that come with a client, each with its
payload. -/
inductive AuthMessage where
  | clientLogin (info : LoginInfo)
  | setPlayer
  | createPlayer (player : PlayerInfo)
  | deletePlayer (playerId : UInt32)
  | createNode (node : Vault.Node)
  | fetchNode (node : Vault.Node)
  | updateNode (node : Vault.Node) (revision : Uuid) (internal : Bool)
  | refNode (ref : Vault.NodeRef)
  | unrefNode (ref : Vault.NodeRef)
  | fetchNodeTree (nodeId : UInt32)
  | findNode (template : Vault.Node)
  | sendNode (nodeIdx playerIdx senderIdx : UInt32)
  | initAge (age : AgeInfo)
  | findGameServer (name : String) (instanceId : Uuid)
  | disconnect
  | addAcct (acctName : String)
  | getPublic (agename : String)
  | setPublic (node : UInt32) (isPublic : Bool)
  | createScore (owner type : UInt32) (name : String) (points : Int32)
  | getScores (owner : UInt32) (name : String)
  | addScorePoints (scoreId : UInt32) (points : Int32)
  | transferScorePoints (srcScoreId dstScoreId points : UInt32)
  | setScorePoints (scoreId : UInt32) (points : Int32)
  | getHighScores (owner : UInt32) (name : String) (maxScores : UInt32)
  | updateAgeSrv (playerId ageNodeId : UInt32)
  | acctFlags (acctName : String) (flags : UInt32)
  | restrictLogins
  | addAllPlayers (playerId : UInt32)
  | fetchSDL (ageFilename : String) (sdlNodeId : UInt32)
  | updateGlobalSDL (ageFilename varName value : String)
deriving DecidableEq, Repr

/-- `reinterpret_cast<AuthServer_Private*>(msg->m_client)`. -/
def getClient (c : ConnId) : DM AuthClient := do
  return (← get).clients c

def modifyClient (c : ConnId) (f : AuthClient → AuthClient) : DM Unit :=
  modify fun s => { s with clients := fun c' => if c' = c then f (s.clients c) else s.clients c' }

/-- `client->m_player.m_playerId = 0`. -/
def clearPlayer (c : ConnId) : DM Unit :=
  modifyClient c fun client => { client with player := { client.player with playerId := 0 } }

/-! ## Broadcasts -/

/-- The loop of the broadcasts: every client that has the node, by its age or by
its player, gets the message. -/
def bcastTo (nodeIdx : UInt32) : DM Unit := do
  let s ← get
  discard <| collect (fun c => do
    let client := s.clients c
    if ← vHasNode client.ageNodeId nodeIdx then return true
    vHasNode client.player.playerId nodeIdx) s.authClients

/-- `dm_auth_bcast_node`. -/
def dmAuthBcastNode (nodeIdx : UInt32) (_revision : Uuid) : DM Unit := bcastTo nodeIdx

/-- `dm_auth_bcast_ref`. -/
def dmAuthBcastRef (ref : Vault.NodeRef) : DM Unit := bcastTo ref.parent

/-- `dm_auth_bcast_unref`. -/
def dmAuthBcastUnref (ref : Vault.NodeRef) : DM Unit := bcastTo ref.parent

/-- `if (v_ref_node(...)) dm_auth_bcast_ref(...);`. -/
def refAndBcast (ref : Vault.NodeRef) : DM Unit := do
  if ← vRefNode .handler ref.parent ref.child ref.owner then dmAuthBcastRef ref

/-- `if (ref.m_child || ref.m_owner || ref.m_parent) dm_auth_bcast_ref(ref);`. -/
def bcastSent (ref : Vault.NodeRef) : DM Unit := do
  if ref.child ≠ 0 ∨ ref.owner ≠ 0 ∨ ref.parent ≠ 0 then dmAuthBcastRef ref

/-- The loop over the nodes that an `UPDATE ... RETURNING idx` has changed. -/
def bcastRows (result : PGresult) : DM Unit := do
  discard <| forRows result fun i => do
    let nodeid ← numAt result i 0
    dmAuthBcastNode nodeid (← genUuid .handler)

/-! ## Accounts and players -/

/-- `dm_auth_addacct`. -/
def dmAuthAddacct (acctName : String) : DM Unit := do
  let result ← exec .handler (.selectAccount acctName)
  if result.status ≠ .tuplesOk then sendReply .internalError
  else if result.ntuples = 0 then
    let acctUuid ← genUuid .handler
    let result ← exec .handler (.insertAccount acctName acctUuid)
    if result.status ≠ .commandOk then sendReply .internalError
    else sendReply .success
  else sendReply .accountAlreadyExists

/-- `DS::ShaHash(PQgetvalue(r, i, j))`. -/
def hashAt (r : PGresult) (i j : Nat) : DM ShaHash :=
  match r.getvalue i j with
  | some text => pure (ShaHash.ofText text.toList)
  | none => crash

/-- The two ways `dm_auth_login` checks the password hash it was sent. -/
def hashMatches (cred : Credentials) (client : AuthClient) (info : LoginInfo)
    (passhash : ShaHash) : Bool :=
  if cred.useEmailAuth info.acctName then
    cred.buggyHashLogin passhash client.serverChallenge info.clientChallenge = info.passHash
  else passhash = info.passHash.swapBytes

/-- `dm_auth_login` from the list of players on. -/
def dmAuthLoginPlayers (ext : External) (c : ConnId) (billingType : UInt32) : DM Unit := do
  let result ← exec .handler (.selectPlayers (← getClient c).acctUuid)
  if result.status ≠ .tuplesOk then sendReply .internalError
  else
    let players ← forRows result fun i => do
      return {
        playerId := ← numAt result i 0
        playerName := ← textAt ext result i 1
        avatarModel := ← textAt ext result i 2
        explorer := ← numAt result i 3 }
    sendReplyWith .success (.login billingType players)

/-- `dm_auth_login`. -/
def dmAuthLogin (ext : External) (c : ConnId) (info : LoginInfo) : DM Unit := do
  -- Reset UUID in case authentication fails
  modifyClient c fun client => { client with acctUuid := .null }
  let result ← exec .handler (.selectLogin info.acctName)
  if result.status ≠ .tuplesOk then sendReply .internalError
  else if result.ntuples = 0 then sendReply .authenticationFailed
  else if result.ntuples ≠ 1 then sendReply .authenticationFailed
  else
    let passhash ← hashAt result 0 0
    if !hashMatches ext.cred (← getClient c) info passhash then sendReply .authenticationFailed
    else
      let acctUuid ← uuidAt result 0 1
      modifyClient c fun client => { client with acctUuid }
      let acctFlags ← numAt result 0 2
      modifyClient c fun client => { client with acctFlags }
      let billingType ← numAt result 0 3
      if Banned acctFlags then sendReplyWith .accountBanned (.login billingType [])
      else if ShutOut (← get).restrictLogins acctFlags then
        sendReplyWith .loginDenied (.login billingType [])
      else dmAuthLoginPlayers ext c billingType

/-- `dm_auth_disconnect`. -/
def dmAuthDisconnect (c : ConnId) : DM Unit := do
  let playerId := (← getClient c).player.playerId
  if playerId ≠ 0 then
    let result ← exec .handler (.markOffline playerId)
    bcastRows result
    sendReply .success
  else sendReply .success

/-- Another client of `s_authClients` has the player of this one. -/
def elsewhere (s : DaemonState) (c : ConnId) : Bool :=
  s.authClients.any fun c' =>
    c' ≠ c ∧ (s.clients c').player.playerId = (s.clients c).player.playerId

/-- `dm_auth_setPlayer`. -/
def dmAuthSetPlayer (ext : External) (c : ConnId) : DM Unit := do
  let client ← getClient c
  let result ← exec .handler (.selectPlayer client.acctUuid client.player.playerId)
  if result.status ≠ .tuplesOk then
    clearPlayer c
    sendReply .internalError
  else if result.ntuples = 0 then
    clearPlayer c
    sendReply .playerNotFound
  else if result.ntuples ≠ 1 then
    clearPlayer c
    sendReply .internalError
  else if elsewhere (← get) c then
    clearPlayer c
    sendReply .loggedInElsewhere
  else
    let playerName ← textAt ext result 0 0
    let avatarModel ← textAt ext result 0 1
    let explorer ← numAt result 0 2
    modifyClient c fun client =>
      { client with player := { client.player with playerName, avatarModel, explorer } }
    let result ← exec .handler (.markOnline client.player.playerId)
    bcastRows result
    sendReply .success

/-- `dm_auth_createPlayer` after `v_create_player`. -/
def dmAuthEnterPlayer (c : ConnId) (msgPlayer : PlayerInfo) (player : UInt32 × UInt32 × UInt32) :
    DM Unit := do
  -- Tell neighborhood about its new member
  refAndBcast ⟨player.2.2, player.2.1, player.1⟩
  -- Add new player to AllPlayers
  let allPlayers := (← get).allPlayers
  refAndBcast ⟨allPlayers, player.2.1, 0⟩
  let acctUuid := (← getClient c).acctUuid
  let result ← exec .handler (.insertPlayer acctUuid { msgPlayer with playerId := player.1 })
  if result.status ≠ .commandOk then sendReplyWith .internalError (.playerId player.1)
  else sendReplyWith .success (.playerId player.1)

/-- `dm_auth_createPlayer`.  Where `v_create_player` fails there is a reply, and
the handler goes on. -/
def dmAuthCreatePlayer (ext : External) (c : ConnId) (msgPlayer : PlayerInfo) : DM Unit := do
  let msgPlayer :=
    if msgPlayer.avatarModel ≠ "male" ∧ msgPlayer.avatarModel ≠ "female" then
      { msgPlayer with avatarModel := "male" }
    else msgPlayer
  let result ← exec .handler (.selectPlayerName msgPlayer.playerName)
  if result.status ≠ .tuplesOk then sendReply .internalError
  else if result.ntuples ≠ 0 then sendReply .playerAlreadyExists
  else
    let player ← vCreatePlayer ext (← getClient c).acctUuid msgPlayer
    if player.1 = 0 then
      sendReplyWith .internalError (.playerId 0)
      dmAuthEnterPlayer c msgPlayer player
    else dmAuthEnterPlayer c msgPlayer player

/-- `dm_auth_deletePlayer`. -/
def dmAuthDeletePlayer (c : ConnId) (playerId : UInt32) : DM Unit := do
  let result ← exec .handler (.selectOwnPlayer (← getClient c).acctUuid playerId)
  if result.status ≠ .tuplesOk then sendReply .internalError
  else if result.ntuples = 0 then sendReply .playerNotFound
  else
    let result ← exec .handler (.deletePlayer playerId)
    if result.status ≠ .commandOk then sendReply .internalError
    else
      -- Find PlayerInfo and remove all refs to it
      let result ← exec .handler (.selectPlayerInfo playerId)
      if result.status ≠ .tuplesOk then sendReply .internalError
      else if result.ntuples = 0 then sendReply .internalError
      else
        let playerInfo ← numAt result 0 0
        let result ← exec .handler (.deleteChildRefs playerInfo)
        if result.status ≠ .commandOk then sendReply .internalError
        else sendReply .success

/-! ## Ages -/

/-- The end of `dm_auth_createAge`. -/
def replyAgeNodes (ageNodes : UInt32 × UInt32) : DM Unit :=
  if ageNodes.1 = 0 ∨ ageNodes.2 = 0 then sendReply .internalError
  else sendReplyWith .success (.ageNodes ageNodes.1 ageNodes.2)

/-- `dm_auth_createAge`. -/
def dmAuthCreateAge (ext : External) (age : AgeInfo) : DM Unit := do
  let result ← exec .handler (.selectAgeNode age.ageId)
  if result.status ≠ .tuplesOk then sendReply .internalError
  else if result.ntuples ≠ 0 then
    let ageNode ← numAt result 0 0
    let result ← exec .handler (.selectAgeInfoNode age.ageId)
    if result.status ≠ .tuplesOk then sendReply .internalError
    else if result.ntuples ≠ 0 then
      let infoNode ← numAt result 0 0
      replyAgeNodes (ageNode, infoNode)
    else sendReply .internalError
  else
    let ageNodes ← vCreateAge ext .handler age 0
    replyAgeNodes ageNodes

/-- `dm_auth_findAge` from the row of the server on. -/
def dmAuthFoundAge (ext : External) (c : ConnId) (instanceId : Uuid) (result : PGresult) :
    DM Unit := do
  let ageNodeIdx ← numAt result 0 1
  let mcpId ← numAt result 0 0
  let ageDesc ← textAt ext result 0 2
  -- Update the player info to show up in the age
  let playerId := (← getClient c).player.playerId
  let result ← exec .handler (.markInAge ageDesc instanceId playerId)
  bcastRows result
  sendReplyWith .success (.gameAge mcpId ageNodeIdx)

/-- `dm_auth_findAge`.  Where the new server cannot be entered there is no
reply. -/
def dmAuthFindAge (ext : External) (c : ConnId) (name : String) (instanceId : Uuid) : DM Unit := do
  let result ← exec .handler (.selectServer instanceId)
  if result.status ≠ .tuplesOk then sendReply .internalError
  else if result.ntuples = 0 then
    let result ← exec .handler (.insertTempServer instanceId name)
    if result.status ≠ .tuplesOk then pure ()
    else dmAuthFoundAge ext c instanceId result
  else dmAuthFoundAge ext c instanceId result

/-- `dm_auth_get_public`. -/
def dmAuthGetPublic (ext : External) (agename : String) : DM Unit := do
  match ← vFindPublicAges ext agename with
  | some ages => sendReplyWith .success (.ages ages)
  | none => sendReply .internalError

/-- `dm_auth_set_public` and `dm_auth_set_private`. -/
def dmAuthSetVisible (s : Statement) (nodeid : UInt32) : DM NetResultCode := do
  let result ← exec .handler s
  if result.status ≠ .commandOk then return .internalError
  dmAuthBcastNode nodeid (← genUuid .handler)
  return .success

def dmAuthSetPublic (nodeid : UInt32) : DM NetResultCode :=
  dmAuthSetVisible (.setPublic nodeid) nodeid

def dmAuthSetPrivate (nodeid : UInt32) : DM NetResultCode :=
  dmAuthSetVisible (.setPrivate nodeid) nodeid

/-- `dm_auth_set_pub_priv`. -/
def dmAuthSetPubPriv (node : UInt32) (isPublic : Bool) : DM Unit :=
  (if isPublic then dmAuthSetPublic node else dmAuthSetPrivate node) >>= sendReply

/-! ## Scores -/

/-- `Auth_UpdateScore::e_Fixed`. -/
def scoreFixed : UInt32 := 0

/-- `Auth_UpdateScore::e_Golf`. -/
def scoreGolf : UInt32 := 2

/-- `dm_auth_createScore`. -/
def dmAuthCreateScore (owner type : UInt32) (name : String) (points : Int32) : DM Unit := do
  let result ← exec .handler (.createScore owner type name points)
  if result.status ≠ .tuplesOk then sendReply .internalError
  else
    let scoreId ← numAt result 0 0
    if scoreId = -1 then sendReplyWith .scoreAlreadyExists (.scoreId scoreId)
    else sendReplyWith .success (.scoreId scoreId)

/-- `dm_auth_getScores`. -/
def dmAuthGetScores (owner : UInt32) (name : String) : DM Unit := do
  let result ← exec .handler (.selectScores owner name)
  if result.status ≠ .tuplesOk then sendReply .internalError
  else
    let scores ← forRows result fun i => do
      return {
        owner
        scoreId := ← numAt result i 0
        createTime := ← numAt result i 1
        type := ← numAt result i 2
        points := (← numAt result i 3).toInt32 }
    sendReplyWith .success (.scores scores)

/-- `dm_auth_addScorePoints`. -/
def dmAuthAddScorePoints (scoreId : UInt32) (points : Int32) : DM Unit := do
  let result ← exec .handler (.selectScoreType scoreId)
  if result.status ≠ .tuplesOk then sendReply .internalError
  else if result.ntuples ≠ 1 then sendReply .scoreNoDataFound
  else
    let scoreType ← numAt result 0 0
    if scoreType = scoreFixed then sendReply .scoreWrongType
    else
      let allowNegative := if scoreType = scoreGolf then 1 else 0
      let result ← exec .handler (.addScorePoints scoreId points allowNegative)
      if result.status ≠ .tuplesOk then sendReply .internalError
      else sendReply .success

/-- `dm_auth_transferScorePoints`. -/
def dmAuthTransferScorePoints (srcScoreId dstScoreId points : UInt32) : DM Unit := do
  let result ← exec .handler (.selectScoreTypes srcScoreId dstScoreId)
  if result.status ≠ .tuplesOk then sendReply .internalError
  else if result.ntuples ≠ 2 then sendReply .scoreNoDataFound
  else
    let srcType ← numAt result 0 0
    let dstType ← numAt result 1 0
    if srcType = scoreFixed ∨ dstType = scoreFixed then sendReply .scoreWrongType
    else
      let allowNegative := if srcType = scoreGolf ∧ dstType = scoreGolf then 1 else 0
      let result ← exec .handler (.transferScorePoints srcScoreId dstScoreId points allowNegative)
      if result.status ≠ .tuplesOk then sendReply .internalError
      else
        let status ← numAt result 0 0
        sendReply (if status ≠ 0 then .success else .scoreNotEnoughPoints)

/-- `dm_auth_setScorePoints`. -/
def dmAuthSetScorePoints (scoreId : UInt32) (points : Int32) : DM Unit := do
  let result ← exec .handler (.selectScoreType scoreId)
  if result.status ≠ .tuplesOk then sendReply .internalError
  else if result.ntuples ≠ 1 then sendReply .scoreNoDataFound
  else
    let scoreType ← numAt result 0 0
    if scoreType ≠ scoreFixed then sendReply .scoreWrongType
    else
      let result ← exec .handler (.setScorePoints scoreId points)
      if result.status ≠ .commandOk then sendReply .internalError
      else sendReply .success

/-- The end of `dm_auth_getHighScores`, which reads five columns. -/
def replyHighScores (result : PGresult) : DM Unit := do
  if result.status ≠ .tuplesOk then sendReply .internalError
  else
    let scores ← forRows result fun i => do
      return {
        scoreId := ← numAt result i 0
        owner := ← numAt result i 1
        createTime := ← numAt result i 2
        type := ← numAt result i 3
        points := (← numAt result i 4).toInt32 }
    sendReplyWith .success (.scores scores)

/-- `dm_auth_getHighScores`. -/
def dmAuthGetHighScores (owner : UInt32) (name : String) (maxScores : UInt32) : DM Unit := do
  if owner = 0 then
    let result ← exec .handler (.selectAllScores name maxScores)
    replyHighScores result
  else
    let result ← exec .handler (.findScoreOwners owner)
    if result.status ≠ .tuplesOk then sendReply .internalError
    else if result.ntuples = 0 then sendReply .invalidParameter
    else
      let ageOwnersFolder ← numAt result 0 0
      let result ← exec .handler (.selectOwnerScores name ageOwnersFolder maxScores)
      replyHighScores result

/-! ## Requests of the game server and the console -/

/-- `dm_auth_updateAgeSrv`. -/
def dmAuthUpdateAgeSrv (playerId ageNodeId : UInt32) : DM Unit := do
  let s ← get
  match s.authClients.find? fun c => (s.clients c).player.playerId = playerId with
  | some c =>
    modifyClient c fun client => { client with ageNodeId }
    sendReplyWith .success (.isAdmin ((s.clients c).acctFlags &&& acctAdmin ≠ 0))
  | none => sendReply .playerNotFound

/-- `TOGGLE_FLAG`. -/
def toggleFlag (flags flag acctFlags : UInt32) : UInt32 :=
  if flags &&& flag ≠ 0 then
    if acctFlags &&& flag ≠ 0 then acctFlags &&& ~~~flag else acctFlags ||| flag
  else acctFlags

/-- `dm_auth_acctFlags`. -/
def dmAuthAcctFlags (acctName : String) (flags : UInt32) : DM Unit := do
  let result ← exec .handler (.selectAcctFlags acctName)
  if result.status ≠ .tuplesOk then sendReply .internalError
  else if result.ntuples ≠ 1 then sendReply .internalError
  else
    let acctFlags ← numAt result 0 0
    let acctFlags := toggleFlag flags acctBetaTester
      (toggleFlag flags acctBanned (toggleFlag flags acctAdmin acctFlags))
    if flags ≠ 0 then
      let result ← exec .handler (.updateAcctFlags acctName acctFlags)
      if result.status ≠ .commandOk then sendReply .internalError
      else sendReplyWith .success (.acctFlags acctFlags)
    else sendReplyWith .success (.acctFlags acctFlags)

/-- `dm_auth_addAllPlayers`. -/
def dmAuthAddAllPlayers (playerId : UInt32) : DM Unit := do
  let allPlayers := (← get).allPlayers
  if ← vHasNode playerId allPlayers then
    if !(← vUnrefNode playerId allPlayers) then sendReply .internalError
    else
      dmAuthBcastUnref ⟨playerId, allPlayers, 0⟩
      sendReply .success
  else
    if !(← vRefNode .handler playerId allPlayers 0) then sendReply .internalError
    else
      dmAuthBcastRef ⟨playerId, allPlayers, 0⟩
      sendReply .success

/-- `s_globalStates.find`. -/
def findGlobal (ext : External) (s : DaemonState) (ageFilename : String) :
    Option (Option (List GlobalVar)) :=
  (s.globalStates.find? fun entry => ext.equalI entry.1 ageFilename).map (·.2)

/-- `dm_auth_fetchSDL`. -/
def dmAuthFetchSDL (ext : External) (ageFilename : String) (sdlNodeId : UInt32) : DM Unit := do
  let globalState := (findGlobal ext (← get) ageFilename).join
  if sdlNodeId = 0 then
    sendReplyWith .success (.sdl (ext.genDefaultSdl ageFilename) globalState)
  else
    let sdlNode ← vFetchNode ext sdlNodeId
    sendReplyWith .success (.sdl (sdlNode.blob_1.getD []) globalState)

/-- The types of `dm_auth_update_globalSDL` that take a value. -/
def takesValue : SDL.VarType → Bool
  | .bool | .byte | .int | .short | .string => true
  | _ => false

/-- `dm_auth_update_globalSDL` once the variable is found.  A value goes to its
first element, which is behind a null pointer where it has none. -/
def setGlobalVar (ext : External) (ageFilename value : String) (vars : List GlobalVar)
    (var : GlobalVar) : DM Unit := do
  if !value.isEmpty && !takesValue var.type then sendReply .notSupported
  else if !value.isEmpty && var.size = 0 then crash
  else
    match ext.toBlob vars with
    | none => throw
    | some _ =>
      -- A failure does not block continuing.
      let _ ← exec .handler (.updateGlobalState ageFilename)
      sendReply .success

/-- `dm_auth_update_globalSDL` with the global state of the age. -/
def updateGlobalState (ext : External) (ageFilename varName value : String) :
    Option (Option (List GlobalVar)) → DM Unit
  | none => sendReply .stateObjectNotFound
  | some none => crash
  | some (some vars) =>
    match vars.find? fun var => var.name = varName with
    | some var => setGlobalVar ext ageFilename value vars var
    | none => sendReply .invalidParameter

/-- `dm_auth_update_globalSDL`. -/
def dmAuthUpdateGlobalSDL (ext : External) (ageFilename varName value : String) : DM Unit := do
  updateGlobalState ext ageFilename varName value (findGlobal ext (← get) ageFilename)

/-! ## The loop body -/

/-- `e_VaultUpdateNode` once the update is not for a game host. -/
def dmVaultSaveNode (node : Vault.Node) (revision : Uuid) : DM Unit := do
  let revision ← uuidOrNew .handler revision
  if ← vUpdateNode node then
    dmAuthBcastNode (node.nodeIdx.getD 0) revision
    sendReply .success
  else sendReply .internalError

/-- `e_VaultUpdateNode`.  An update of an SDL node goes to the host of its age
first, which says `e_NetAgeNotFound` where there is none. -/
def dmVaultUpdateNode (ext : External) (node : Vault.Node) (revision : Uuid) (internal : Bool) :
    DM Unit := do
  if !internal && node.nodeType = some Vault.NodeType.sdl.toInt then
    let result ← exec .handler (.selectSdlServer (node.nodeIdx.getD 0))
    if result.status ≠ .tuplesOk then sendReply .internalError
    else if result.ntuples ≠ 0 then
      let ageMcpId ← numAt result 0 0
      let result := ext.updateVaultSDL node ageMcpId
      if result ≠ .ageNotFound then sendReply result
      else dmVaultSaveNode node revision
    else dmVaultSaveNode node revision
  else dmVaultSaveNode node revision

/-- The `switch` of `dm_authDaemon`. -/
def dmAuthHandle (ext : External) (c : ConnId) : AuthMessage → DM Unit
  | .clientLogin info => dmAuthLogin ext c info
  | .setPlayer => dmAuthSetPlayer ext c
  | .createPlayer player => dmAuthCreatePlayer ext c player
  | .deletePlayer playerId => dmAuthDeletePlayer c playerId
  | .createNode node => do
    let nodeIdx ← vCreateNode .handler node
    if nodeIdx ≠ 0 then sendReplyWith .success (.node { node with nodeIdx := some nodeIdx })
    else sendReply .internalError
  | .fetchNode node => do
    let node ← vFetchNode ext (node.nodeIdx.getD 0)
    if node.isNull then sendReplyWith .vaultNodeNotFound (.node node)
    else sendReplyWith .success (.node node)
  | .updateNode node revision internal => dmVaultUpdateNode ext node revision internal
  | .refNode ref => do
    if ← vRefNode .handler ref.parent ref.child ref.owner then
      dmAuthBcastRef ref
      sendReply .success
    else sendReply .internalError
  | .sendNode nodeIdx playerIdx senderIdx => do
    let ref ← vSendNode nodeIdx playerIdx senderIdx
    bcastSent ref
    -- There is no way to indicate success or failure to the client.
    sendReply .success
  | .unrefNode ref => do
    if ← vUnrefNode ref.parent ref.child then
      dmAuthBcastUnref ref
      sendReply .success
    else sendReply .internalError
  | .fetchNodeTree nodeId => do
    match ← vFetchTree nodeId with
    | some refs => sendReplyWith .success (.refs refs)
    | none => sendReply .internalError
  | .findNode template => do
    match ← vFindNodes template with
    | some nodes => sendReplyWith .success (.nodes nodes)
    | none => sendReply .internalError
  | .initAge age => dmAuthCreateAge ext age
  | .findGameServer name instanceId => dmAuthFindAge ext c name instanceId
  | .disconnect => dmAuthDisconnect c
  | .addAcct acctName => dmAuthAddacct acctName
  | .getPublic agename => dmAuthGetPublic ext agename
  | .setPublic node isPublic => dmAuthSetPubPriv node isPublic
  | .createScore owner type name points => dmAuthCreateScore owner type name points
  | .getScores owner name => dmAuthGetScores owner name
  | .addScorePoints scoreId points => dmAuthAddScorePoints scoreId points
  | .transferScorePoints srcScoreId dstScoreId points =>
    dmAuthTransferScorePoints srcScoreId dstScoreId points
  | .setScorePoints scoreId points => dmAuthSetScorePoints scoreId points
  | .getHighScores owner name maxScores => dmAuthGetHighScores owner name maxScores
  | .updateAgeSrv playerId ageNodeId => dmAuthUpdateAgeSrv playerId ageNodeId
  | .acctFlags acctName flags => dmAuthAcctFlags acctName flags
  | .restrictLogins => do
    modify fun s => { s with restrictLogins := !s.restrictLogins }
    sendReplyWith .success (.restrictLogins (← get).restrictLogins)
  | .addAllPlayers playerId => dmAuthAddAllPlayers playerId
  | .fetchSDL ageFilename sdlNodeId => dmAuthFetchSDL ext ageFilename sdlNodeId
  | .updateGlobalSDL ageFilename varName value =>
    dmAuthUpdateGlobalSDL ext ageFilename varName value

/-- The loop body of `dm_authDaemon` for a message with a client: an exception
is answered with `e_NetInternalError`. -/
def dmAuthDaemon (ext : External) (c : ConnId) (msg : AuthMessage) : DM Unit :=
  catchReply { code := .internalError } (dmAuthHandle ext c msg)

/-- Settings for the runs on fixed inputs. -/
def plainExternal : External where
  cred := { lower := id, useEmailAuth := fun _ => true, buggyHashLogin := fun h _ _ => h }
  equalI a b := a = b
  base64Decode _ := some []
  nullString := true
  hoodUserName := ""
  hoodInstanceName := ""
  hoodPopThreshold := 20
  genDefaultSdl _ := []
  toBlob _ := some []
  updateVaultSDL _ _ := .success

end Dirtsand.AuthServ.Daemon
