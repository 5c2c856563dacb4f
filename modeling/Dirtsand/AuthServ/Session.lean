import Dirtsand.Config
import Dirtsand.Types.Uuid
import Dirtsand.Lib.Transition
import Mathlib.Logic.Function.Basic
import Mathlib.Tactic.Common

/-!
# Auth connections and the auth daemon

The part of the auth server that decides who a connection is: the workers of
any number of connections (`cb_login`, `cb_setPlayer` and `wk_authWorker` of
AuthServ/AuthServer.cpp), the hosts that ask whether a player may join, and the
daemon that serves them all from one channel (`dm_auth_login`,
`dm_auth_setPlayer`, `dm_auth_disconnect` and `dm_auth_updateAgeSrv` of
AuthServ/AuthDaemon.cpp).

The database is its tables, and a query is either run on them, or fails, or
raises an exception; which of the three comes with the event.  A daemon step is
the handling of one message.  The hash functions and the two string functions
of the login query are parameters.

Left out: the broadcasts of `dm_auth_bcast_node`, which go to the broadcast
channels and are read by no handler here.
-/

namespace Dirtsand.AuthServ

/-! ## The database -/

/-- A row of auth."Accounts". -/
structure AccountRow where
  login : String
  passHash : ShaHash
  acctUuid : Uuid
  acctFlags : UInt32
  billingType : UInt32
deriving DecidableEq, Repr

/-- A row of auth."Players". -/
structure PlayerRow where
  acctUuid : Uuid
  playerIdx : UInt32
  playerName : String
  avatarShape : String
  explorer : UInt32
deriving DecidableEq, Repr

/-- The columns of a PlayerInfo row of vault."Nodes" that show a player online. -/
structure PlayerInfoNode where
  idx : UInt32
  uint32_1 : UInt32
  int32_1 : Int
  string64_1 : String
  uuid_1 : Uuid
deriving DecidableEq, Repr

structure Database where
  accounts : List AccountRow
  players : List PlayerRow
  infoNodes : List PlayerInfoNode
deriving DecidableEq, Repr

/-- How a query ends: with the rows the tables hold, with an error status, or
in an exception. -/
inductive QueryFate where
  | runs
  | fails
  | throws
deriving DecidableEq, Repr

/-- The functions a login calls that lie outside the database: `LOWER`,
`DS::UseEmailAuth` and `DS::BuggyHashLogin`. -/
structure Credentials where
  lower : String → String
  useEmailAuth : String → Bool
  buggyHashLogin : ShaHash → UInt32 → UInt32 → ShaHash

namespace Database

/-- `WHERE LOWER("Login")=LOWER($1)`. -/
def selectAccounts (cred : Credentials) (db : Database) (acctName : String) : List AccountRow :=
  db.accounts.filter fun row => cred.lower row.login = cred.lower acctName

/-- `WHERE "AcctUuid"=$1`. -/
def selectPlayers (db : Database) (acctUuid : Uuid) : List PlayerRow :=
  db.players.filter fun row => row.acctUuid = acctUuid

/-- `WHERE "AcctUuid"=$1 AND "PlayerIdx"=$2`. -/
def selectPlayer (db : Database) (acctUuid : Uuid) (playerId : UInt32) : List PlayerRow :=
  db.players.filter fun row => row.acctUuid = acctUuid ∧ row.playerIdx = playerId

/-- `SET "Int32_1"=online, "String64_1"=location, "Uuid_1"=null` on the
PlayerInfo nodes of a player. -/
def markPlayer (db : Database) (playerId : UInt32) (online : Int) (location : String) : Database :=
  { db with infoNodes := db.infoNodes.map fun node =>
      if node.uint32_1 = playerId then
        { node with int32_1 := online, string64_1 := location, uuid_1 := .null }
      else node }

/-- An account has the player among its own. -/
def Owns (db : Database) (acctUuid : Uuid) (playerId : UInt32) : Prop :=
  db.selectPlayer acctUuid playerId ≠ []

instance (db : Database) (acctUuid : Uuid) (playerId : UInt32) :
    Decidable (db.Owns acctUuid playerId) :=
  inferInstanceAs (Decidable (_ ≠ _))

/-- Every player of `db` is still there in `db'`, under the same account. -/
def KeepsPlayers (db db' : Database) : Prop :=
  ∀ row ∈ db.players, db'.Owns row.acctUuid row.playerIdx

instance (db db' : Database) : Decidable (db.KeepsPlayers db') :=
  inferInstanceAs (Decidable (∀ row ∈ db.players, _))

end Database

/-! ## A client and the handlers of the daemon -/

/-- `AuthServer_PlayerInfo`. -/
structure PlayerInfo where
  playerId : UInt32 := 0
  playerName : String := ""
  avatarModel : String := ""
  explorer : UInt32 := 1
deriving DecidableEq, Repr

/-- What `AuthServer_Private` says about the identity of a connection. -/
structure AuthClient where
  serverChallenge : UInt32 := 0
  acctUuid : Uuid := .null
  acctFlags : UInt32 := 0
  player : PlayerInfo := {}
  ageNodeId : UInt32 := 0
deriving DecidableEq, Repr

/-- `Auth_LoginInfo`. -/
structure LoginInfo where
  clientChallenge : UInt32
  acctName : String
  passHash : ShaHash
  billingType : UInt32 := 0
  players : List PlayerInfo := []
deriving DecidableEq, Repr

/-- The two ways `dm_auth_login` checks the password hash it was sent. -/
def passwordMatches (cred : Credentials) (client : AuthClient) (info : LoginInfo)
    (row : AccountRow) : Bool :=
  if cred.useEmailAuth info.acctName then
    cred.buggyHashLogin row.passHash client.serverChallenge info.clientChallenge = info.passHash
  else
    row.passHash = info.passHash.swapBytes

/-- The fates of the two queries of `dm_auth_login`.  An exception counts to
the query before it. -/
structure LoginFates where
  accounts : QueryFate := .runs
  players : QueryFate := .runs
deriving DecidableEq, Repr

def PlayerRow.info (row : PlayerRow) : PlayerInfo where
  playerId := row.playerIdx
  playerName := row.playerName
  avatarModel := row.avatarShape
  explorer := row.explorer

def Banned (acctFlags : UInt32) : Prop := acctFlags &&& acctBanned ≠ 0

instance (acctFlags : UInt32) : Decidable (Banned acctFlags) :=
  inferInstanceAs (Decidable (_ ≠ _))

/-- Shut out while logins are restricted. -/
def ShutOut (restrictLogins : Bool) (acctFlags : UInt32) : Prop :=
  restrictLogins = true ∧ acctFlags &&& (acctAdmin ||| acctBetaTester) = 0

instance (restrictLogins : Bool) (acctFlags : UInt32) : Decidable (ShutOut restrictLogins acctFlags) :=
  inferInstanceAs (Decidable (_ ∧ _))

/-- `dm_auth_login`. -/
def dmAuthLogin (cred : Credentials) (db : Database) (restrictLogins : Bool) (fates : LoginFates)
    (info : LoginInfo) (client : AuthClient) : AuthClient × LoginInfo × NetResultCode :=
  -- Reset UUID in case authentication fails
  let client := { client with acctUuid := .null }
  match fates.accounts with
  | .throws => (client, info, .internalError)
  | .fails => (client, info, .internalError)
  | .runs =>
    match db.selectAccounts cred info.acctName with
    | [] => (client, info, .authenticationFailed)
    | _ :: _ :: _ => (client, info, .authenticationFailed)
    | [row] =>
      if passwordMatches cred client info row = false then
        (client, info, .authenticationFailed)
      else
        let client := { client with acctUuid := row.acctUuid, acctFlags := row.acctFlags }
        let info := { info with billingType := row.billingType }
        if Banned client.acctFlags then (client, info, .accountBanned)
        else if ShutOut restrictLogins client.acctFlags then (client, info, .loginDenied)
        else match fates.players with
          | .throws => (client, info, .internalError)
          | .fails => (client, info, .internalError)
          | .runs =>
            let players := (db.selectPlayers client.acctUuid).map PlayerRow.info
            (client, { info with players := players }, .success)

/-- The fates of the queries of `dm_auth_setPlayer`, and of the broadcast at its
end. -/
structure SetPlayerFates where
  select : QueryFate := .runs
  update : QueryFate := .runs
  bcastThrows : Bool := false
deriving DecidableEq, Repr

/-- Some exception leaves `dm_auth_setPlayer`. -/
def SetPlayerFates.Throws (fates : SetPlayerFates) : Prop :=
  fates.select = .throws ∨ fates.update = .throws ∨ fates.bcastThrows = true

/-- `dm_auth_setPlayer`, where `elsewhere` says that another client of
`s_authClients` has the same player id. -/
def dmAuthSetPlayer (db : Database) (elsewhere : Bool) (fates : SetPlayerFates)
    (client : AuthClient) : AuthClient × Database × NetResultCode :=
  let noPlayer := { client with player := { client.player with playerId := 0 } }
  match fates.select with
  | .throws => (client, db, .internalError)
  | .fails => (noPlayer, db, .internalError)
  | .runs =>
    match db.selectPlayer client.acctUuid client.player.playerId with
    | [] => (noPlayer, db, .playerNotFound)
    | _ :: _ :: _ => (noPlayer, db, .internalError)
    | [row] =>
      if elsewhere then (noPlayer, db, .loggedInElsewhere)
      else
        let client := { client with player := { client.player with
          playerName := row.playerName, avatarModel := row.avatarShape, explorer := row.explorer } }
        match fates.update with
        | .throws => (client, db, .internalError)
        | .fails => (client, db, .success)
        | .runs =>
          let db := db.markPlayer client.player.playerId 1 "Lobby"
          (client, db, if fates.bcastThrows then .internalError else .success)

/-- `dm_auth_disconnect`. -/
def dmAuthDisconnect (db : Database) (fate : QueryFate) (client : AuthClient) :
    Database × NetResultCode :=
  if client.player.playerId = 0 then (db, .success)
  else match fate with
    | .throws => (db, .internalError)
    | .fails => (db, .success)
    | .runs => (db.markPlayer client.player.playerId 0 "", .success)

/-! ## The system -/

/-- Connections and hosts are told apart by a number. -/
abbrev ConnId := Nat

abbrev HostId := Nat

/-- What a worker waits for the daemon to answer. -/
inductive Pending where
  | login
  | setPlayer
  | disconnect
deriving DecidableEq, Repr

/-- A worker: its client, what it asks for and waits for, whether its message is
still to be put, the reply on its channel, and whether `wk_authWorker` has
returned. -/
structure Worker where
  client : AuthClient := {}
  waiting : Option Pending := none
  putting : Bool := false
  reply : Option NetResultCode := none
  ended : Bool := false
deriving DecidableEq, Repr

/-- A message on `s_authChannel`. -/
inductive AuthRequest where
  | clientLogin (c : ConnId) (info : LoginInfo)
  | setPlayer (c : ConnId)
  | disconnect (c : ConnId)
  /-- `isAdmin` is what `m_isAdmin` holds when the message is put: `dm_game_join`
  does not initialise it. -/
  | updateAgeSrv (h : HostId) (playerId ageNodeId : UInt32) (isAdmin : Bool)
  | restrictLogins
deriving DecidableEq, Repr

/-- The connection whose worker waits for the answer. -/
def AuthRequest.conn : AuthRequest → Option ConnId
  | .clientLogin c _ => some c
  | .setPlayer c => some c
  | .disconnect c => some c
  | .updateAgeSrv .. => none
  | .restrictLogins => none

def AuthRequest.pending : AuthRequest → Option Pending
  | .clientLogin .. => some .login
  | .setPlayer _ => some .setPlayer
  | .disconnect _ => some .disconnect
  | .updateAgeSrv .. => none
  | .restrictLogins => none

/-- A login attempt as the daemon handled it: the account whose password was
accepted, if any, whether logins were restricted, and the answer. -/
structure LoginAttempt where
  account : Option AccountRow
  restricted : Bool
  result : NetResultCode
deriving DecidableEq, Repr

/-- What the daemon did for a connection. -/
inductive SessionEvent where
  | login (c : ConnId) (attempt : LoginAttempt)
  | setPlayer (c : ConnId) (playerId : UInt32) (result : NetResultCode)
deriving DecidableEq, Repr

/-- A join reply to a game host: the result and `m_isAdmin`. -/
structure JoinReply where
  result : NetResultCode
  isAdmin : Bool
deriving DecidableEq, Repr

/-- The whole system.  `log` keeps the history of the connections, latest
first; no step looks at it. -/
structure AuthState where
  db : Database
  restrictLogins : Bool
  authClients : List ConnId
  conn : ConnId → Option Worker
  channel : List AuthRequest
  joinReply : HostId → Option JoinReply
  log : List SessionEvent

inductive AuthEvent where
  /-- `auth_init` is through, and the client joins `s_authClients`. -/
  | connect (c : ConnId) (serverChallenge : UInt32)
  /-- `cb_login`, up to the wait. -/
  | recvLogin (c : ConnId) (info : LoginInfo)
  /-- `cb_setPlayer`, up to its message: the player id is in the record, which others see. -/
  | recvSetPlayer (c : ConnId) (playerId : UInt32)
  /-- `cb_setPlayer` puts its message and waits. -/
  | putSetPlayer (c : ConnId)
  /-- The client is gone: `wk_authWorker`, up to the wait. -/
  | hangup (c : ConnId)
  /-- The worker takes the reply it waits for. -/
  | recvReply (c : ConnId)
  /-- A game host asks for a join, which is for a player (`cb_join` refuses 0). -/
  | join (h : HostId) (playerId ageNodeId : UInt32) (isAdmin : Bool)
  /-- The operator switches the restriction of logins. -/
  | toggleRestrict
  /-- Accounts change, and players are created. -/
  | admin (db : Database)
  /-- The daemon handles the next message. -/
  | handle (login : LoginFates) (setPlayer : SetPlayerFates) (disconnect : QueryFate)

namespace AuthState

/-- Give connection `c` the worker `w`. -/
def setConn (s : AuthState) (c : ConnId) (w : Worker) : AuthState :=
  { s with conn := Function.update s.conn c (some w) }

/-- The player id of a connection, where it has one. -/
def playerIdOf (s : AuthState) (c : ConnId) : UInt32 :=
  match s.conn c with
  | some w => w.client.player.playerId
  | none => 0

/-- The worker has stored a player id, and has not put its message yet. -/
def Putting (s : AuthState) (c : ConnId) : Prop :=
  ∃ w, s.conn c = some w ∧ w.putting = true

/-- Another client of `s_authClients` has the player id of `c`. -/
def elsewhere (s : AuthState) (c : ConnId) : Bool :=
  s.authClients.any fun c' => c' ≠ c ∧ s.playerIdOf c' = s.playerIdOf c

end AuthState

/-- The account whose password a login attempt gets right. -/
def acceptedAccount (cred : Credentials) (db : Database) (fates : LoginFates) (info : LoginInfo)
    (client : AuthClient) : Option AccountRow :=
  match fates.accounts, db.selectAccounts cred info.acctName with
  | .runs, [row] => if passwordMatches cred client info row then some row else none
  | _, _ => none

/-- One round of the loop of `dm_authDaemon`. -/
def dmAuthDaemon (cred : Credentials) (s : AuthState) (login : LoginFates)
    (setPlayer : SetPlayerFates) (disconnect : QueryFate) : Option AuthState :=
  match s.channel with
  | [] => none
  | .clientLogin c info :: rest => do
    let w ← s.conn c
    let (client, _, result) := dmAuthLogin cred s.db s.restrictLogins login info w.client
    let attempt := ⟨acceptedAccount cred s.db login info w.client, s.restrictLogins, result⟩
    some ({ s with channel := rest, log := .login c attempt :: s.log }.setConn c
      { w with client := client, reply := some result })
  | .setPlayer c :: rest => do
    let w ← s.conn c
    let (client, db, result) := dmAuthSetPlayer s.db (s.elsewhere c) setPlayer w.client
    some ({ s with
      channel := rest, db := db,
      log := .setPlayer c w.client.player.playerId result :: s.log }.setConn c
      { w with client := client, reply := some result })
  | .disconnect c :: rest => do
    let w ← s.conn c
    let (db, result) := dmAuthDisconnect s.db disconnect w.client
    some ({ s with channel := rest, db := db }.setConn c { w with reply := some result })
  | .updateAgeSrv h playerId ageNodeId isAdmin :: rest =>
    match s.authClients.find? fun c => s.playerIdOf c = playerId with
    | none => some { s with
        channel := rest
        joinReply := Function.update s.joinReply h (some ⟨.playerNotFound, isAdmin⟩) }
    | some c => do
      let w ← s.conn c
      let isAdmin : Bool := w.client.acctFlags &&& acctAdmin ≠ 0
      some ({ s with
        channel := rest
        joinReply := Function.update s.joinReply h (some ⟨.success, isAdmin⟩) }.setConn c
        { w with client := { w.client with ageNodeId := ageNodeId } })
  | .restrictLogins :: rest =>
    some { s with channel := rest, restrictLogins := !s.restrictLogins }

/-- The steps of the system.  A worker reads its socket only while it waits for
no answer. -/
def authStep (cred : Credentials) (s : AuthState) : AuthEvent → Option AuthState
  | .connect c serverChallenge =>
    if (s.conn c).isSome then none else
    some { s.setConn c { client := { serverChallenge := serverChallenge } } with
      authClients := s.authClients ++ [c] }
  | .recvLogin c info => do
    let w ← s.conn c
    if w.waiting ≠ none ∨ w.ended = true then none else
    some { s.setConn c { w with waiting := some .login, reply := none } with
      channel := s.channel ++ [.clientLogin c info] }
  | .recvSetPlayer c playerId => do
    let w ← s.conn c
    if w.waiting ≠ none ∨ w.ended = true then none else
    let client := { w.client with player := { w.client.player with playerId := playerId } }
    if playerId = 0 then some (s.setConn c { w with client := client })
    else some (s.setConn c
      { w with client := client, waiting := some .setPlayer, putting := true, reply := none })
  | .putSetPlayer c => do
    let w ← s.conn c
    if w.putting = false then none else
    some { s.setConn c { w with putting := false } with channel := s.channel ++ [.setPlayer c] }
  | .hangup c => do
    let w ← s.conn c
    if w.waiting ≠ none ∨ w.ended = true then none else
    some { s.setConn c { w with waiting := some .disconnect, reply := none } with
      channel := s.channel ++ [.disconnect c] }
  | .recvReply c => do
    let w ← s.conn c
    if w.reply = none then none else
    if w.waiting = some .disconnect then
      some { s.setConn c { w with waiting := none, reply := none, ended := true } with
        authClients := s.authClients.filter (· ≠ c) }
    else some (s.setConn c { w with waiting := none, reply := none })
  | .join h playerId ageNodeId isAdmin =>
    if playerId = 0 then none
    else some { s with channel := s.channel ++ [.updateAgeSrv h playerId ageNodeId isAdmin] }
  | .toggleRestrict => some { s with channel := s.channel ++ [.restrictLogins] }
  | .admin db => if s.db.KeepsPlayers db then some { s with db := db } else none
  | .handle login setPlayer disconnect => dmAuthDaemon cred s login setPlayer disconnect

/-- No connection yet, and whatever is in the database. -/
def AuthState.initial (db : Database) : AuthState where
  db := db
  restrictLogins := false
  authClients := []
  conn := fun _ => none
  channel := []
  joinReply := fun _ => none
  log := []

def authMachine (cred : Credentials) : Lib.Machine AuthState AuthEvent where
  start s := ∃ db, s = AuthState.initial db
  step := authStep cred

end Dirtsand.AuthServ
