import Dirtsand.AuthServ.Session
import Dirtsand.AuthServ.VaultTypes
import Dirtsand.Lib.Dialogue
import Dirtsand.SDL.VarType

/-!
# The daemon and its database connection

What the handlers of the auth daemon are written with: the statements they hand
to libpq, the results they read, and the state of the daemon.  A handler is a
program that asks the database and puts replies.

How a statement ends comes from outside: with any rows, as a command, with an
error status, or in an exception.  A row of a result has as many columns as the
statement selects, and a column that is SQL NULL reads as an empty text.

An assertion that fails, and a null pointer that is read or written, end the
process.  Left out are texts that are read past their end, and the values that
are only bound to a statement: times, hashes and blobs.
-/

namespace Dirtsand.AuthServ

/-! ## Statements -/

/-- The statements of the daemon, one for each place of the source that makes
one, with the values that are bound to it. -/
inductive Statement where
  -- AuthDaemon.cpp
  | selectAccount (acctName : String)
  | insertAccount (acctName : String) (acctUuid : Uuid)
  | selectLogin (acctName : String)
  | selectPlayers (acctUuid : Uuid)
  | markOffline (playerId : UInt32)
  | selectPlayer (acctUuid : Uuid) (playerId : UInt32)
  | markOnline (playerId : UInt32)
  | selectPlayerName (playerName : String)
  | insertPlayer (acctUuid : Uuid) (player : PlayerInfo)
  | selectOwnPlayer (acctUuid : Uuid) (playerId : UInt32)
  | deletePlayer (playerId : UInt32)
  | selectPlayerInfo (playerId : UInt32)
  | deleteChildRefs (playerInfo : UInt32)
  | selectAgeNode (ageId : Uuid)
  | selectAgeInfoNode (ageId : Uuid)
  | selectServer (instanceId : Uuid)
  | insertTempServer (instanceId : Uuid) (name : String)
  | markInAge (ageDesc : String) (instanceId : Uuid) (playerId : UInt32)
  | setPublic (nodeid : UInt32)
  | setPrivate (nodeid : UInt32)
  | createScore (owner type : UInt32) (name : String) (points : Int32)
  | selectScores (owner : UInt32) (name : String)
  | selectScoreType (scoreId : UInt32)
  | addScorePoints (scoreId : UInt32) (points : Int32) (allowNegative : UInt32)
  | selectScoreTypes (srcScoreId dstScoreId : UInt32)
  | transferScorePoints (srcScoreId dstScoreId points allowNegative : UInt32)
  | setScorePoints (scoreId : UInt32) (points : Int32)
  | selectAllScores (name : String) (maxScores : UInt32)
  | findScoreOwners (owner : UInt32)
  | selectOwnerScores (name : String) (ageOwnersFolder maxScores : UInt32)
  | selectAcctFlags (acctName : String)
  | updateAcctFlags (acctName : String) (acctFlags : UInt32)
  | updateGlobalState (ageFilename : String)
  | selectSdlServer (nodeIdx : UInt32)
  -- AuthVault.cpp
  | genUuid
  | selectHoods
  | findHoodOwners (hoodInfo : UInt32)
  | selectPublicAge (filename : String)
  | nextAgeSeq
  | insertServer (ageId : Uuid) (filename agedesc : String) (ageNode ageSdlNode : UInt32)
  | findReltoOwners (ageInfo : UInt32)
  | createNode (node : Vault.Node)
  | hasNode (parentId childId : UInt32)
  | updateNode (node : Vault.Node)
  | fetchNode (nodeIdx : UInt32)
  | refNode (parentIdx childIdx ownerIdx : UInt32)
  | unrefNode (parentIdx childIdx : UInt32)
  | fetchTree (nodeId : UInt32)
  | findNodes (nodeTemplate : Vault.Node)
  | findInbox (playerId : UInt32)
  | findAgeOwners (ageInfoId : UInt32)
  | countOwners (parentIdx : String)
  | selectPublicAges (ageFilename : String)
deriving DecidableEq, Repr

/-- The number of columns in the rows of a statement. -/
def Statement.columns : Statement → Nat
  | .selectAccount _ => 2
  | .selectLogin _ => 4
  | .selectPlayers _ => 4
  | .selectPlayer .. => 3
  | .selectServer _ => 3
  | .insertTempServer .. => 3
  | .selectScores .. => 4
  | .selectAllScores .. => 4
  | .selectOwnerScores .. => 5
  | .fetchNode _ => 32
  | .fetchTree _ => 3
  | .selectPublicAges _ => 8
  | _ => 1

/-- `none` is SQL NULL. -/
abbrev Row := Nat → Option String

/-- How a statement ends. -/
inductive QueryOutcome where
  /-- `PGRES_TUPLES_OK`. -/
  | tuples (rows : List Row)
  /-- `PGRES_COMMAND_OK`. -/
  | command
  /-- Any other status. -/
  | error
  | throws

/-- Where a statement is made: in `v_create_player` and what it calls, or
elsewhere. -/
inductive CallSite where
  | handler
  | createPlayer
deriving DecidableEq, Repr

/-! ## Results -/

inductive ExecStatus where
  | tuplesOk
  | commandOk
  | fatalError
deriving DecidableEq, Repr

structure PGresult where
  status : ExecStatus
  nfields : Nat := 0
  rows : List Row := []

namespace PGresult

/-- `PQntuples`. -/
def ntuples (r : PGresult) : Nat := r.rows.length

/-- `PQgetvalue`, which is null outside of the result. -/
def getvalue (r : PGresult) (i j : Nat) : Option String :=
  if j < r.nfields then r.rows[i]?.map fun row => (row j).getD "" else none

/-- `PQgetisnull`. -/
def getisnull (r : PGresult) (i j : Nat) : Bool :=
  if j < r.nfields then (r.rows[i]?.bind (· j)).isNone else true

theorem getvalue_isSome {r : PGresult} {i j : Nat} (hi : i < r.ntuples) (hj : j < r.nfields) :
    ∃ text, r.getvalue i j = some text :=
  ⟨_, by rw [getvalue, if_pos hj, List.getElem?_eq_getElem hi, Option.map_some]⟩

end PGresult

/-! ## The daemon -/

/-- A variable of the `m_simpleVars` of a global state: name and type from its
descriptor, and the number of its elements. -/
structure GlobalVar where
  name : String
  type : SDL.VarType
  size : Nat
deriving DecidableEq, Repr

/-- What a handler can read and write.  `globalStates` is `s_globalStates`,
where a state without data is `none`. -/
structure DaemonState where
  clients : ConnId → AuthClient
  authClients : List ConnId
  restrictLogins : Bool
  systemNode : UInt32
  allPlayers : UInt32
  globalStates : List (String × Option (List GlobalVar))

/-- What the daemon uses and this model does not embed: the functions of a
login, the settings, the codecs of string_theory, the SDL states, and the answer
of a game host to `DS::GameServer_UpdateVaultSDL`.

`nullString` says that an `ST::string` made from a null pointer is empty. -/
structure External where
  cred : Credentials
  /-- `ST::equal_i`. -/
  equalI : String → String → Bool
  /-- `none` where the text is malformed. -/
  base64Decode : String → Option Vault.Blob
  nullString : Bool
  hoodUserName : String
  hoodInstanceName : String
  hoodPopThreshold : UInt32
  /-- `gen_default_sdl`. -/
  genDefaultSdl : String → Vault.Blob
  /-- `State::toBlob` of a global state, `none` where it throws. -/
  toBlob : List GlobalVar → Option Vault.Blob
  updateVaultSDL : Vault.Node → UInt32 → NetResultCode

/-- `Auth_PubAgeRequest::NetAgeInfo`. -/
structure NetAgeInfo where
  instanceId : Uuid
  instancename : String
  username : String
  description : String
  sequence : UInt32
  language : UInt32
  curPopulation : UInt32
  population : UInt32
deriving DecidableEq, Repr

/-- `Auth_GetScores::GameScore`. -/
structure GameScore where
  scoreId : UInt32
  owner : UInt32
  createTime : UInt32
  type : UInt32
  points : Int32
deriving DecidableEq, Repr

/-- What a handler has written into its message when it replies. -/
inductive Output where
  | none
  | login (billingType : UInt32) (players : List PlayerInfo)
  | playerId (playerId : UInt32)
  | ageNodes (ageIdx infoIdx : UInt32)
  | node (node : Vault.Node)
  | refs (refs : List Vault.NodeRef)
  | nodes (nodes : List UInt32)
  | gameAge (mcpId ageNodeIdx : UInt32)
  | ages (ages : List NetAgeInfo)
  | scoreId (scoreId : UInt32)
  | scores (scores : List GameScore)
  | isAdmin (isAdmin : Bool)
  | acctFlags (flags : UInt32)
  | restrictLogins (status : Bool)
  | sdl (localState : Vault.Blob) (globalState : Option (List GlobalVar))
deriving DecidableEq, Repr

structure Reply where
  code : NetResultCode
  out : Output := .none
deriving DecidableEq, Repr

/-- A program of the daemon. -/
abbrev DM := Lib.Prog DaemonState (CallSite × Statement) QueryOutcome Reply

/-- `SEND_REPLY`. -/
def sendReply (code : NetResultCode) : DM Unit := Lib.Prog.reply { code }

def sendReplyWith (code : NetResultCode) (out : Output) : DM Unit := Lib.Prog.reply { code, out }

/-- `PQexecVA`, `PQexecParams` and `PQexec`. -/
def exec (site : CallSite) (s : Statement) : DM PGresult := do
  match ← Lib.Prog.ask (site, s) with
  | .tuples rows => pure { status := .tuplesOk, nfields := s.columns, rows }
  | .command => pure { status := .commandOk }
  | .error => pure { status := .fatalError }
  | .throws => Lib.Prog.throw

/-- `DS_ASSERT`. -/
def dsAssert (cond : Bool) : DM Unit := if cond then pure () else Lib.Prog.crash

/-- `strtoul(PQgetvalue(r, i, j), nullptr, 10)`. -/
def numAt (r : PGresult) (i j : Nat) : DM UInt32 :=
  match r.getvalue i j with
  | some text => pure (strtoul 10 text.toList).toUInt32
  | none => Lib.Prog.crash

/-- `strtol(PQgetvalue(r, i, j), nullptr, 10)`, as an `int32_t`. -/
def intAt (r : PGresult) (i j : Nat) : DM Int :=
  match r.getvalue i j with
  | some text => pure (toInt32 (strtol 10 text.toList))
  | none => Lib.Prog.crash

/-- `DS::Uuid(PQgetvalue(r, i, j))`. -/
def uuidAt (r : PGresult) (i j : Nat) : DM Uuid :=
  match r.getvalue i j with
  | some text =>
    match Uuid.ofText text.toList with
    | some uuid => pure uuid
    | none => Lib.Prog.throw
  | none => Lib.Prog.crash

/-- `ST::string(PQgetvalue(r, i, j))`. -/
def textAt (ext : External) (r : PGresult) (i j : Nat) : DM String :=
  match r.getvalue i j with
  | some text => pure text
  | none => if ext.nullString then pure "" else Lib.Prog.crash

/-- `DS::Base64Decode(PQgetvalue(r, i, j))`. -/
def blobAt (ext : External) (r : PGresult) (i j : Nat) : DM Vault.Blob := do
  match ext.base64Decode (← textAt ext r i j) with
  | some blob => pure blob
  | none => Lib.Prog.throw

/-- `for (int i = 0; i < PQntuples(r); ++i)`, with what the passes make. -/
def forRows {β : Type} (r : PGresult) (f : Nat → DM β) : DM (List β) :=
  Lib.Prog.collect f (List.range r.ntuples)

end Dirtsand.AuthServ
