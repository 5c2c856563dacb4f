import Dirtsand.GameServ.Locks
import Dirtsand.GameServ.MembersList
import Dirtsand.Lib.Locking
import Dirtsand.Lib.Transition

/-!
# The handlers of a game host

What the thread of a game host does with each message (GameServ/GameHost.cpp),
as code that locks and unlocks: every lock guard, every `lock()` and `unlock()`,
every loop and early return, and every place where an exception can come from.

`m_clients`, `m_locks`, `m_gameMaster` and the flags of the clients are kept as
the handlers leave them; of a stored clone only its object is kept, and of the
SDL states and the database only that working on them can throw.  No mutex is
held there.  That memory runs out is left out.
-/

namespace Dirtsand.HostLocks

open GameServ (ConnId HostPtr)
open Lib.Locking
open Locks (LockMap NetMsgTestAndSet)
open MembersList (hasTimeSent hasPlayerID isSystemMessage needsReliableSend sizeMinusOne maxSize)
open MOUL (Uoid)

inductive Mutex where
  /-- `s_gameHostMutex`. -/
  | gameHostMutex
  | clientMutex (h : HostPtr)
  | lockMutex (h : HostPtr)
  | gmMutex (h : HostPtr)
deriving DecidableEq

/-! ## Messages -/

/-- The classes that the handlers cast a `NetMessage` to. -/
inductive NetKind where
  | gameMessage
  | gameMessageDirected
  | loadClone
  | voice
  | testAndSet
  | sdlState
  | sdlStateBCast
  | other
deriving DecidableEq

/-- The message inside a `NetMsgGameMessage`, with the result of `makeSafeForNet`. -/
structure Inner where
  safe : Bool
  isLoadClone : Bool
deriving DecidableEq

/-- What `State::FromBlob` makes of the blob in a `NetMsgSDLState`. -/
inductive SdlBlob where
  | empty
  | malformed
  | noDescriptor
  | update
deriving DecidableEq

/-- A `NetMessage`: the fields of its class are filled. -/
structure NetMsg where
  kind : NetKind
  contentFlags : UInt32 := 0
  message : Option Inner := none
  receivers : List UInt32 := []
  object : Uoid := {}
  lockRequest : UInt8 := 0
  isPlayer : Bool := false
  isLoading : Bool := false
  sdlBlob : SdlBlob := .empty
  persistOnServer : Bool := false
deriving DecidableEq

/-- What `Factory::Read` finds in the buffer of a client. -/
inductive Buffer where
  | unknownCreatable
  | malformed
  /-- There are bytes behind the message. -/
  | incomplete (msg : Option NetMsg)
  /-- There is no message where the type says so, or is not one of a `NetMessage`. -/
  | whole (msg : Option NetMsg)
deriving DecidableEq

inductive HostMsg where
  | shutdown
  | disconnect (c : ConnId)
  | join (c : ConnId)
  | propagate (c : ConnId) (messageType : UInt32) (buffer : Buffer)
  | localSdl
  | globalSdl
deriving DecidableEq

/-! ## What the threads share -/

/-- `GameClient_Private`, with the replies on `m_channel`. -/
structure Client where
  host : Option HostPtr := none
  playerId : UInt32 := 0
  clientKey : Uoid := {}
  isLoaded : Bool := false
  isAdmin : Bool := false
  channel : List Nat := []

def playerIdEq : Lib.KeyEq UInt32 where
  same a b := a == b
  refl := beq_self_eq_true
  symm h := beq_iff_eq.2 (beq_iff_eq.1 h).symm
  trans h h' := beq_iff_eq.2 ((beq_iff_eq.1 h).trans (beq_iff_eq.1 h'))

/-- `GameHost_Private`. -/
structure Host where
  clients : Lib.Dict playerIdEq ConnId := .empty
  clones : Lib.Dict Uoid.keyEq Unit := .empty
  locks : LockMap := .empty
  gameMaster : UInt32 := 0
  channel : List HostMsg := []
  temp : Bool := false

/-- `s_gameHosts` with the hosts, and the clients.  `sizes` has the two operands of each
difference that was given to a container as a size, while a mutex was held. -/
structure Servers where
  gameHosts : List (UInt32 × HostPtr) := []
  host : HostPtr → Host := fun _ => {}
  client : ConnId → Client := fun _ => {}
  sizes : List (Nat × Nat) := []

def Servers.onHost (s : Servers) (h : HostPtr) (f : Host → Host) : Servers :=
  { s with host := Function.update s.host h (f (s.host h)) }

def Servers.onClient (s : Servers) (c : ConnId) (f : Client → Client) : Servers :=
  { s with client := Function.update s.client c (f (s.client c)) }

inductive Exc where
  | sockHup
  | lengthError
  | other
deriving DecidableEq

/-- What comes from outside of a handler: what a call throws, and the number that it gives. -/
structure Answer where
  thrown : Option Exc := none
  number : Nat := 0
deriving DecidableEq

abbrev Handler := Code Mutex Servers Answer Exc

/-! ## Parts of the handlers -/

/-- A call that can throw. -/
def outside : Handler Nat := do
  let a ← answer
  match a.thrown with
  | none => .ret a.number
  | some e => .exc e

/-- `putMessage`, where the message is not kept.  It throws where the semaphore cannot be
written. -/
def putMessage : Handler Unit := do
  let _ ← outside
  .ret ()

/-- `DM_WRITEBUF`. -/
def writeBuf : Handler Unit := do
  let _ ← outside
  .ret ()

/-- `DM_SENDMSG`. -/
def sendMsg : Handler Unit := do
  writeBuf
  putMessage

/-- `SEND_REPLY`. -/
def sendReply (c : ConnId) (result : Nat) : Handler Unit := do
  update fun s => s.onClient c fun w => { w with channel := w.channel ++ [result] }
  putMessage

def netSuccess : Nat := 0

def netInternalError : Nat := 1

/-- `NetMessage::e_EchoBackToSender`. -/
def echoBackToSender : UInt32 := (1 : UInt32) <<< 2

/-- `NetMessage::e_RouteToAllPlayers`. -/
def routeToAllPlayers : UInt32 := (1 : UInt32) <<< 19

def Servers.members (s : Servers) (h : HostPtr) : List ConnId := (s.host h).clients.values

/-- Who gets a message with these flags. -/
def Servers.receivers (s : Servers) (h : HostPtr) (contentFlags sender : UInt32) : List ConnId :=
  (s.members h).filter fun c =>
    (s.client c).playerId ≠ sender || (contentFlags &&& echoBackToSender) ≠ 0

/-- `dm_broadcast`. -/
def broadcast (contentFlags sender : UInt32) : Handler Unit := do
  writeBuf
  guarded .gameHostMutex do
    let s ← state
    forEach (fun e => guarded (.clientMutex e.2) do
      let s ← state
      forEach (fun _ => putMessage) (s.receivers e.2 contentFlags sender)) s.gameHosts

/-- `dm_propagate`. -/
def propagate (h : HostPtr) (contentFlags sender : UInt32) : Handler Unit := do
  writeBuf
  guarded (.clientMutex h) do
    let s ← state
    forEach (fun _ => putMessage) (s.receivers h contentFlags sender)

/-- The hosts of `dm_propagate_to`, up to the first one that has the receiver. -/
def findReceiver (receiver : UInt32) : List (UInt32 × HostPtr) → Handler Unit
  | [] => .ret ()
  | e :: rest => do
    let found ← guarded (.clientMutex e.2) do
      let s ← state
      match (s.host e.2).clients.find receiver with
      | some _ => do
        putMessage
        .ret true
      | none => .ret false
    if found then .ret () else findReceiver receiver rest

/-- `dm_propagate_to`. -/
def propagateTo (receivers : List UInt32) : Handler Unit := do
  writeBuf
  forEach (fun receiver => guarded .gameHostMutex do
    let s ← state
    findReceiver receiver s.gameHosts) receivers

/-- A request to the auth daemon, with the answer. -/
def askAuth : Handler Nat := do
  putMessage
  outside

/-! ## The handlers -/

/-- The rounds in which `dm_game_shutdown` waits for the clients to go. -/
def waitForClients (h : HostPtr) : Nat → Handler Unit
  | 0 => .ret ()
  | rounds + 1 => do
    lock (.clientMutex h)
    let s ← state
    unlock (.clientMutex h)
    if s.members h = [] then .ret () else waitForClients h rounds

/-- `dm_game_shutdown`. -/
def gameShutdown (h : HostPtr) : Handler Unit := do
  -- the sockets of all clients are closed
  guarded (.clientMutex h) do
    let _ ← state
    .ret ()
  update fun s => s.onHost h fun g => { g with clones := .empty }
  waitForClients h 50
  lock .gameHostMutex
  let _ ← update fun s => { s with gameHosts := s.gameHosts.filter fun e => e.2 ≠ h }
  unlock .gameHostMutex
  let s ← state
  onlyIf (s.host h).temp do
    let _ ← outside
    .ret ()

/-- `dm_local_sdl_update` with a blob. -/
def writeBackSdl : Handler Unit := do
  let _ ← askAuth
  .ret ()

/-- The new game master, if it was this player. -/
def reassignMaster (h : HostPtr) (playerId : UInt32) : Handler Unit := do
  let s ← state
  onlyIf ((s.host h).gameMaster = playerId) do
    writeBuf
    guarded (.clientMutex h) do
      let s ← state
      -- the first client in the order of the map
      let first ← answer
      match (s.members h)[first.number % (s.members h).length]? with
      | some newOwner => do
        update fun s => s.onHost h fun g => { g with gameMaster := (s.client newOwner).playerId }
        putMessage
      | none => update fun s => s.onHost h fun g => { g with gameMaster := 0 }

/-- `dm_game_disconnect`. -/
def gameDisconnect (h : HostPtr) (c : ConnId) : Handler Unit := do
  let s ← state
  let playerId := (s.client c).playerId
  -- unload the avatar clone
  onlyIf ((s.client c).isLoaded && !(s.client c).clientKey.isNull) <|
    propagate h (hasTimeSent ||| needsReliableSend) playerId
  propagate h (hasTimeSent ||| isSystemMessage ||| needsReliableSend) playerId
  lock (.lockMutex h)
  let _ ← update fun s => s.onHost h fun g =>
    { g with locks := Locks.releaseStale g.locks playerId }
  unlock (.lockMutex h)
  guarded (.gmMutex h) (reassignMaster h playerId)
  writeBackSdl
  let s ← state
  onlyIf (s.members h = []) do
    update fun s => s.onHost h fun g => { g with channel := g.channel ++ [.shutdown] }
    putMessage
  sendReply c netSuccess

/-- A player who joins is game master if there is none. -/
def claimMaster (h : HostPtr) (c : ConnId) : Handler Unit :=
  update fun s => s.onHost h fun g =>
    if g.gameMaster = 0 then { g with gameMaster := (s.client c).playerId } else g

/-- `dm_game_join`. -/
def gameJoin (h : HostPtr) (c : ConnId) : Handler Unit := do
  let result ← askAuth
  let isAdmin ← answer
  update fun s => s.onClient c fun w => { w with isAdmin := isAdmin.number ≠ 0 }
  if result ≠ netSuccess then sendReply c result
  else do
    lock (.gmMutex h)
    let _ ← claimMaster h c
    unlock (.gmMutex h)
    sendMsg
    let s ← state
    propagate h (hasTimeSent ||| isSystemMessage ||| needsReliableSend) (s.client c).playerId
    sendReply c netSuccess

/-- `dm_send_state`. -/
def sendState : Handler Unit := do
  let states ← answer
  forEach (fun _ => sendMsg) (List.range states.number)
  sendMsg

/-- `dm_bcast_sdl_state`. -/
def bcastSdlState (h : HostPtr) (c : ConnId) : Handler Unit := do
  let s ← state
  propagate h (hasPlayerID ||| hasTimeSent ||| isSystemMessage ||| needsReliableSend)
    (s.client c).playerId

/-- What `dm_read_sdl` writes back to the vault or to the database. -/
def saveSdl (msg : NetMsg) : Handler Unit :=
  if msg.object.name = "AgeSDLHook" then writeBackSdl
  else onlyIf msg.persistOnServer do
    -- dm_save_sdl_state
    let _ ← outside
    .ret ()

/-- `dm_read_sdl`. -/
def readSdl (h : HostPtr) (c : ConnId) (msg : NetMsg) (bcast : Bool) : Handler Unit :=
  match msg.sdlBlob with
  | .empty => .ret ()
  | .malformed => .ret ()
  | .noDescriptor => .ret ()
  | .update => do
    -- the update is added to the state
    let _ ← outside
    saveSdl msg
    onlyIf bcast (bcastSdlState h c)

/-- `dm_test_and_set`. -/
def testAndSet (h : HostPtr) (c : ConnId) (msg : NetMsgTestAndSet) : Handler Unit := do
  let reply ← guarded (.lockMutex h) do
    let s ← state
    let result := Locks.testAndSet (s.host h).locks (s.client c).playerId msg {}
    update fun s => s.onHost h fun g => { g with locks := result.1 }
    .ret result.2
  match reply with
  | some _ => sendMsg
  | none => .ret ()

/-- There is room in a vector for `m_clients.size() - 1` elements. -/
def hasRoom (h : HostPtr) (s : Servers) : Bool := sizeMinusOne (s.members h).length ≤ maxSize

def noteSize (h : HostPtr) (s : Servers) : Servers :=
  { s with sizes := ((s.members h).length, 1) :: s.sizes }

/-- `m_members.reserve(m_clients.size() - 1)`. -/
def reserveMembers (h : HostPtr) : Handler Unit :=
  .call (hasRoom h) (noteSize h) .lengthError (.ret ())

/-- The clients of both loops of `dm_send_members`. -/
def Servers.listed (s : Servers) (h : HostPtr) (c : ConnId) : List ConnId :=
  (s.members h).filter fun d =>
    (s.client d).playerId ≠ (s.client c).playerId && !(s.client c).clientKey.isNull

/-- `dm_send_members`. -/
def sendMembers (h : HostPtr) (c : ConnId) : Handler Unit := do
  lock (.clientMutex h)
  let _ ← reserveMembers h
  unlock (.clientMutex h)
  sendMsg
  let s ← state
  forEach (fun _ => sendMsg) (s.host h).clones.entries
  guarded (.clientMutex h) do
    let s ← state
    forEach (fun _ => sendMsg) (s.listed h c)

/-- The case of `dm_load_clone` for objects that are no avatars. -/
def storeClone (g : Host) (msg : NetMsg) : Host :=
  if msg.isLoading then { g with clones := g.clones.set msg.object () }
  else { g with clones := g.clones.erase msg.object }

/-- What `dm_load_clone` does with a message that is safe. -/
def acceptClone (h : HostPtr) (c : ConnId) (msg : NetMsg) : Handler Unit :=
  if msg.isPlayer then do
    lock (.clientMutex h)
    let _ ← update fun s => s.onClient c fun w =>
      { w with clientKey := msg.object, isLoaded := msg.isLoading }
    unlock (.clientMutex h)
    .ret ()
  else update fun s => s.onHost h fun g => storeClone g msg

/-- `dm_load_clone`. -/
def loadClone (h : HostPtr) (c : ConnId) (msg : NetMsg) : Handler Unit :=
  match msg.message with
  | none => .halt
  | some inner =>
    if !inner.isLoadClone then .halt
    else onlyIf inner.safe do
      acceptClone h c msg
      let s ← state
      propagate h msg.contentFlags (s.client c).playerId

/-- The cases of `dm_game_message`, by the type that the client gives. -/
inductive MessageType where
  | gameStateRequest
  | gameMessage
  | gameMessageDirected
  | voice
  | testAndSet
  | membersListReq
  | sdlState
  | sdlStateBCast
  | loadClone
  /-- Nothing is done for the other types. -/
  | other
deriving DecidableEq

def MessageType.ofId (id : UInt32) : MessageType :=
  if id = 0x0265 then .gameStateRequest
  else if id = 0x026B then .gameMessage
  else if id = 0x032E then .gameMessageDirected
  else if id = 0x0279 then .voice
  else if id = 0x027D then .testAndSet
  else if id = 0x02AD then .membersListReq
  else if id = 0x02CD then .sdlState
  else if id = 0x0329 then .sdlStateBCast
  else if id = 0x03B3 then .loadClone
  else .other

/-- A cast to one of some classes.  Where it gives null, the process is gone at the first use. -/
def cast (kinds : List NetKind) (msg : Option NetMsg) (k : NetMsg → Handler Unit) : Handler Unit :=
  match msg with
  | none => .halt
  | some msg => if msg.kind ∈ kinds then k msg else .halt

/-- The message inside a `NetMsgGameMessage`. -/
def inside (msg : NetMsg) (k : Inner → Handler Unit) : Handler Unit :=
  match msg.message with
  | none => .halt
  | some inner => k inner

/-- The case distinction of `dm_game_message`. -/
def switchMessage (h : HostPtr) (c : ConnId) (msg : Option NetMsg) : MessageType → Handler Unit
  | .gameStateRequest => sendState
  | .gameMessage =>
    cast [.gameMessage, .gameMessageDirected, .loadClone] msg fun msg =>
      inside msg fun inner => do
        let s ← state
        let sender := (s.client c).playerId
        if (s.client c).isAdmin then
          if (msg.contentFlags &&& routeToAllPlayers) ≠ 0 then broadcast msg.contentFlags sender
          else propagate h msg.contentFlags sender
        else onlyIf inner.safe (propagate h msg.contentFlags sender)
  | .gameMessageDirected =>
    cast [.gameMessageDirected] msg fun msg =>
      inside msg fun inner => do
        let s ← state
        onlyIf ((s.client c).isAdmin || inner.safe) (propagateTo msg.receivers)
  | .voice => cast [.voice] msg fun msg => propagateTo msg.receivers
  | .testAndSet =>
    cast [.testAndSet] msg fun msg => testAndSet h c ⟨msg.object, msg.lockRequest⟩
  | .membersListReq => sendMembers h c
  | .sdlState => cast [.sdlState, .sdlStateBCast] msg fun msg => readSdl h c msg false
  | .sdlStateBCast => cast [.sdlState, .sdlStateBCast] msg fun msg => readSdl h c msg true
  | .loadClone => cast [.loadClone] msg fun msg => loadClone h c msg
  | .other => .ret ()

/-- `dm_game_message`. -/
def gameMessage (h : HostPtr) (c : ConnId) (messageType : UInt32) : Buffer → Handler Unit
  | .unknownCreatable => sendReply c netInternalError
  | .malformed => sendReply c netInternalError
  | .incomplete none => .halt
  | .incomplete (some _) => sendReply c netInternalError
  | .whole msg => do
    catching (switchMessage h c msg (.ofId messageType)) fun e =>
      if e = .sockHup then .ret () else .exc e
    match msg with
    | none => .halt
    | some _ => sendReply c netSuccess

/-- `dm_bcast_agesdl_hook`. -/
def bcastAgeSdlHook (h : HostPtr) : Handler Unit :=
  propagate h (hasTimeSent ||| needsReliableSend) 0

/-- `dm_local_sdl_update` with a message of the auth daemon. -/
def localSdlUpdate (h : HostPtr) : Handler Unit := do
  -- whether the state can be read
  let vaultState ← answer
  if vaultState.thrown ≠ none then putMessage
  else do
    let _ ← outside
    putMessage
    let _ ← askAuth
    bcastAgeSdlHook h

/-- `dm_global_sdl_update`. -/
def globalSdlUpdate (h : HostPtr) : Handler Unit := do
  let _ ← outside
  bcastAgeSdlHook h

/-- The case distinction of `dm_gameHost`. -/
def HostMsg.handler (h : HostPtr) : HostMsg → Handler Unit
  | .shutdown => gameShutdown h
  | .disconnect c => gameDisconnect h c
  | .join c => gameJoin h c
  | .propagate c messageType buffer => gameMessage h c messageType buffer
  | .localSdl => localSdlUpdate h
  | .globalSdl => globalSdlUpdate h

/-- After an exception `dm_gameHost` answers the client that waits.  An exception of this goes
out of the thread. -/
def HostMsg.afterThrow : HostMsg → Handler Unit
  | .disconnect c => catching (sendReply c netInternalError) fun _ => .halt
  | .join c => catching (sendReply c netInternalError) fun _ => .halt
  | .propagate c _ _ => catching (sendReply c netInternalError) fun _ => .halt
  | .localSdl => catching putMessage fun _ => .halt
  | .shutdown => .ret ()
  | .globalSdl => .ret ()

/-! ## The threads -/

/-- The thread of a host, with the message that it is at. -/
structure HostThread where
  thread : Thread Mutex Servers Answer Exc Unit
  msg : Option HostMsg := none

/-- Where a worker is (GameServ/GameServer.cpp). -/
inductive WorkerPc where
  | idle
  -- cb_join
  | fetchNode
  | waitJoin
  | joined
  -- cb_netmsg
  | waitMsg
  -- the clean-up of wk_gameWorker
  | cleanup
  | waitDisc
  | ended
deriving DecidableEq

inductive WorkerEvent where
  /-- `cb_join` with what `find_game_host` gives. -/
  | join (playerId : UInt32) (host : Option HostPtr)
  /-- The answer to the request for the player. -/
  | nodeFetched (ok : Bool)
  /-- The host has replied. -/
  | replied
  /-- The client is put into `m_clients`, after the reply to its join was sent. -/
  | insert
  | netMsg (messageType : UInt32) (buffer : Buffer)
  /-- The socket is closed, or something was thrown. -/
  | hangUp
  /-- The client is taken out of `m_clients`. -/
  | erase
deriving DecidableEq

/-- A host's number is its address.  It is its place in the list. -/
structure State where
  servers : Servers := {}
  threads : List HostThread := []
  worker : ConnId → WorkerPc := fun _ => .idle

inductive Event where
  | host (h : HostPtr) (a : Answer)
  | worker (c : ConnId) (e : WorkerEvent)
  /-- The end of `start_game_host`. -/
  | start (mcpId : UInt32) (temp : Bool)
  /-- `GameServer_Shutdown`, `GameServer_UpdateVaultSDL` and `GameServer_UpdateGlobalSDL`. -/
  | post (h : HostPtr) (m : HostMsg)

section Steps

variable (s : State)

/-- No host's thread holds the mutex. -/
def State.free (m : Mutex) : Bool := s.threads.all fun t => m ∉ t.thread.held

/-- The thread of a host goes on with this code. -/
def State.goOn (h : HostPtr) (t : HostThread) (msg : Option HostMsg) (code : Handler Unit) : State :=
  { s with threads := s.threads.set h { thread := ⟨code, t.thread.held⟩, msg := msg } }

def State.onServers (f : Servers → Servers) : State := { s with servers := f s.servers }

def State.goto (c : ConnId) (pc : WorkerPc) : State :=
  { s with worker := Function.update s.worker c pc }

def Servers.put (s : Servers) (h : HostPtr) (m : HostMsg) : Servers :=
  s.onHost h fun g => { g with channel := g.channel ++ [m] }

/-- One step of `dm_gameHost`, or of the handler that it is in. -/
def hostStep (h : HostPtr) (a : Answer) : Option State :=
  match s.threads[h]? with
  | none => none
  | some t =>
    match t.thread.code with
    | .exc _ => t.msg.map fun m => s.goOn h t none m.afterThrow
    | .ret _ =>
      -- after a shutdown there is no host any more
      if t.msg = some .shutdown then none else
      match (s.servers.host h).channel with
      | [] => none
      | m :: rest =>
        some ((s.goOn h t (some m) (m.handler h)).onServers fun servers =>
          servers.onHost h fun g => { g with channel := rest })
    | _ =>
      (t.thread.step s.free s.servers a).map fun p =>
        { s with servers := p.1, threads := s.threads.set h { t with thread := p.2 } }

/-- The first reply on the channel of a worker is taken. -/
def takeReply (c : ConnId) (pc : WorkerPc) : Option State :=
  match (s.servers.client c).channel with
  | [] => none
  | _ :: rest =>
    some ((s.goto c pc).onServers fun servers =>
      servers.onClient c fun w => { w with channel := rest })

/-- One step of `wk_gameWorker`. -/
def workerStep (c : ConnId) (e : WorkerEvent) : Option State :=
  match s.worker c, e with
  | .idle, .join playerId host =>
    let s := s.onServers fun servers => servers.onClient c fun w => { w with playerId := playerId }
    if playerId = 0 then some s else
    let s := s.onServers fun servers => servers.onClient c fun w => { w with host := host }
    match host with
    | none => some s
    | some h =>
      if h ∈ s.servers.gameHosts.map Prod.snd then some (s.goto c .fetchNode) else none
  | .fetchNode, .nodeFetched ok =>
    match ok, (s.servers.client c).host with
    | true, some h => some ((s.goto c .waitJoin).onServers fun servers => servers.put h (.join c))
    | _, _ => some (s.goto c .idle)
  | .waitJoin, .replied => takeReply s c .joined
  | .joined, .insert =>
    match (s.servers.client c).host with
    | none => none
    | some h =>
      if s.free (.clientMutex h) then
        some ((s.goto c .idle).onServers fun servers => servers.onHost h fun g =>
          { g with clients := g.clients.set (servers.client c).playerId c })
      else none
  | .joined, .hangUp => some (s.goto c .cleanup)
  | .idle, .netMsg messageType buffer =>
    match (s.servers.client c).host with
    | none => some (s.goto c .cleanup)
    | some h =>
      some ((s.goto c .waitMsg).onServers fun servers =>
        servers.put h (.propagate c messageType buffer))
  | .waitMsg, .replied => takeReply s c .idle
  | .idle, .hangUp => some (s.goto c .cleanup)
  | .cleanup, .erase =>
    match (s.servers.client c).host with
    | none => some (s.goto c .ended)
    | some h =>
      if s.free (.clientMutex h) then
        some ((s.goto c .waitDisc).onServers fun servers =>
          (servers.onHost h fun g =>
            { g with clients := g.clients.erase (servers.client c).playerId }).put h (.disconnect c))
      else none
  | .waitDisc, .replied => takeReply s c .ended
  | _, _ => none

/-- A message of these comes from another part of the server. -/
def HostMsg.fromOutside : HostMsg → Bool
  | .shutdown => true
  | .localSdl => true
  | .globalSdl => true
  | _ => false

def step : Event → Option State
  | .host h a => hostStep s h a
  | .worker c e => workerStep s c e
  | .start mcpId temp =>
    if s.free .gameHostMutex then
      some
        { s with
          servers :=
            { s.servers.onHost s.threads.length fun _ => { temp := temp } with
              gameHosts := (mcpId, s.threads.length) ::
                s.servers.gameHosts.filter fun e => e.1 ≠ mcpId }
          threads := s.threads ++ [{ thread := { code := .ret () } }] }
    else none
  | .post h m =>
    if m.fromOutside && s.free .gameHostMutex && (s.servers.gameHosts.map Prod.snd).contains h then
      some (s.onServers fun servers => servers.put h m)
    else none

end Steps

def machine : Lib.Machine State Event where
  start s := s = {}
  step := step

end Dirtsand.HostLocks
