import Dirtsand.Lib.Transition
import Mathlib.Logic.Function.Basic
import Mathlib.Tactic.Common

/-!
# Workers, game hosts and the auth daemon

The threads of the game server and what they wait for: a worker for each game
connection (`cb_join`, `cb_netmsg`, `find_game_host`, `start_game_host` and the
clean-up of `wk_gameWorker`), a thread for each game host (`dm_gameHost` and its
handlers), and the auth daemon as far as the game server meets it
(`dm_authDaemon` with `GameServer_UpdateVaultSDL` and
`GameServer_UpdateGlobalSDL`).  They talk over first-in first-out channels, and
share `s_gameHosts` under `s_gameHostMutex`.

A program counter stands at every place where a thread can block or where
another can see what it does.  `s_gameHostMutex` is held over several steps
only by the daemon while it waits for a host, and by a host inside
`dm_broadcast` and `dm_propagate_to`; everywhere else it is taken and released
within one step.  A host's `m_clientMutex` is never held over a step, except
that an exception in `dm_send_members` leaves it locked for good.

The handler of a propagated message can do many things, of which only what can
block is kept: its list of `MsgOp`s.  Handlers that send a message to clients
write to broadcast channels, which nobody blocks on; of these messages only the
group-owner notices are kept.
-/

namespace Dirtsand.GameServ

/-- Connections and hosts are told apart by a number.  A host's number is its
address, and is not used again after the host is deleted. -/
abbrev ConnId := Nat

abbrev HostPtr := Nat

/-- Who waits for the answer to a message on a host's channel. -/
inductive Waiter where
  | worker (c : ConnId)
  | authDaemon
deriving DecidableEq, Repr

/-- What the handler of a propagated message does that can block. -/
inductive MsgOp where
  /-- Takes the host's own `m_clientMutex` (`dm_propagate`, `dm_load_clone`). -/
  | own
  /-- `dm_send_members`. -/
  | members
  /-- Calls the auth daemon (`dm_local_sdl_update` for the AgeSDLHook). -/
  | auth
  /-- Takes `s_gameHostMutex` (`dm_broadcast`, a round of `dm_propagate_to`). -/
  | lock
deriving DecidableEq, Repr

/-- The lists of operations that the branches of `dm_game_message` come to. -/
def ValidOps (ops : List MsgOp) : Prop :=
  ops = [] ∨ ops = [.own] ∨ ops = [.own, .own] ∨ ops = [.members] ∨ ops = [.auth] ∨
    ops = [.auth, .own] ∨ ∀ op ∈ ops, op = .lock

instance (ops : List MsgOp) : Decidable (ValidOps ops) :=
  inferInstanceAs (Decidable (_ ∨ _))

/-- A message on a host's channel. -/
inductive HostMsg where
  | join (c : ConnId)
  | propagate (c : ConnId) (ops : List MsgOp)
  | disconnect (c : ConnId)
  | localSdl
  | globalSdl
  /-- `emptyAge`: posted by `dm_game_disconnect`, not by `GameServer_Shutdown`. -/
  | shutdown (emptyAge : Bool)
deriving DecidableEq, Repr

def HostMsg.waiter : HostMsg → Option Waiter
  | .join c => some (.worker c)
  | .propagate c _ => some (.worker c)
  | .disconnect c => some (.worker c)
  | .localSdl => some .authDaemon
  | .globalSdl => none
  | .shutdown _ => none

/-- A request on `s_authChannel`. -/
inductive AuthReq where
  /-- `e_AuthUpdateAgeSrv` of `dm_game_join`. -/
  | updateAgeSrv (h : HostPtr)
  /-- The internal `e_VaultUpdateNode` of a host. -/
  | hostUpdateNode (h : HostPtr)
  /-- The requests of a worker, in `start_game_host` and `cb_join`. -/
  | fetchSDL (c : ConnId)
  | startUpdateNode (c : ConnId)
  | fetchNode (c : ConnId)
  /-- A vault update, by an auth client, of an SDL node that has a game server. -/
  | clientUpdateSdl (mcpId : UInt32)
  | updateGlobalSDL (age : String)
  | other
deriving DecidableEq, Repr

/-- Where a host's thread is. -/
inductive HostPc where
  /-- The host is being started, and has no thread yet. -/
  | unstarted
  | idle
  -- dm_game_join
  | joinCall (c : ConnId)
  | joinWait (c : ConnId)
  | joinDone (c : ConnId) (accepted : Bool)
  -- dm_game_disconnect
  | discStart (c : ConnId)
  | discCall (c : ConnId)
  | discWait (c : ConnId)
  | discEnd (c : ConnId)
  | discReply (c : ConnId)
  -- dm_game_message
  | msg (c : ConnId) (ops : List MsgOp)
  | msgWait (c : ConnId) (ops : List MsgOp)
  | msgHold (c : ConnId) (ops : List MsgOp)
  -- dm_local_sdl_update
  | sdlReply
  | sdlCall
  | sdlWait
  -- dm_bcast_agesdl_hook
  | bcast
  -- dm_game_shutdown
  | shutClose (emptyAge : Bool)
  | shutWait (emptyAge : Bool)
  | shutLock (emptyAge : Bool)
  | shutDelete (emptyAge : Bool)
  | deleted
deriving DecidableEq, Repr

/-- Who still has to be answered by the handler at this point. -/
def HostPc.serves : HostPc → Option Waiter
  | .joinCall c => some (.worker c)
  | .joinWait c => some (.worker c)
  | .joinDone c _ => some (.worker c)
  | .discStart c => some (.worker c)
  | .discCall c => some (.worker c)
  | .discWait c => some (.worker c)
  | .discEnd c => some (.worker c)
  | .discReply c => some (.worker c)
  | .msg c _ => some (.worker c)
  | .msgWait c _ => some (.worker c)
  | .msgHold c _ => some (.worker c)
  | .sdlReply => some .authDaemon
  | _ => none

/-- The fields of `GameHost_Private`.  `authReply` is the channel of the fake
client that a handler waits on; `mutexFree` says that `m_clientMutex` was not
left locked. -/
structure GameHost where
  serverIdx : UInt32
  ageFilename : String
  clients : List (UInt32 × ConnId) := []
  gameMaster : UInt32 := 0
  queue : List HostMsg := []
  pc : HostPc := .unstarted
  authReply : Option Bool := none
  mutexFree : Bool := true
deriving DecidableEq, Repr

/-- Where a worker is. -/
inductive WorkerPc where
  | idle
  -- find_game_host and start_game_host
  | lookup (mcpId : UInt32)
  | startSelect (mcpId : UInt32)
  | startFetch (mcpId : UInt32) (h : HostPtr)
  | startUpdate (mcpId : UInt32) (h : HostPtr)
  | startInsert (mcpId : UInt32) (h : HostPtr)
  | startLoad (h : HostPtr)
  -- the rest of cb_join
  | found (h : HostPtr)
  | waitNode
  | waitJoin
  | insertClient
  -- cb_netmsg
  | waitMsg
  -- the clean-up
  | cleanup
  | putDisc
  | waitDisc
  | ended
deriving DecidableEq, Repr

/-- The fields of `GameClient_Private`.  `chan` is `m_channel`, and `notice` the
latest group-owner notice on `m_broadcast`. -/
structure GameWorker where
  pc : WorkerPc := .idle
  playerId : UInt32 := 0
  mHost : Option HostPtr := none
  chan : List Bool := []
  notice : Option Bool := none
deriving DecidableEq, Repr

/-- Where the auth daemon is.  In `waitHost` it holds `s_gameHostMutex`. -/
inductive DaemonPc where
  | idle
  | wantLock (mcpId : UInt32)
  | waitHost (h : HostPtr)
  | wantGlobal (age : String)
deriving DecidableEq, Repr

/-- Who holds `s_gameHostMutex` between two steps. -/
inductive Holder where
  | authDaemon
  | host (h : HostPtr)
deriving DecidableEq, Repr

structure State where
  hosts : HostPtr → Option GameHost
  nextHost : HostPtr
  gameHosts : List (UInt32 × HostPtr)
  mutex : Option Holder
  workers : ConnId → Option GameWorker
  authChan : List AuthReq
  daemon : DaemonPc
  daemonChan : List Bool

/-- What is open in a step: the outcome of a query or a parse, the element an
unordered map begins with, and the age file name in the database. -/
structure Choice where
  ok : Bool := true
  pick : Nat := 0
  age : String := ""
deriving DecidableEq, Repr

/-! ## A step of a host -/

/-- What a step of a host does outside the host. -/
structure HostEffect where
  auth : Option AuthReq := none
  reply : Option (Waiter × Bool) := none
  mutex : Option (Option Holder) := none
  unlink : Bool := false
  notice : Option (ConnId × Bool) := none
deriving DecidableEq, Repr

/-- What a step of a host looks at outside the host.  `mapFree` says that the
`m_clientMutex` of every host in `s_gameHosts` can be taken. -/
structure HostView where
  mutex : Option Holder
  mapFree : Bool
  playerIdOf : ConnId → UInt32

/-- The case distinction of `dm_gameHost`. -/
def HostMsg.start : HostMsg → HostPc
  | .join c => .joinCall c
  | .propagate c ops => .msg c ops
  | .disconnect c => .discStart c
  | .localSdl => .sdlReply
  | .globalSdl => .bcast
  | .shutdown emptyAge => .shutClose emptyAge

/-- The part of `dm_game_join` after the answer of the auth daemon. -/
def finishJoin (v : HostView) (g : GameHost) (c : ConnId) (accepted : Bool) :
    GameHost × HostEffect :=
  if accepted then
    if g.gameMaster = 0 then
      ({ g with pc := .idle, gameMaster := v.playerIdOf c },
        { reply := some (.worker c, true), notice := some (c, true) })
    else
      ({ g with pc := .idle }, { reply := some (.worker c, true), notice := some (c, false) })
  else ({ g with pc := .idle }, { reply := some (.worker c, false) })

/-- The reassignment of the game-mastership in `dm_game_disconnect`. -/
def reassignMaster (v : HostView) (g : GameHost) (c : ConnId) (pick : Nat) :
    GameHost × HostEffect :=
  if g.gameMaster = v.playerIdOf c then
    match g.clients[pick % g.clients.length]? with
    | some (_, owner) =>
      ({ g with pc := .discCall c, gameMaster := v.playerIdOf owner },
        { notice := some (owner, true) })
    | none => ({ g with pc := .discCall c, gameMaster := 0 }, {})
  else ({ g with pc := .discCall c }, {})

/-- One operation of a propagated message, or the reply at its end.  An
exception goes to the outer handler, which replies as well. -/
def msgStep (h : HostPtr) (v : HostView) (g : GameHost) (c : ConnId) (ch : Choice) :
    List MsgOp → Option (GameHost × HostEffect)
  | [] => some ({ g with pc := .idle }, { reply := some (.worker c, true) })
  | op :: ops =>
    if ch.ok = false then
      some ({ g with pc := .idle }, { reply := some (.worker c, false) })
    else match op with
      | .own => if g.mutexFree then some ({ g with pc := .msg c ops }, {}) else none
      | .members =>
        if g.mutexFree = false then none
        else if g.clients = [] then
          -- reserve(size() - 1) throws between lock() and unlock()
          some ({ g with pc := .idle, mutexFree := false }, { reply := some (.worker c, false) })
        else some ({ g with pc := .msg c ops }, {})
      | .auth => some ({ g with pc := .msgWait c ops }, { auth := some (.hostUpdateNode h) })
      | .lock =>
        if v.mutex = none then
          some ({ g with pc := .msgHold c ops }, { mutex := some (some (.host h)) })
        else none

/-- One step of `dm_gameHost`. -/
def hostStep (h : HostPtr) (v : HostView) (g : GameHost) (ch : Choice) :
    Option (GameHost × HostEffect) :=
  match g.pc with
  | .unstarted => none
  | .idle =>
    match g.queue with
    | [] => none
    | m :: rest => some ({ g with queue := rest, pc := m.start }, {})
  | .joinCall c => some ({ g with pc := .joinWait c }, { auth := some (.updateAgeSrv h) })
  | .joinWait c => g.authReply.map fun accepted =>
      ({ g with pc := .joinDone c accepted, authReply := none }, {})
  | .joinDone c accepted =>
    if accepted = true ∧ g.mutexFree = false then none
    else some (finishJoin v g c accepted)
  | .discStart c => if g.mutexFree then some (reassignMaster v g c ch.pick) else none
  | .discCall c => some ({ g with pc := .discWait c }, { auth := some (.hostUpdateNode h) })
  | .discWait c => g.authReply.map fun _ => ({ g with pc := .discEnd c, authReply := none }, {})
  | .discEnd c =>
    if g.clients = [] then
      some ({ g with pc := .discReply c, queue := g.queue ++ [.shutdown true] }, {})
    else some ({ g with pc := .discReply c }, {})
  | .discReply c => some ({ g with pc := .idle }, { reply := some (.worker c, true) })
  | .msg c ops => msgStep h v g c ch ops
  | .msgWait c ops => g.authReply.map fun _ => ({ g with pc := .msg c ops, authReply := none }, {})
  | .msgHold c ops =>
    if v.mapFree then some ({ g with pc := .msg c ops }, { mutex := some none }) else none
  | .sdlReply =>
    -- an update that cannot be parsed is refused, and ends here
    some ({ g with pc := if ch.ok then .sdlCall else .idle },
      { reply := some (.authDaemon, ch.ok) })
  | .sdlCall => some ({ g with pc := .sdlWait }, { auth := some (.hostUpdateNode h) })
  | .sdlWait => g.authReply.map fun _ => ({ g with pc := .bcast, authReply := none }, {})
  | .bcast => if g.mutexFree then some ({ g with pc := .idle }, {}) else none
  | .shutClose emptyAge =>
    if g.mutexFree then some ({ g with pc := .shutWait emptyAge }, {}) else none
  | .shutWait emptyAge =>
    -- the clients are gone, or five seconds are over
    if g.mutexFree then some ({ g with pc := .shutLock emptyAge }, {}) else none
  | .shutLock emptyAge =>
    if v.mutex = none then some ({ g with pc := .shutDelete emptyAge }, { unlink := true }) else none
  | .shutDelete _ => some ({ g with pc := .deleted }, {})
  | .deleted => none

/-! ## A step of a worker -/

/-- What a worker does to a host. -/
inductive HostAct where
  | put (m : HostMsg)
  | start
  | free
  | insert (playerId : UInt32) (c : ConnId)
  | erase (playerId : UInt32)
deriving DecidableEq, Repr

def HostAct.run : HostAct → GameHost → GameHost
  | .put m, g => { g with queue := g.queue ++ [m] }
  | .start, g => { g with pc := .idle }
  | .free, g => { g with pc := .deleted }
  | .insert playerId c, g =>
    { g with clients := (playerId, c) :: g.clients.filter fun e => e.1 ≠ playerId }
  | .erase playerId, g => { g with clients := g.clients.filter fun e => e.1 ≠ playerId }

structure WorkerEffect where
  auth : Option AuthReq := none
  act : Option (HostPtr × HostAct) := none
  alloc : Option GameHost := none
  publish : Option (UInt32 × HostPtr) := none
deriving DecidableEq, Repr

structure WorkerView where
  mutex : Option Holder
  find : UInt32 → Option HostPtr
  nextHost : HostPtr
  hostFree : HostPtr → Bool

/-- `start_game_host` returned null: `m_host` is null, and the client gets an
error. -/
def GameWorker.noHost (w : GameWorker) : GameWorker :=
  { w with pc := .idle, mHost := none }

/-- One step of a worker inside a callback, or in the clean-up. -/
def workerStep (c : ConnId) (v : WorkerView) (w : GameWorker) (ch : Choice) :
    Option (GameWorker × WorkerEffect) :=
  match w.pc with
  | .idle => none
  | .lookup mcpId =>
    if v.mutex ≠ none then none else
    match v.find mcpId with
    | some h => some ({ w with pc := .found h }, {})
    | none => some ({ w with pc := .startSelect mcpId }, {})
  | .startSelect mcpId =>
    if ch.ok then
      some ({ w with pc := .startFetch mcpId v.nextHost },
        { auth := some (.fetchSDL c)
          alloc := some { serverIdx := mcpId, ageFilename := ch.age } })
    else some (w.noHost, {})
  | .startFetch mcpId h =>
    match w.chan with
    | [] => none
    | ok :: rest =>
      let w := { w with chan := rest }
      if ok = false ∨ ch.ok = false then some (w.noHost, { act := some (h, .free) })
      else if ch.pick = 0 then some ({ w with pc := .startInsert mcpId h }, {})
      else some ({ w with pc := .startUpdate mcpId h }, { auth := some (.startUpdateNode c) })
  | .startUpdate mcpId h =>
    match w.chan with
    | [] => none
    | _ :: rest => some ({ w with pc := .startInsert mcpId h, chan := rest }, {})
  | .startInsert mcpId h =>
    if v.mutex ≠ none then none
    else some ({ w with pc := .startLoad h }, { publish := some (mcpId, h) })
  | .startLoad h =>
    -- an exception on a stored key leaves the host in s_gameHosts without a thread
    if ch.ok then some ({ w with pc := .found h }, { act := some (h, .start) })
    else some (w.noHost, {})
  | .found h => some ({ w with pc := .waitNode, mHost := some h }, { auth := some (.fetchNode c) })
  | .waitNode =>
    match w.chan, w.mHost with
    | true :: rest, some h =>
      some ({ w with pc := .waitJoin, chan := rest }, { act := some (h, .put (.join c)) })
    | false :: rest, _ => some ({ w with pc := .idle, chan := rest }, {})
    | _, _ => none
  | .waitJoin =>
    match w.chan with
    | [] => none
    | _ :: rest =>
      -- the client may have hung up when the reply is sent on
      some ({ w with pc := if ch.ok then .insertClient else .cleanup, chan := rest }, {})
  | .insertClient => do
    let h ← w.mHost
    if v.hostFree h then
      some ({ w with pc := .idle }, { act := some (h, .insert w.playerId c) })
    else none
  | .waitMsg =>
    match w.chan with
    | [] => none
    | _ :: rest => some ({ w with pc := .idle, chan := rest }, {})
  | .cleanup =>
    match w.mHost with
    | none => some ({ w with pc := .ended }, {})
    | some h =>
      if v.hostFree h then some ({ w with pc := .putDisc }, { act := some (h, .erase w.playerId) })
      else none
  | .putDisc => do
    let h ← w.mHost
    some ({ w with pc := .waitDisc }, { act := some (h, .put (.disconnect c)) })
  | .waitDisc =>
    match w.chan with
    | [] => none
    | _ :: rest => some ({ w with pc := .ended, chan := rest }, {})
  | .ended => none

/-! ## The system -/

/-- The replies of a host's step on the channel of the auth daemon. -/
def HostEffect.toDaemon (eff : HostEffect) : List Bool :=
  match eff.reply with
  | some (.authDaemon, ok) => [ok]
  | _ => []

/-- The replies of a host's step on the channel of connection `c`. -/
def HostEffect.toWorker (eff : HostEffect) (c : ConnId) : List Bool :=
  match eff.reply with
  | some (.worker c', ok) => if c' = c then [ok] else []
  | _ => []

def HostEffect.noticeTo (eff : HostEffect) (c : ConnId) : Option Bool :=
  match eff.notice with
  | some (c', own) => if c' = c then some own else none
  | none => none

/-- What a host's step does to the worker of `c`. -/
def HostEffect.onWorker (eff : HostEffect) (c : ConnId) (w : GameWorker) : GameWorker :=
  { w with chan := w.chan ++ eff.toWorker c, notice := (eff.noticeTo c).or w.notice }

/-- What a worker's step does to the host `h`. -/
def WorkerEffect.onHost (eff : WorkerEffect) (h : HostPtr) (g : GameHost) : GameHost :=
  match eff.act with
  | some (h', act) => if h' = h then act.run g else g
  | none => g

namespace State

def modifyHost (s : State) (h : HostPtr) (f : GameHost → GameHost) : State :=
  { s with hosts := fun h' => (s.hosts h').map fun g => if h' = h then f g else g }

/-- `s_gameHosts.find(mcpId)`. -/
def find (s : State) (mcpId : UInt32) : Option HostPtr :=
  (s.gameHosts.find? fun e => e.1 = mcpId).map Prod.snd

def hostFree (s : State) (h : HostPtr) : Bool :=
  match s.hosts h with
  | some g => g.mutexFree
  | none => false

def hostView (s : State) : HostView where
  mutex := s.mutex
  mapFree := s.gameHosts.all fun e => s.hostFree e.2
  playerIdOf c := match s.workers c with
    | some w => w.playerId
    | none => 0

def workerView (s : State) : WorkerView where
  mutex := s.mutex
  find := s.find
  nextHost := s.nextHost
  hostFree := s.hostFree

/-- What a host's step leaves behind. -/
def applyHost (s : State) (h : HostPtr) (g : GameHost) (eff : HostEffect) : State where
  hosts := Function.update s.hosts h (some g)
  nextHost := s.nextHost
  gameHosts := if eff.unlink then s.gameHosts.filter fun e => e.2 ≠ h else s.gameHosts
  mutex := eff.mutex.getD s.mutex
  workers c := (s.workers c).map (eff.onWorker c)
  authChan := s.authChan ++ eff.auth.toList
  daemon := s.daemon
  daemonChan := s.daemonChan ++ eff.toDaemon

/-- The hosts after a worker's step, which may have allocated one. -/
def allocated (s : State) (alloc : Option GameHost) : HostPtr → Option GameHost :=
  match alloc with
  | some g => Function.update s.hosts s.nextHost (some g)
  | none => s.hosts

/-- What a worker's step leaves behind. -/
def applyWorker (s : State) (c : ConnId) (w : GameWorker) (eff : WorkerEffect) : State where
  hosts h := (s.allocated eff.alloc h).map (eff.onHost h)
  nextHost := if eff.alloc.isSome then s.nextHost + 1 else s.nextHost
  gameHosts := match eff.publish with
    | some e => e :: s.gameHosts.filter fun e' => e'.1 ≠ e.1
    | none => s.gameHosts
  mutex := s.mutex
  workers := Function.update s.workers c (some w)
  authChan := s.authChan ++ eff.auth.toList
  daemon := s.daemon
  daemonChan := s.daemonChan

/-- The answer of the daemon to a host. -/
def answerHost (s : State) (h : HostPtr) (ok : Bool) : State :=
  s.modifyHost h fun g => { g with authReply := some ok }

/-- The answer of the daemon to a worker. -/
def answerWorker (s : State) (c : ConnId) (ok : Bool) : State :=
  { s with workers := fun c' => (s.workers c').map fun w =>
      if c' = c then { w with chan := w.chan ++ [ok] } else w }

end State

/-- Put a message on the channel of every host of `s_gameHosts` that `p` holds
of. -/
def State.putAll (s : State) (p : GameHost → Bool) (m : HostMsg) : State :=
  { s with hosts := fun h => (s.hosts h).map fun g =>
      if (s.gameHosts.any fun e => e.2 = h) && p g then { g with queue := g.queue ++ [m] } else g }

/-- One step of `dm_authDaemon`. -/
def daemonStep (s : State) (ch : Choice) : Option State :=
  match s.daemon with
  | .idle =>
    match s.authChan with
    | [] => none
    | r :: rest =>
      let s := { s with authChan := rest }
      match r with
      | .updateAgeSrv h => some (s.answerHost h ch.ok)
      | .hostUpdateNode h => some (s.answerHost h ch.ok)
      | .fetchSDL c => some (s.answerWorker c ch.ok)
      | .startUpdateNode c => some (s.answerWorker c ch.ok)
      | .fetchNode c => some (s.answerWorker c ch.ok)
      | .clientUpdateSdl mcpId => some { s with daemon := .wantLock mcpId }
      | .updateGlobalSDL age => some { s with daemon := .wantGlobal age }
      | .other => some s
  | .wantLock mcpId =>
    if s.mutex ≠ none then none else
    match s.find mcpId with
    | none => some { s with daemon := .idle }
    | some h => some { s.modifyHost h (HostAct.put .localSdl).run with
        daemon := .waitHost h, mutex := some .authDaemon }
  | .waitHost _ =>
    match s.daemonChan with
    | [] => none
    | _ :: rest => some { s with daemon := .idle, daemonChan := rest, mutex := none }
  | .wantGlobal age =>
    if s.mutex ≠ none then none
    else some { s.putAll (fun g => g.ageFilename = age) .globalSdl with daemon := .idle }

/-- A request of an auth client, which does not come from the game server. -/
def AuthReq.fromClient : AuthReq → Bool
  | .clientUpdateSdl _ => true
  | .updateGlobalSDL _ => true
  | .other => true
  | _ => false

inductive Event where
  -- what clients and the operator do
  | accept (c : ConnId)
  | recvJoin (c : ConnId) (mcpId playerId : UInt32)
  | recvMsg (c : ConnId) (ops : List MsgOp)
  | hangup (c : ConnId)
  | authRequest (r : AuthReq)
  | serverShutdown
  -- what the threads of the server do
  | worker (c : ConnId) (ch : Choice)
  | host (h : HostPtr) (ch : Choice)
  | daemon (ch : Choice)
deriving DecidableEq, Repr

/-- What the worker of an idle connection makes of an event. -/
def recvStep (c : ConnId) (w : GameWorker) : Event → Option (GameWorker × WorkerEffect)
  | .recvJoin _ mcpId playerId =>
    if playerId = 0 then some ({ w with playerId := 0 }, {})
    else some ({ w with playerId := playerId, pc := .lookup mcpId }, {})
  | .recvMsg _ ops =>
    if ValidOps ops then
      match w.mHost with
      | none => some ({ w with pc := .cleanup }, {})
      | some h => some ({ w with pc := .waitMsg }, { act := some (h, .put (.propagate c ops)) })
    else none
  | .hangup _ => some ({ w with pc := .cleanup }, {})
  | _ => none

/-- A step of the worker of `c`, where it is idle. -/
def State.recv (s : State) (c : ConnId) (e : Event) : Option State := do
  let w ← s.workers c
  if w.pc ≠ .idle then none else
  let (w, eff) ← recvStep c w e
  some (s.applyWorker c w eff)

def step (s : State) : Event → Option State
  | .accept c =>
    if (s.workers c).isSome then none
    else some { s with workers := Function.update s.workers c (some {}) }
  | .recvJoin c mcpId playerId => s.recv c (.recvJoin c mcpId playerId)
  | .recvMsg c ops => s.recv c (.recvMsg c ops)
  | .hangup c => s.recv c (.hangup c)
  | .authRequest r => if r.fromClient then some { s with authChan := s.authChan ++ [r] } else none
  | .serverShutdown => if s.mutex ≠ none then none else some (s.putAll (fun _ => true) (.shutdown false))
  | .worker c ch => do
    let w ← s.workers c
    let (w, eff) ← workerStep c s.workerView w ch
    some (s.applyWorker c w eff)
  | .host h ch => do
    let g ← s.hosts h
    let (g, eff) ← hostStep h s.hostView g ch
    some (s.applyHost h g eff)
  | .daemon ch => daemonStep s ch

def State.initial : State where
  hosts := fun _ => none
  nextHost := 0
  gameHosts := []
  mutex := none
  workers := fun _ => none
  authChan := []
  daemon := .idle
  daemonChan := []

def machine : Lib.Machine State Event where
  start s := s = State.initial
  step := step

end Dirtsand.GameServ
