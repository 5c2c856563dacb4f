import Dirtsand.GameServ.Handlers
import Dirtsand.PlasMOUL.Reencoding

/-!
# Messages from client to client

What a game host puts into the channels of its clients when one of them has sent it a
message (`dm_game_message`, `dm_load_clone`, `dm_broadcast`, `dm_propagate` and
`dm_propagate_to` in GameServ/GameHost.cpp), from the bytes that came to the bytes that
go out.  Clients come and go as they like.

* `Sent` — a message in the channel of a client.
* `sent_harmless` — **whatever the clients send, in every run nothing but harmless objects is
  in what a client is sent, at any depth, unless an administrator sent it; and what it reads
  is what was sent on.**
* `gameMessage_eq_some` — who gets the message of a client that is no administrator.
-/

namespace Dirtsand.Relay

open GameServ (ConnId HostPtr)
open HostLocks (Client Servers MessageType routeToAllPlayers netSuccess netInternalError hasRoom)
open Lib (Codec Dict)
open Lib.Reader (Reads)
open MOUL
open Streams
open Strings

/-! ## Net messages -/

section

variable {L : Level}

/-- `m_contentFlags` of a net message. -/
def contentFlags : (b : Base) → b.Val → UInt32
  | .netMessage, v => NetMessage.contentFlags v
  | _, _ => 0

/-- `Cast<NetMsgGameMessage>`. -/
def castGameMessage : (c : MOUL.Class) → c.Own L → Option (NetMsgGameMessage L)
  | .netMsgGameMessage, m => some m
  | .netMsgGameMessageDirected, m =>
    some (NetMsgGameMessageDirected.toNetMsgGameMessage m)
  | .netMsgLoadClone, m => some (NetMsgLoadClone.toNetMsgGameMessage m)
  | _, _ => none

def castDirected : (c : MOUL.Class) → c.Own L → Option (NetMsgGameMessageDirected L)
  | .netMsgGameMessageDirected, m => some m
  | _, _ => none

def castLoadClone : (c : MOUL.Class) → c.Own L → Option (NetMsgLoadClone L)
  | .netMsgLoadClone, m => some m
  | _, _ => none

def castVoice : (c : MOUL.Class) → c.Own L → Option NetMsgVoice
  | .netMsgVoice, m => some m
  | _, _ => none

/-- A message inside of another that is written in place of the one that was read. -/
def withMessage (x : L.Of .message) : (c : MOUL.Class) → c.Own L → c.Own L
  | .netMsgGameMessage, m =>
    { (m : NetMsgGameMessage L) with packed := ((NetMsgGameMessage.packed m).1, some x) }
  | .netMsgGameMessageDirected, m =>
    { (m : NetMsgGameMessageDirected L) with
      packed := ((NetMsgGameMessageDirected.toNetMsgGameMessage m).packed.1, some x) }
  | .netMsgLoadClone, m =>
    { (m : NetMsgLoadClone L) with
      packed := ((NetMsgLoadClone.toNetMsgGameMessage m).packed.1, some x) }
  | _, own => own

/-- `m_isInitialState = true`. -/
def initialState : (c : MOUL.Class) → c.Own L → c.Own L
  | .netMsgLoadClone, m => { (m : NetMsgLoadClone L) with isInitialState := true }
  | _, own => own

end

/-- `Message::e_NetNonLocal`. -/
def netNonLocal : UInt32 := (1 : UInt32) <<< 10

def addFlags (flags : UInt32) : (b : Base) → b.Val → b.Val
  | .message, m => { (m : Message) with bcastFlags := Message.bcastFlags m ||| flags }
  | _, v => v

section

variable (D : Decoders) (Z : Zlib)

/-- `m_bcastFlags |= MOUL::Message::e_NetNonLocal`. -/
def nonLocal : (n : Nat) → (c : MOUL.Class) → (level D Z n).Obj c → (level D Z n).Obj c
  | 0, _, obj => obj
  | _ + 1, c, obj => (addFlags netNonLocal c.base obj.1, obj.2)

variable {D Z} in
def marked {n : Nat} (x : (level D Z n).Of .message) : (level D Z n).Of .message :=
  ⟨x.1, nonLocal D Z n x.1.1 x.2⟩

/-! ## The host -/

variable (n : Nat)

/-- Objects of net messages.  There is room for `n` calls on the stack to read what is inside. -/
abbrev NetMsg := (level D Z (n + 1)).Creatable

/-- A message that is in the channel of a client. -/
structure Sent where
  client : ConnId
  /-- An administrator sent it, who may send anything. -/
  byAdmin : Bool
  message : NetMsg D Z n
  buffer : List UInt8

structure State where
  servers : Servers := {}
  clones : Dict Uoid.keyEq (NetMsg D Z n) := .empty
  sent : List (Sent D Z n) := []

variable {D Z n}

/-- `DM_WRITEBUF`. -/
def writeBuf (memory : Memory) (x : NetMsg D Z n) : Except StreamError (List UInt8) := do
  let body ← (level D Z (n + 1)).writeCreatable memory (some x)
  pure (writeU32 x.1.id.toUInt32 ++ (writeU32 (UInt32.ofNat body.length) ++ body))

/-- A message as a client reads it: its type, its length, and the message. -/
def readBuf (memory : Memory) : Read (UInt32 × UInt32 × Option (NetMsg D Z n)) := do
  let type ← readU32
  let size ← readU32
  let x ← (level D Z (n + 1)).readCreatable memory
  pure (type, size, x)

variable (D Z n) in
/-- How a handler ends, with the reply to the client: that of `dm_game_message`, or, where something
is thrown, that of `dm_gameHost`.  There is none where the process ends. -/
abbrev Handled := Option (Nat × State D Z n)

/-- `DM_WRITEBUF`, and `DM_SENDBUF` for each of the clients. -/
def send (memory : Memory) (byAdmin : Bool) (receivers : List ConnId) (x : NetMsg D Z n)
    (s : State D Z n) : Handled D Z n :=
  match writeBuf memory x with
  | .error .crash => none
  | .error _ => some (netInternalError, s)
  | .ok buffer => some (netSuccess,
      { s with sent := s.sent ++ receivers.map fun c => ⟨c, byAdmin, x, buffer⟩ })

/-- `SEND_REPLY`. -/
def reply (c : ConnId) (result : Nat) (s : State D Z n) : State D Z n :=
  { s with servers := s.servers.onClient c fun w => { w with channel := w.channel ++ [result] } }

/-- The clients of `dm_broadcast`. -/
def everyone (s : Servers) (flags sender : UInt32) : List ConnId :=
  s.gameHosts.flatMap fun e => s.receivers e.2 flags sender

/-- The clients of `dm_propagate_to`. -/
def addressed (s : Servers) (receivers : List UInt32) : List ConnId :=
  receivers.filterMap fun receiver =>
    s.gameHosts.findSome? fun e => (s.host e.2).clients.find receiver

variable (h : HostPtr) (c : ConnId) (memory : Memory)

/-- A message that is sent on if it is safe. -/
def ifSafe (x : (level D Z n).Of .message) (s : State D Z n)
    (k : (level D Z n).Of .message → Handled D Z n) : Handled D Z n :=
  match (level D Z n).makeSafeForNet x.1.1 x.2 with
  | .ok obj => k ⟨x.1, obj⟩
  | .error .notSafe => some (netSuccess, s)
  | .error .crash => none

/-- The four cases of `m_clones`. -/
def storeClone (m : NetMsgLoadClone (level D Z n)) (x : NetMsg D Z n) (s : State D Z n) :
    State D Z n :=
  if m.isPlayer then
    { s with servers := s.servers.onClient c fun w =>
      { w with clientKey := m.object, isLoaded := m.isLoading } }
  else if m.isLoading then { s with clones := s.clones.set m.object x }
  else { s with clones := s.clones.erase m.object }

/-- `dm_load_clone`.  The message that is kept is an initial state once it has been sent. -/
def loadClone (x : NetMsg D Z n) (s : State D Z n) : Handled D Z n := do
  let m ← castLoadClone x.1 x.2.2
  let inner ← m.message
  if inner.1.1 = .loadCloneMsg ∨ inner.1.1 = .loadAvatarMsg then
    ifSafe inner s fun inner => do
      let own := withMessage inner x.1 x.2.2
      let s := storeClone c m ⟨x.1, x.2.1, own⟩ s
      let flags := contentFlags x.1.base x.2.1
      let (result, s) ← send memory false
        (s.servers.receivers h flags (s.servers.client c).playerId) ⟨x.1, x.2.1, own⟩ s
      if result = netSuccess then
        some (result, storeClone c m ⟨x.1, x.2.1, initialState x.1 own⟩ s)
      else some (result, s)
  else none

/-- The clones in `dm_send_members`, one after the other. -/
def sendClones : List (NetMsg D Z n) → State D Z n → Handled D Z n
  | [], s => some (netSuccess, s)
  | x :: clones, s => do
    let (result, s) ← send memory false [c] x s
    if result = netSuccess then sendClones clones s else some (result, s)

/-- The cases of `dm_game_message` that send something on; the others send what the host has made
itself. -/
def switchMessage (x : NetMsg D Z n) (s : State D Z n) : MessageType → Handled D Z n
  | .gameMessage => do
    let m ← castGameMessage x.1 x.2.2
    let inner ← m.message
    let inner := marked inner
    let w := s.servers.client c
    let flags := contentFlags x.1.base x.2.1
    let host := s.servers.receivers h flags w.playerId
    let all := everyone s.servers flags w.playerId
    if w.isAdmin then
      send memory true (if (flags &&& routeToAllPlayers) ≠ 0 then all else host)
        ⟨x.1, x.2.1, withMessage inner x.1 x.2.2⟩ s
    else ifSafe inner s fun inner =>
      send memory false host ⟨x.1, x.2.1, withMessage inner x.1 x.2.2⟩ s
  | .gameMessageDirected => do
    let m ← castDirected x.1 x.2.2
    let inner ← m.message
    let inner := marked inner
    let receivers := addressed s.servers m.receivers
    if (s.servers.client c).isAdmin then
      send memory true receivers ⟨x.1, x.2.1, withMessage inner x.1 x.2.2⟩ s
    else ifSafe inner s fun inner =>
      send memory false receivers ⟨x.1, x.2.1, withMessage inner x.1 x.2.2⟩ s
  | .voice => do
    let m ← castVoice x.1 x.2.2
    send memory false (addressed s.servers m.2.2.2) x s
  | .loadClone => loadClone h c memory x s
  | .membersListReq =>
    if hasRoom h s.servers then sendClones c memory s.clones.values s
    else some (netInternalError, s)
  | .testAndSet => if x.1 = .netMsgTestAndSet then some (netSuccess, s) else none
  | .sdlState | .sdlStateBCast =>
    if x.1 = .netMsgSDLState ∨ x.1 = .netMsgSDLStateBCast then some (netSuccess, s) else none
  | .gameStateRequest | .other => some (netSuccess, s)

/-- `dm_game_message`.  There is no result where the process ends. -/
def gameMessage (messageType : UInt32) (bytes : List UInt8) (s : State D Z n) :
    Option (State D Z n) :=
  match ((level D Z (n + 1)).pointer (.base .netMessage)).read memory bytes with
  | .error .crash => none
  | .error _ => some (reply c netInternalError s)
  | .ok (none, _) => none
  | .ok (some x, rest) =>
    if rest ≠ [] then some (reply c netInternalError s)
    else (switchMessage h c memory x.creatable s (.ofId messageType)).map fun p => reply c p.1 p.2

end

/-! ## Runs -/

section

variable (D : Decoders) (Z : Zlib) (n : Nat) (h : HostPtr)

inductive Event where
  /-- Clients come and go, on this host and on others. -/
  | clients (servers : Servers)
  /-- A message from a client, with what the memory holds when it is read. -/
  | message (c : ConnId) (memory : Memory) (messageType : UInt32) (bytes : List UInt8)

def machine : Lib.Machine (State D Z n) Event where
  start s := s.clones = .empty ∧ s.sent = []
  step s
    | .clients servers => some { s with servers := servers }
    | .message c memory messageType bytes => gameMessage h c memory messageType bytes s

end

/-! ## What is inside -/

section

variable {D : Decoders} {Z : Zlib} {n : Nat}

theorem castGameMessage_of_directed {L : Level} {c : MOUL.Class} {own : c.Own L}
    {m : NetMsgGameMessageDirected L} (h : castDirected c own = some m) :
    castGameMessage c own = some m.toNetMsgGameMessage := by
  cases c <;> cases h
  rfl

theorem castGameMessage_of_loadClone {L : Level} {c : MOUL.Class} {own : c.Own L}
    {m : NetMsgLoadClone L} (h : castLoadClone c own = some m) :
    castGameMessage c own = some m.toNetMsgGameMessage := by
  cases c <;> cases h
  rfl

theorem children_withMessage {L : Level} {c : MOUL.Class} {own : c.Own L} {m : NetMsgGameMessage L}
    (h : castGameMessage c own = some m) (x : L.Of .message) :
    c.children (withMessage x c own) = [x.creatable] := by
  cases c <;> first
    | rfl
    | cases h

theorem came_withMessage {L : Level} {c : MOUL.Class} {own : c.Own L} {m : NetMsgGameMessage L}
    (h : castGameMessage c own = some m) {x : L.Of .message} (hx : L.Came x.creatable)
    (hcame : (c.own D Z L).Came own) : (c.own D Z L).Came (withMessage x c own) := by
  have hpointer : (L.pointer .message).Came (some x) := by
    intro y hy
    rw [← Option.some.inj hy]
    exact hx
  cases c
  case netMsgGameMessage => exact ⟨⟨hcame.1.1, hpointer⟩, hcame.2⟩
  case netMsgGameMessageDirected => exact ⟨⟨⟨hcame.1.1.1, hpointer⟩, hcame.1.2⟩, hcame.2⟩
  case netMsgLoadClone => exact ⟨⟨⟨hcame.1.1.1, hpointer⟩, hcame.1.2⟩, hcame.2⟩
  all_goals cases h

theorem children_initialState {L : Level} {c : MOUL.Class} (own : c.Own L) :
    c.children (initialState c own) = c.children own := by
  cases c <;> rfl

theorem came_initialState {L : Level} {c : MOUL.Class} {own : c.Own L}
    (hcame : (c.own D Z L).Came own) : (c.own D Z L).Came (initialState c own) := by
  cases c
  case netMsgLoadClone => exact ⟨hcame.1, hcame.2.1, trivial, trivial, trivial⟩
  all_goals exact hcame

theorem came_marked {x : (level D Z n).Of .message} (h : (level D Z n).Came x.creatable) :
    (level D Z n).Came (marked x).creatable := by
  obtain ⟨c, obj⟩ := x
  cases n with
  | zero => exact Empty.elim obj
  | succ n =>
    refine ⟨?_, h.2⟩
    have hbase : ∀ (b : Base) (v : b.Val), b.codec.Came v → b.codec.Came (addFlags netNonLocal b v) := by
      intro b v hv
      cases b
      case message => exact ⟨hv.1, hv.2.1, trivial, trivial⟩
      all_goals exact hv
    exact hbase c.1.base obj.1 h.1

/-! ## What the host keeps and sends -/

/-- A net message that was read, changed or not, and is harmless inside if no administrator sent
it. -/
structure Proper (byAdmin : Bool) (x : NetMsg D Z n) : Prop where
  came : (level D Z (n + 1)).Came x
  harmless : byAdmin = false →
    ∀ y ∈ x.1.children x.2.2, Everywhere Class.Harmless D Z n y

structure Inv (s : State D Z n) : Prop where
  sent : ∀ y ∈ s.sent, Proper y.byAdmin y.message ∧
    ∃ memory, writeBuf memory y.message = .ok y.buffer
  clones : ∀ x ∈ s.clones.values, Proper false x

theorem inv_reply {s : State D Z n} (h : Inv s) (c : ConnId) (result : Nat) :
    Inv (reply c result s) := ⟨h.sent, h.clones⟩

theorem inv_send {s s' : State D Z n} (h : Inv s) {memory : Memory} {byAdmin : Bool}
    {receivers : List ConnId} {x : NetMsg D Z n} (hx : Proper byAdmin x) {result : Nat}
    (hsend : send memory byAdmin receivers x s = some (result, s')) : Inv s' := by
  rw [send] at hsend
  split at hsend
  · cases hsend
  · rwa [← (Prod.mk.inj (Option.some.inj hsend)).2]
  · rename_i buffer hbuffer
    obtain ⟨-, rfl⟩ := Prod.mk.inj (Option.some.inj hsend)
    refine ⟨fun y hy => ?_, h.clones⟩
    obtain hy | hy := List.mem_append.1 hy
    · exact h.sent y hy
    · obtain ⟨c, -, rfl⟩ := List.mem_map.1 hy
      exact ⟨hx, memory, hbuffer⟩

/-- A message inside that was asked, and may go on. -/
theorem proper_safe {x : NetMsg D Z n} (hcame : (level D Z (n + 1)).Came x)
    {m : NetMsgGameMessage (level D Z n)} (hm : castGameMessage x.1 x.2.2 = some m)
    {inner : (level D Z n).Of .message} (hinner : (level D Z n).Came inner.creatable)
    {obj : (level D Z n).Obj inner.1.1}
    (hsafe : (level D Z n).makeSafeForNet inner.1.1 inner.2 = .ok obj) :
    Proper false (⟨x.1, x.2.1, withMessage ⟨inner.1, obj⟩ x.1 x.2.2⟩ : NetMsg D Z n) := by
  have hbase : inner.1.1.base ≠ .netMessage := guarded_base (b := .message) (by decide) _ inner.1.2
  have hobj : (level D Z n).Came ⟨inner.1.1, obj⟩ := by
    obtain ⟨-, rfl⟩ := (makeSafeForNet_eq_ok hbase).1 hsafe
    exact came_calm hinner
  refine ⟨⟨hcame.1, came_withMessage hm hobj hcame.2⟩, fun _ y hy => ?_⟩
  change y ∈ x.1.children (withMessage ⟨inner.1, obj⟩ x.1 x.2.2) at hy
  rw [children_withMessage hm, List.mem_singleton] at hy
  rw [hy]
  exact (makeSafeForNet_fixed hbase).1 hsafe

theorem proper_admin {x : NetMsg D Z n} (hcame : (level D Z (n + 1)).Came x)
    {m : NetMsgGameMessage (level D Z n)} (hm : castGameMessage x.1 x.2.2 = some m)
    {inner : (level D Z n).Of .message} (hinner : (level D Z n).Came inner.creatable) :
    Proper true (⟨x.1, x.2.1, withMessage inner x.1 x.2.2⟩ : NetMsg D Z n) :=
  ⟨⟨hcame.1, came_withMessage hm hinner hcame.2⟩, fun h => absurd h Bool.false_ne_true.symm⟩

/-- The message inside of one that was read was read, too. -/
theorem came_message {x : NetMsg D Z n} (hcame : (level D Z (n + 1)).Came x)
    {m : NetMsgGameMessage (level D Z n)} (hm : castGameMessage x.1 x.2.2 = some m)
    {inner : (level D Z n).Of .message} (hinner : m.message = some inner) :
    (level D Z n).Came inner.creatable := by
  have hown : (x.1.own D Z (level D Z n)).Came x.2.2 := hcame.2
  refine came_children hown _ ?_
  have hmem : inner.creatable ∈ pointee m.message := mem_pointee.2 ⟨inner, hinner, rfl⟩
  obtain ⟨c, v, own⟩ := x
  cases c <;> cases hm
  all_goals exact hmem

theorem proper_initialState {byAdmin : Bool} {x : NetMsg D Z n} (h : Proper byAdmin x) :
    Proper byAdmin (⟨x.1, x.2.1, initialState x.1 x.2.2⟩ : NetMsg D Z n) := by
  have hown : (x.1.own D Z (level D Z n)).Came x.2.2 := h.came.2
  refine ⟨⟨h.came.1, came_initialState hown⟩, fun hnot y hy => ?_⟩
  change y ∈ x.1.children (initialState x.1 x.2.2) at hy
  rw [children_initialState] at hy
  exact h.harmless hnot y hy

theorem inv_ifSafe {s s' : State D Z n} (h : Inv s) {inner : (level D Z n).Of .message}
    {k : (level D Z n).Of .message → Handled D Z n} {result : Nat}
    (hk : ∀ obj, (level D Z n).makeSafeForNet inner.1.1 inner.2 = .ok obj →
      k ⟨inner.1, obj⟩ = some (result, s') → Inv s')
    (hsafe : ifSafe inner s k = some (result, s')) : Inv s' := by
  rw [ifSafe] at hsafe
  split at hsafe
  · rename_i obj hobj
    exact hk obj hobj hsafe
  · rwa [← (Prod.mk.inj (Option.some.inj hsafe)).2]
  · cases hsafe

/-! ## Steps -/

variable {h : HostPtr} {c : ConnId} {memory : Memory} {result : Nat}

theorem inv_storeClone {s : State D Z n} (hs : Inv s) {m : NetMsgLoadClone (level D Z n)}
    {x : NetMsg D Z n} (hx : Proper false x) : Inv (storeClone c m x s) := by
  rw [storeClone]
  split
  · exact ⟨hs.sent, hs.clones⟩
  · split
    · refine ⟨hs.sent, fun y hy => ?_⟩
      obtain rfl | hy := Lib.Dict.mem_values_set hy
      · exact hx
      · exact hs.clones y hy
    · exact ⟨hs.sent, fun y hy => hs.clones y (Lib.Dict.mem_values_erase hy)⟩

theorem inv_loadClone {s s' : State D Z n} (hs : Inv s) {x : NetMsg D Z n}
    (hcame : (level D Z (n + 1)).Came x)
    (hload : loadClone h c memory x s = some (result, s')) : Inv s' := by
  obtain ⟨m, hm, hload⟩ := Option.bind_eq_some_iff.1 hload
  obtain ⟨inner, hinner, hload⟩ := Option.bind_eq_some_iff.1 hload
  split at hload
  · have hcast := castGameMessage_of_loadClone hm
    refine inv_ifSafe hs (fun obj hobj hsend => ?_) hload
    have hproper := proper_safe hcame hcast (came_message hcame hcast hinner) hobj
    obtain ⟨⟨sent, s₁⟩, hsend, hstore⟩ := Option.bind_eq_some_iff.1 hsend
    have hs₁ := inv_send (inv_storeClone hs hproper) hproper hsend
    dsimp only at hstore
    split at hstore
    · rw [← (Prod.mk.inj (Option.some.inj hstore)).2]
      exact inv_storeClone hs₁ (proper_initialState hproper)
    · rwa [← (Prod.mk.inj (Option.some.inj hstore)).2]
  · cases hload

theorem inv_sendClones {s s' : State D Z n} (hs : Inv s) {clones : List (NetMsg D Z n)}
    (hclones : ∀ x ∈ clones, Proper false x)
    (hsend : sendClones c memory clones s = some (result, s')) : Inv s' := by
  induction clones generalizing s with
  | nil => rwa [← (Prod.mk.inj (Option.some.inj hsend)).2]
  | cons x clones ih =>
    obtain ⟨⟨sent, s₁⟩, hx, hrest⟩ := Option.bind_eq_some_iff.1 hsend
    have hs₁ := inv_send hs (hclones x List.mem_cons_self) hx
    dsimp only at hrest
    split at hrest
    · exact ih hs₁ (fun y hy => hclones y (List.mem_cons_of_mem x hy)) hrest
    · rwa [← (Prod.mk.inj (Option.some.inj hrest)).2]

theorem inv_switchMessage {s s' : State D Z n} (hs : Inv s) {x : NetMsg D Z n}
    (hcame : (level D Z (n + 1)).Came x) {type : MessageType}
    (hswitch : switchMessage h c memory x s type = some (result, s')) : Inv s' := by
  cases type with
  | gameMessage =>
    obtain ⟨m, hm, hswitch⟩ := Option.bind_eq_some_iff.1 hswitch
    obtain ⟨inner, hinner, hswitch⟩ := Option.bind_eq_some_iff.1 hswitch
    have hinner' := came_marked (came_message hcame hm hinner)
    dsimp only at hswitch
    split at hswitch
    · exact inv_send hs (proper_admin hcame hm hinner') hswitch
    · exact inv_ifSafe hs (fun obj hobj => inv_send hs (proper_safe hcame hm hinner' hobj)) hswitch
  | gameMessageDirected =>
    obtain ⟨m, hm, hswitch⟩ := Option.bind_eq_some_iff.1 hswitch
    obtain ⟨inner, hinner, hswitch⟩ := Option.bind_eq_some_iff.1 hswitch
    have hcast := castGameMessage_of_directed hm
    have hinner' := came_marked (came_message hcame hcast hinner)
    dsimp only at hswitch
    split at hswitch
    · exact inv_send hs (proper_admin hcame hcast hinner') hswitch
    · exact inv_ifSafe hs (fun obj hobj => inv_send hs (proper_safe hcame hcast hinner' hobj))
        hswitch
  | voice =>
    obtain ⟨m, hm, hswitch⟩ := Option.bind_eq_some_iff.1 hswitch
    refine inv_send hs ⟨hcame, fun _ => ?_⟩ hswitch
    -- a voice has no objects inside
    obtain ⟨c, v, own⟩ := x
    cases c <;> cases hm
    exact nofun
  | loadClone => exact inv_loadClone hs hcame hswitch
  | membersListReq =>
    rw [switchMessage] at hswitch
    split at hswitch
    · exact inv_sendClones hs hs.clones hswitch
    · rwa [← (Prod.mk.inj (Option.some.inj hswitch)).2]
  | testAndSet =>
    change (if _ then _ else _) = _ at hswitch
    split at hswitch
    · rwa [← (Prod.mk.inj (Option.some.inj hswitch)).2]
    · cases hswitch
  | sdlState =>
    change (if _ then _ else _) = _ at hswitch
    split at hswitch
    · rwa [← (Prod.mk.inj (Option.some.inj hswitch)).2]
    · cases hswitch
  | sdlStateBCast =>
    change (if _ then _ else _) = _ at hswitch
    split at hswitch
    · rwa [← (Prod.mk.inj (Option.some.inj hswitch)).2]
    · cases hswitch
  | gameStateRequest => rwa [← (Prod.mk.inj (Option.some.inj hswitch)).2]
  | other => rwa [← (Prod.mk.inj (Option.some.inj hswitch)).2]

theorem inv_gameMessage {s s' : State D Z n} (hs : Inv s) {messageType : UInt32}
    {bytes : List UInt8} (hgame : gameMessage h c memory messageType bytes s = some s') :
    Inv s' := by
  rw [gameMessage] at hgame
  split at hgame
  · cases hgame
  · rw [← Option.some.inj hgame]
    exact inv_reply hs c netInternalError
  · cases hgame
  · rename_i x rest hread
    have hcame : (level D Z (n + 1)).Came x.creatable :=
      ((level D Z (n + 1)).pointer (.base .netMessage)).came memory bytes _ _ hread x rfl
    split at hgame
    · rw [← Option.some.inj hgame]
      exact inv_reply hs c netInternalError
    · obtain ⟨⟨result, s₁⟩, hswitch, rfl⟩ := Option.map_eq_some_iff.1 hgame
      exact inv_reply (inv_switchMessage hs hcame hswitch) c result

theorem inv_reachable {s : State D Z n} (hs : (machine D Z n h).Reachable s) : Inv s := by
  refine hs.invariant ?_ ?_
  · rintro s ⟨hclones, hsent⟩
    refine ⟨fun y hy => ?_, fun x hx => ?_⟩
    · rw [hsent] at hy
      cases hy
    · rw [hclones] at hx
      cases hx
  · intro s e s' hs _ hstep
    cases e with
    | clients servers =>
      rw [← Option.some.inj hstep]
      exact ⟨hs.sent, hs.clones⟩
    | message c memory messageType bytes => exact inv_gameMessage hs hstep

/-- **What comes to a client is harmless at every depth, if no administrator sent it, and is read as
it was sent on.** -/
theorem sent_harmless {s : State D Z n} (hs : (machine D Z n h).Reachable s) :
    ∀ y ∈ s.sent,
      (y.byAdmin = false →
        ∀ x ∈ y.message.1.children y.message.2.2, Everywhere Class.Harmless D Z n x) ∧
      (Everywhere (fun L c => c.Fit D Z L) D Z (n + 1) y.message → ∀ memory,
        Reads (readBuf memory) y.buffer
          (y.message.1.id.toUInt32, UInt32.ofNat (y.buffer.length - 8), some y.message)) := by
  intro y hy
  obtain ⟨hproper, memory, hwrite⟩ := (inv_reachable hs).sent y hy
  refine ⟨hproper.harmless, fun hfit => ?_⟩
  have hkept : (level D Z (n + 1)).creatable.Kept (some y.message) := by
    intro x hx
    rw [← Option.some.inj hx]
    exact kept_of_came hproper.came hfit
  obtain ⟨body, hbody, hreads⟩ := (level D Z (n + 1)).creatable.back memory _ hkept
  have hbuffer : y.buffer = writeU32 y.message.1.id.toUInt32 ++
      (writeU32 (UInt32.ofNat body.length) ++ body) := by
    change (level D Z (n + 1)).writeCreatable memory (some y.message) = .ok body at hbody
    rw [writeBuf, hbody] at hwrite
    exact (Except.ok.inj hwrite).symm
  have hsize : y.buffer.length - 8 = body.length := by
    have hword (w : UInt32) : (writeU32 w).length = 4 := Lib.Reader.length_leBytes 4 _
    rw [hbuffer, List.length_append, List.length_append, hword, hword]
    omega
  rw [hsize, hbuffer]
  exact fun memory' => (reads_u32 _).bind ((reads_u32 _).bind
    ((hreads memory').andThen (.pure _)))

/-! ## Who is sent a message -/

theorem everywhere_marked {P : ∀ L, (c : MOUL.Class) → c.Own L → Prop}
    {x : (level D Z n).Of .message} :
    Everywhere P D Z n (marked x).creatable ↔ Everywhere P D Z n x.creatable := by
  cases n <;> rfl

/-- The net message with the message inside as `makeSafeForNet` leaves it. -/
def calmed (x : NetMsg D Z n) (inner : (level D Z n).Of .message) : NetMsg D Z n :=
  ⟨x.1, x.2.1, withMessage ⟨inner.1, calm D Z n inner.1.1 (marked inner).2⟩ x.1 x.2.2⟩

/-- What can be sent is sent one time to each of the receivers. -/
theorem send_of_kept (memory : Memory) (s : State D Z n) {x : NetMsg D Z n}
    (hx : (level D Z (n + 1)).Kept x) (byAdmin : Bool) (receivers : List ConnId) :
    ∃ buffer, send memory byAdmin receivers x s = some (netSuccess, { s with
      sent := s.sent ++ receivers.map fun c => ⟨c, byAdmin, x, buffer⟩ }) := by
  have hkept : (level D Z (n + 1)).creatable.Kept (some x) := by
    intro y hy
    rwa [← Option.some.inj hy]
  obtain ⟨body, hbody, -⟩ := (level D Z (n + 1)).creatable.back memory _ hkept
  have hwrite : writeBuf memory x = .ok (writeU32 x.1.id.toUInt32 ++
      (writeU32 (UInt32.ofNat body.length) ++ body)) := by
    change (level D Z (n + 1)).writeCreatable memory (some x) = .ok body at hbody
    rw [writeBuf, hbody]
    rfl
  rw [send, hwrite]
  exact ⟨_, rfl⟩

section

variable {s : State D Z n} {bytes : List UInt8} {x : (level D Z (n + 1)).Of (.base .netMessage)}
  {m : NetMsgGameMessage (level D Z n)} {inner : (level D Z n).Of .message}

/-- What `dm_game_message` comes to for such a message. -/
theorem gameMessage_eq (hread : ((level D Z (n + 1)).pointer (.base .netMessage)).read memory bytes =
      .ok (some x, []))
    (hm : castGameMessage x.1.1 x.2.2 = some m) (hinner : m.message = some inner)
    (hadmin : (s.servers.client c).isAdmin = false) :
    gameMessage h c memory 0x026B bytes s =
      (ifSafe (marked inner) s fun inner' =>
        send memory false (s.servers.receivers h (contentFlags x.1.1.base x.2.1)
          (s.servers.client c).playerId) ⟨x.1.1, x.2.1, withMessage inner' x.1.1 x.2.2⟩ s).map
        fun p => reply c p.1 p.2 := by
  rw [gameMessage, hread]
  dsimp only
  rw [if_neg (not_not.2 rfl)]
  refine congrArg (Option.map _) ?_
  show (castGameMessage x.1.1 x.2.2 >>= _) = _
  rw [hm]
  show (m.message >>= _) = _
  rw [hinner]
  show (if (s.servers.client c).isAdmin then _ else _) = _
  rw [hadmin]
  rfl

theorem gameMessage_allowed
    (hread : ((level D Z (n + 1)).pointer (.base .netMessage)).read memory bytes =
      .ok (some x, []))
    (hm : castGameMessage x.1.1 x.2.2 = some m) (hinner : m.message = some inner)
    (hadmin : (s.servers.client c).isAdmin = false)
    (hallowed : Everywhere Class.Allowed D Z n inner.creatable)
    (hfit : Everywhere (fun L c => c.Fit D Z L) D Z (n + 1) (calmed x.creatable inner)) :
    ∃ buffer, gameMessage h c memory 0x026B bytes s = some (reply c netSuccess { s with
      sent := s.sent ++ (s.servers.receivers h (contentFlags x.1.1.base x.2.1)
        (s.servers.client c).playerId).map fun d =>
          ⟨d, false, calmed x.creatable inner, buffer⟩ }) := by
  have hbase : inner.1.1.base ≠ .netMessage := guarded_base (b := .message) (by decide) _ inner.1.2
  have hcame : (level D Z (n + 1)).Came x.creatable :=
    ((level D Z (n + 1)).pointer (.base .netMessage)).came memory bytes _ _ hread x rfl
  have hsafe : (level D Z n).makeSafeForNet (marked inner).1.1 (marked inner).2 =
      .ok (calm D Z n inner.1.1 (marked inner).2) :=
    (makeSafeForNet_eq_ok hbase).2 ⟨everywhere_marked.2 hallowed, rfl⟩
  have hproper := proper_safe hcame hm (came_marked (came_message hcame hm hinner)) hsafe
  obtain ⟨buffer, hsend⟩ := send_of_kept memory s (kept_of_came hproper.came hfit) false
    (s.servers.receivers h (contentFlags x.1.1.base x.2.1) (s.servers.client c).playerId)
  refine ⟨buffer, ?_⟩
  rw [gameMessage_eq hread hm hinner hadmin, ifSafe, hsafe]
  exact congrArg (Option.map _) hsend

/-- **A message of a client that is no administrator goes one time to each other client of the
host, if it is allowed at every depth, and else to nobody.** -/
theorem gameMessage_relayed
    (hread : ((level D Z (n + 1)).pointer (.base .netMessage)).read memory bytes =
      .ok (some x, []))
    (hm : castGameMessage x.1.1 x.2.2 = some m) (hinner : m.message = some inner)
    (hadmin : (s.servers.client c).isAdmin = false) :
    (Everywhere Class.Allowed D Z n inner.creatable →
      Everywhere (fun L c => c.Fit D Z L) D Z (n + 1) (calmed x.creatable inner) →
      ∃ buffer, gameMessage h c memory 0x026B bytes s = some (reply c netSuccess { s with
        sent := s.sent ++ (s.servers.receivers h (contentFlags x.1.1.base x.2.1)
          (s.servers.client c).playerId).map fun d =>
            ⟨d, false, calmed x.creatable inner, buffer⟩ })) ∧
    (¬ Everywhere Class.Allowed D Z n inner.creatable →
      ∀ s', gameMessage h c memory 0x026B bytes s = some s' → s' = reply c netSuccess s) := by
  refine ⟨gameMessage_allowed hread hm hinner hadmin, fun hnot s' hs' => ?_⟩
  have hbase : inner.1.1.base ≠ .netMessage := guarded_base (b := .message) (by decide) _ inner.1.2
  rw [gameMessage_eq hread hm hinner hadmin, ifSafe] at hs'
  split at hs'
  · rename_i obj hobj
    exact absurd (everywhere_marked.1 ((makeSafeForNet_eq_ok hbase).1 hobj).1) hnot
  · exact (Option.some.inj hs').symm
  · cases hs'

end

end

/-! ## A reply -/

section

/-- A `ServerReplyMsg` in a `NetMsgGameMessage`. -/
def replyMsg : (level decoders .stored 1).Of .message :=
  ⟨⟨.serverReplyMsg, rfl⟩, ((⟨none, [], 0, 0⟩ : Message), (1 : Int32))⟩

def replyNet : (level decoders .stored 2).Of (.base .netMessage) :=
  ⟨⟨.netMsgGameMessage, rfl⟩, ((⟨0, NetMessage.version, {}, 0, 0, 0, Uuid.null⟩ : NetMessage),
    (⟨(0, some replyMsg), {}⟩ : NetMsgGameMessage (level decoders .stored 1)))⟩

def replyBytes : List UInt8 :=
  [107, 2, 0, 0, 0, 0, 23, 0, 0, 0, 0, 23, 0, 0, 0, 111, 2, 0, 0, 0, 0, 0, 0, 0, 0, 0, 0, 0, 0, 0, 0,
    0, 0, 0, 1, 0, 0, 0, 0]

/-- Two clients of one host, who are players 1 and 2. -/
def twoClients : Servers where
  host _ := { clients := (Dict.empty.set 1 0).set 2 1 }
  client c := { playerId := if c = 0 then 1 else 2 }

theorem replyBytes_read :
    ((level decoders .stored 2).pointer (.base .netMessage)).read default replyBytes =
      .ok (some replyNet, []) := rfl

theorem replyMsg_allowed : Everywhere Class.Allowed decoders .stored 1 replyMsg.creatable :=
  ⟨trivial, nofun⟩

theorem replyNet_fit : Everywhere (fun L c => c.Fit decoders .stored L) decoders .stored 2
    (calmed replyNet.creatable replyMsg) := by
  refine ⟨fun memory bytes hbytes => ?_, fun x hx => ?_⟩
  · obtain rfl := Except.ok.inj hbytes
    exact ⟨Zlib.stored_correct, ⟨by decide, nofun⟩, nofun⟩
  · obtain rfl := List.mem_singleton.1 hx
    exact ⟨trivial, nofun⟩

/-- The other client is sent the reply, and the client itself is not. -/
theorem gameMessage_relayed_reply : ∃ buffer,
    gameMessage 0 0 default 0x026B replyBytes { servers := twoClients } =
      some (reply 0 netSuccess { servers := twoClients
                                 sent := [⟨1, false, calmed replyNet.creatable replyMsg, buffer⟩] }) :=
  (gameMessage_relayed (m := ⟨(0, some replyMsg), {}⟩) replyBytes_read rfl rfl rfl).1
    replyMsg_allowed replyNet_fit

/-- The reply is harmless, and the other client reads it. -/
theorem sent_harmless_reply : ∃ s, (machine decoders .stored 1 0).Reachable s ∧ ∃ y ∈ s.sent,
    (∀ x ∈ y.message.1.children y.message.2.2, Everywhere Class.Harmless decoders .stored 1 x) ∧
    ∀ memory, Reads (readBuf memory) y.buffer
      (y.message.1.id.toUInt32, UInt32.ofNat (y.buffer.length - 8), some y.message) := by
  obtain ⟨buffer, hgame⟩ := gameMessage_allowed (h := 0) (c := 0) (s := { servers := twoClients })
    (m := ⟨(0, some replyMsg), {}⟩) replyBytes_read rfl rfl rfl replyMsg_allowed replyNet_fit
  have hstart : (machine decoders .stored 1 0).Reachable { servers := twoClients } :=
    .start ⟨rfl, rfl⟩
  have hstep : (machine decoders .stored 1 0).step { servers := twoClients }
      (.message 0 default 0x026B replyBytes) = some _ := hgame
  have hreach := hstart.step trivial hstep
  have hsent := sent_harmless hreach ⟨1, false, calmed replyNet.creatable replyMsg, buffer⟩
    List.mem_cons_self
  exact ⟨_, hreach, _, List.mem_cons_self, hsent.1 rfl, hsent.2 replyNet_fit⟩

end

end Dirtsand.Relay
