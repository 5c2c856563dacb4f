import Dirtsand.GateKeeper.GateServ
import Dirtsand.NetIO.Lobby
import Dirtsand.NetIO.SessionKey

/-!
# A client of the gate keeper

A client goes through the lobby and the handshake with a key of its own, sends
its requests encrypted, and decrypts what it gets with the key that it works out
from the server's seed.

* `reads_replies` — the replies can be told apart.
* `gateKeeper_serves` — the client reads one answer to each of its requests, where
  the shared number is large enough for the two keys to agree.
-/

namespace Dirtsand.GateKeeper

open NetIO hiding leValue
open Lib (Reader)
open Lib.Reader (Reads leBytes)

/-! ## What the client makes of a reply -/

inductive Reply where
  | ping (transId pingTime : UInt32) (payload : List UInt8)
  | fileServIpAddress (transId : UInt32) (address : List UInt16)
  | authServIpAddress (transId : UInt32) (address : List UInt16)
deriving DecidableEq, Repr

def readWord : Reader Unit UInt32 := do
  let v ← Reader.nat () 4
  pure (UInt32.ofNat v)

def readChar : Reader Unit UInt16 := do
  let v ← Reader.nat () 2
  pure (UInt16.ofNat v)

def readAddress : Reader Unit (List UInt16) := do
  let size ← Reader.nat () 2
  Reader.each (fun _ => readChar) (List.range size)

def readReply : Reader Unit Reply := do
  let msgId ← Reader.nat () 2
  let transId ← readWord
  if msgId = 0 then do
    let pingTime ← readWord
    let size ← Reader.nat () 4
    let payload ← Reader.take () size
    pure (.ping transId pingTime payload)
  else if msgId = 1 then do
    let address ← readAddress
    pure (.fileServIpAddress transId address)
  else if msgId = 2 then do
    let address ← readAddress
    pure (.authServIpAddress transId address)
  else Reader.fail ()

/-- The answer to a request. -/
def Request.answer (settings : Settings) : Request → Reply
  | .ping transId pingTime payload => .ping transId pingTime payload
  | .fileServIpAddress transId _ => .fileServIpAddress transId settings.fileServerAddress
  | .authServIpAddress transId => .authServIpAddress transId settings.authServerAddress

/-- The addresses are short enough for the size in front of them. -/
structure Settings.Fit (settings : Settings) : Prop where
  fileServer : settings.fileServerAddress.length < 2 ^ 16
  authServer : settings.authServerAddress.length < 2 ^ 16

theorem reads_readWord (v : UInt32) : Reads readWord (leBytes 4 v.toNat) v := by
  refine (Reader.reads_nat () v.toNat_lt).andThen ?_
  rw [UInt32.ofNat_toNat]
  exact .pure v

theorem reads_readChar (c : UInt16) : Reads readChar (leBytes 2 c.toNat) c := by
  refine (Reader.reads_nat () c.toNat_lt).andThen ?_
  rw [UInt16.ofNat_toNat]
  exact .pure c

theorem reads_chars (is : List Nat) (address : List UInt16) (h : is.length = address.length) :
    Reads (Reader.each (fun _ => readChar) is) (address.flatMap fun c => leBytes 2 c.toNat)
      address := by
  induction is generalizing address with
  | nil =>
    obtain rfl : address = [] := List.length_eq_zero_iff.1 h.symm
    exact .pure []
  | cons i is ih =>
    cases address with
    | nil => cases h
    | cons c address =>
      rw [List.flatMap_cons]
      exact (reads_readChar c).bind ((ih address (Nat.succ.inj h)).andThen (.pure _))

theorem reads_readAddress {address : List UInt16} (h : address.length < 2 ^ 16) :
    Reads readAddress (writeAddress address) address :=
  (Reader.reads_nat () h).bind (reads_chars _ _ List.length_range)

theorem reads_readReply {settings : Settings} (hfit : settings.Fit) {r : Request} (hr : r.Valid) :
    Reads readReply (r.reply settings) (r.answer settings) := by
  cases r with
  | ping transId pingTime payload =>
    have hsize : payload.length < 256 ^ 4 := lt_of_le_of_lt hr (by decide)
    simp only [Request.reply, List.append_assoc]
    refine (Reader.reads_nat () (by decide)).bind ((reads_readWord transId).bind ?_)
    refine (reads_readWord pingTime).bind ((Reader.reads_nat () hsize).bind ?_)
    exact (Reader.reads_take () rfl).andThen (.pure _)
  | fileServIpAddress transId fromPatcher =>
    simp only [Request.reply, List.append_assoc]
    refine (Reader.reads_nat () (by decide)).bind ((reads_readWord transId).bind ?_)
    exact (reads_readAddress hfit.fileServer).andThen (.pure _)
  | authServIpAddress transId =>
    simp only [Request.reply, List.append_assoc]
    refine (Reader.reads_nat () (by decide)).bind ((reads_readWord transId).bind ?_)
    exact (reads_readAddress hfit.authServer).andThen (.pure _)

/-- **The replies can be told apart.** -/
theorem reads_replies {settings : Settings} (hfit : settings.Fit) {rs : List Request}
    (hrs : ∀ r ∈ rs, r.Valid) : Reads (Reader.each (fun _ => readReply) rs)
      (rs.flatMap (Request.reply settings)) (rs.map (Request.answer settings)) := by
  induction rs with
  | nil => exact .pure []
  | cons r rs ih =>
    rw [List.flatMap_cons, List.map_cons]
    have hrest := ih fun r' hr' => hrs r' (List.mem_cons_of_mem r hr')
    exact (reads_readReply hfit (hrs r List.mem_cons_self)).bind (hrest.andThen (.pure _))

/-! ## The conversation -/

section Client

variable {κ : Type} (g : Rc4 κ)

/-- What a client sends: the header for the lobby and the one for the gate keeper, its half of
the key exchange, and its requests. -/
def clientBytes (key : CryptKey) (seed Y lobbyHeader : List UInt8) (rs : List Request) :
    List UInt8 :=
  22 :: (lobbyHeader ++ (Server.gate.header ++
    0 :: 66 :: (Y.reverse ++ g.crypt (g.setKey (agreedKey key seed Y)) (rs.flatMap Request.encode))))

/-- What a client decrypts: the seed is in the reply of the handshake, and the rest is
encrypted. -/
def clientClear (key : CryptKey) (Y wire : List UInt8) : List UInt8 :=
  g.crypt (g.setKey (agreedKey key ((wire.drop 2).take 7) Y)) (wire.drop 9)

/-- What a client with these requests reads. -/
def clientReads (key : CryptKey) (Y wire : List UInt8) (rs : List Request) :
    Except Unit (List Reply × List UInt8) :=
  Reader.each (fun _ => readReply) rs (clientClear g key Y wire)

end Client

/-- The lobby, with the gate keeper for those who ask for it. -/
def lobbyToGate {κ : Type} (g : Rc4 κ) (settings : Settings) (env : CryptEnv) (fuel : Nat)
    (serve : Service → Conn κ Unit) : Conn κ Unit :=
  dmLobby fun
    | .gateKeeper => wkGateKeeper g settings env fuel
    | server => serve server

theorem clientInit_whole (env : CryptEnv) {Y : List UInt8} (hY : Y.length = 64) (sent : List UInt8)
    (hup : Bool) : clientInit recvStream 20 1 env
      ⟨Server.gate.header ++ 0 :: 66 :: (Y.reverse ++ sent), hup⟩ =
        .ok (exchange env Y.reverse) ⟨sent, hup⟩ := by
  have hne : Y.reverse ≠ [] := by
    intro hnil
    rw [List.reverse_eq_nil_iff.1 hnil] at hY
    cases hY
  have hkey : Y.reverse.length + 2 = (66 : UInt8).toNat := by
    rw [List.length_reverse, hY]
    rfl
  have hlen : Y.reverse.length ≤ 64 := by
    rw [List.length_reverse, hY]
  rcases clientInit_stream 20 1 env ⟨Server.gate.header ++ 0 :: 66 :: (Y.reverse ++ sent), hup⟩ with
    ⟨h, hh, heq⟩ | ⟨hnone, -⟩
  · have hsome := handshakeBytes_header .gate (0 :: 66 :: (Y.reverse ++ sent))
    obtain rfl : 0 :: 66 :: (Y.reverse ++ sent) = h := Option.some_inj.1 (hsome.symm.trans hh)
    rw [heq]
    exact serverHandshake_key env hne hkey hlen hup sent
  · have hsome := handshakeBytes_header .gate (0 :: 66 :: (Y.reverse ++ sent))
    cases hsome.symm.trans hnone

/-- **The client reads the answers to its requests**, in their order, and nothing behind them. -/
theorem gateKeeper_serves {κ : Type} (g : Rc4 κ) (settings : Settings) (hfit : settings.Fit)
    (env : CryptEnv) (hseed : env.serverSeed.length = 7) (serve : Service → Conn κ Unit)
    {Y : List UInt8} (hY : Y.length = 64) (hshared : 256 ^ 6 ≤ env.key.shared Y)
    {lobbyHeader : List UInt8} (hheader : lobbyHeader.length = 30) {rs : List Request}
    (hrs : ∀ r ∈ rs, r.Valid) (sock : Socket)
    (hsock : sock.stream.bytes = clientBytes g env.key env.serverSeed Y lobbyHeader rs)
    {fuel : Nat} (hfuel : rs.length < fuel) :
    ∃ wire, clientReads g env.key Y wire rs = .ok (rs.map (Request.answer settings), []) ∧
      Sends (lobbyToGate g settings env fuel serve ⟨sock, none⟩) wire
        fun x => x = .error (starved sock.stream.hup) := by
  set agreed := agreedKey env.key env.serverSeed Y with hagreed
  set sent := g.crypt (g.setKey agreed) (rs.flatMap Request.encode) with hsent
  have hkey : cryptEstablish env.key env.serverSeed env.stack Y = some agreed := by
    refine (cryptEstablish_agrees _ _ _ Y).2 fun i hi hlt => ?_
    have hmono : 256 ^ i ≤ 256 ^ 6 := Nat.pow_le_pow_right (by decide) (by omega)
    exact absurd (Nat.lt_of_lt_of_le hlt hmono) (Nat.not_lt.2 hshared)
  have hacc : exchange env Y.reverse = .encrypted Y agreed ([1, 9] ++ env.serverSeed) := by
    rw [exchange, paddedKey_reverse hY, hkey, Option.getD_some]
  refine ⟨[1, 9] ++ env.serverSeed ++
    g.crypt (g.setKey agreed) (rs.flatMap (Request.reply settings)), ?_, ?_⟩
  · have hdrop : ([1, 9] ++ env.serverSeed ++ g.crypt (g.setKey agreed)
        (rs.flatMap (Request.reply settings))).drop 9 =
          g.crypt (g.setKey agreed) (rs.flatMap (Request.reply settings)) :=
      List.drop_left' (by rw [List.length_append, hseed]; rfl)
    have hseed' : (([1, 9] ++ env.serverSeed ++ g.crypt (g.setKey agreed)
        (rs.flatMap (Request.reply settings))).drop 2).take 7 = env.serverSeed := by
      rw [List.append_assoc]
      exact List.take_left' hseed
    have hreads := reads_replies hfit hrs []
    rw [List.append_nil] at hreads
    rw [clientReads, clientClear, hdrop, hseed', ← hagreed, Lib.Keystream.crypt_crypt, hreads]
  · have hstream : sock.stream = ⟨22 :: (lobbyHeader ++ (Server.gate.header ++
        0 :: 66 :: (Y.reverse ++ sent))), sock.stream.hup⟩ := by
      rw [← clientBytes, ← hsock]
    refine sends_dmLobby rfl hheader (fun sock' hsock' => ?_) hstream
    · have hok := clientInit_whole env hY sent sock.stream.hup
      rw [← hsock', hacc] at hok
      refine sends_session hok hrs (Protocol.cut_nil length_encode_pos) ?_ hfuel
      show g.crypt (g.setKey agreed) sent = _
      rw [hsent, Lib.Keystream.crypt_crypt, List.append_nil]

/-- Keys with a modulus of 64 bytes and the exponent 1. -/
def largeKey : CryptKey where
  N := List.replicate 64 255
  K := List.replicate 63 0 ++ [1]
  length_N := rfl
  length_K := rfl
  N_pos := by decide

def largeY : List UInt8 := List.replicate 56 0 ++ 1 :: List.replicate 7 0

def threeRequests : List Request :=
  [.ping 1 7 [42], .fileServIpAddress 2 0, .authServIpAddress 3]

def threeBytes : List UInt8 :=
  clientBytes rc4 largeKey (List.replicate 7 9) largeY (List.replicate 30 0) threeRequests

/-- A client with three requests, that are all sent at once. -/
theorem gateKeeper_serves_three :
    ∃ wire, clientReads rc4 largeKey largeY wire threeRequests =
        .ok ([.ping 1 7 [42], .fileServIpAddress 2 [104], .authServIpAddress 3 [105]], []) ∧
      Sends (lobbyToGate rc4 ⟨[104], [105]⟩ ⟨largeKey, List.replicate 7 9, []⟩ 4
          (fun _ => pure ()) ⟨[.segment 22 threeBytes.tail], none⟩) wire
        fun x => x = .error .blocked :=
  gateKeeper_serves rc4 ⟨[104], [105]⟩ ⟨by decide, by decide⟩
    ⟨largeKey, List.replicate 7 9, []⟩ rfl (fun _ => pure ()) (show largeY.length = 64 from rfl)
    (by decide +kernel) (show (List.replicate 30 (0 : UInt8)).length = 30 from rfl)
    (by simp [threeRequests, Request.Valid, maxPayloadSize]) [.segment 22 threeBytes.tail]
    (by simp [Socket.stream, threeBytes, clientBytes]) (by decide)

end Dirtsand.GateKeeper
