import Dirtsand.NetIO.CryptSession
import Dirtsand.NetIO.Handshake

/-!
# The lobby

What `dm_lobby` (NetIO/Lobby.cpp) does with a client that it accepted: it
receives a connection header of 31 bytes and hands the client over to the server
that the first of them names.  Nothing else of the header matters.

* `recvConnectionHeader_stream` — a header is received whole.
* `sends_dmLobby` — the server gets the client with what it sends behind the
  header.
-/

namespace Dirtsand.NetIO

/-- The servers of the lobby. -/
inductive Service where
  | gateKeeper
  | file
  | auth
  | game
deriving DecidableEq, Repr

/-- The cases on `ConnType`.  A CSR client is freed like one of an unknown type. -/
def service (connType : Nat) : Option Service :=
  if connType = 22 then some .gateKeeper
  else if connType = 16 then some .file
  else if connType = 10 then some .auth
  else if connType = 11 then some .game
  else none

structure ConnectionHeader where
  connType : Nat
  sockHeaderSize : Nat
  buildId : Nat
  buildType : Nat
  branchId : Nat
  productId : List UInt8
deriving DecidableEq, Repr

section Program

variable {σ : Type} (recv : Nat → Nat → Recv σ (List UInt8))

def recvConnectionHeader : Recv σ ConnectionHeader := do
  let connType ← recv 1 1
  let sockHeaderSize ← recv 2 2
  let buildId ← recv 4 4
  let buildType ← recv 4 4
  let branchId ← recv 4 4
  let productId ← recv 16 16
  pure {
    connType := leValue connType
    sockHeaderSize := leValue sockHeaderSize
    buildId := leValue buildId
    buildType := leValue buildType
    branchId := leValue branchId
    productId
  }

end Program

/-- A client of `dm_lobby`, with the threads of the servers. -/
def dmLobby {κ : Type} (serve : Service → Conn κ Unit) : Conn κ Unit := do
  let header ← Conn.recv (recvConnectionHeader recvBuffer)
  match service header.connType with
  | none => pure ()
  | some server => serve server

theorem recvConnectionHeader_refines :
    Refines (recvConnectionHeader recvBuffer) (recvConnectionHeader recvStream) := by
  refine (recvBuffer_stream 1 1).bind fun connType => ?_
  refine (recvBuffer_stream 2 2).bind fun sockHeaderSize => ?_
  refine (recvBuffer_stream 4 4).bind fun buildId => ?_
  refine (recvBuffer_stream 4 4).bind fun buildType => ?_
  refine (recvBuffer_stream 4 4).bind fun branchId => ?_
  exact (recvBuffer_stream 16 16).bind fun productId => Refines.pure _

theorem recvConnectionHeader_stream (connType : UInt8) {header : List UInt8}
    (hheader : header.length = 30) (rest : List UInt8) (hup : Bool) :
    ∃ h : ConnectionHeader, h.connType = connType.toNat ∧
      recvConnectionHeader recvStream ⟨connType :: (header ++ rest), hup⟩ = .ok h ⟨rest, hup⟩ := by
  have hstep : ∀ (size : Nat) (bytes : List UInt8) (f : List UInt8 → Recv Stream ConnectionHeader),
      size ≤ bytes.length → (recvStream size size >>= f) ⟨bytes, hup⟩ =
        f (bytes.take size) ⟨bytes.drop size, hup⟩ := by
    intro size bytes f hle
    have h := recvStream_bind_append (le_refl size) (a := bytes.take size) (b := bytes.drop size)
      (by rw [List.length_take, min_eq_left hle]) hup f
    rwa [List.take_append_drop] at h
  have hlen : (header ++ rest).length = 30 + rest.length := by
    rw [List.length_append, hheader]
  unfold recvConnectionHeader
  rw [hstep 1 _ _ (by simp)]
  show ∃ h : ConnectionHeader, h.connType = connType.toNat ∧
    (recvStream 2 2 >>= _) ⟨header ++ rest, hup⟩ = .ok h ⟨rest, hup⟩
  rw [hstep 2 _ _ (by omega), hstep 4 _ _ (by rw [List.length_drop]; omega),
    hstep 4 _ _ (by rw [List.length_drop, List.length_drop]; omega),
    hstep 4 _ _ (by simp only [List.length_drop]; omega),
    hstep 16 _ _ (by simp only [List.length_drop]; omega)]
  simp only [List.drop_drop]
  rw [List.drop_left' hheader]
  exact ⟨_, leValue_singleton connType, rfl⟩

variable {κ : Type} {serve : Service → Conn κ Unit}

/-- **A client goes on with its server.** -/
theorem sends_dmLobby {connType : UInt8} {server : Service}
    (hserver : service connType.toNat = some server) {header rest : List UInt8}
    (hheader : header.length = 30) {hup : Bool} {bytes : List UInt8}
    {Q : Except Stop (Unit × Client κ) → Prop}
    (hserve : ∀ sock : Socket, sock.stream = ⟨rest, hup⟩ → Sends (serve server ⟨sock, none⟩) bytes Q)
    {sock : Socket} (hsock : sock.stream = ⟨connType :: (header ++ rest), hup⟩) :
    Sends (dmLobby serve ⟨sock, none⟩) bytes Q := by
  obtain ⟨h, hconn, hrecv⟩ := recvConnectionHeader_stream connType hheader rest hup
  refine sends_after (sends_recv recvConnectionHeader_refines _) (fun header' c' hx => ?_)
    fun stop hx => ?_
  · rw [hsock, hrecv] at hx
    obtain ⟨sock', hsock', hx⟩ := hx
    cases hx
    rw [hconn, hserver]
    exact hserve sock' hsock'
  · rw [hsock, hrecv] at hx
    obtain ⟨sock', -, hx⟩ := hx
    cases hx

end Dirtsand.NetIO
