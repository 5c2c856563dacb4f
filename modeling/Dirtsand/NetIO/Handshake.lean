import Dirtsand.NetIO.SockIO
import Dirtsand.NetIO.CryptIO

/-!
# The encryption handshake

`authInit`, `gameClientInit` and `gateInit` are `auth_init`
(AuthServ/AuthServer.cpp), `game_client_init` (GameServ/GameServer.cpp) and
`gate_init` (GateKeeper/GateServ.cpp), up to the reply each hands to
`SendBuffer`.  Behind a connection header of its own, each has a copy of the
same code, here `serverHandshake`: it takes the length of the client's key from
one byte of the client, and receives the key into the 64 bytes of `Y`.

That length is `64 - (66 - msgSize)`, computed as an `int` and passed as a
`size_t`.  Above 66 it is refused and from 3 to 66 it is the `msgSize - 2` that
is meant, but for 0 and 1 it is negative and wraps to almost 2^64.

* `serverHandshake_overrun` — the buffer overruns exactly where `msgSize` is 0
  or 1 and more than 64 bytes follow.
* `serverHandshake_ok` — otherwise an accepted client's `Y` is its key,
  reversed, with zeros on the high side.
* `handshake_sound_iff` — both over the three servers, for every way a socket
  can deliver the bytes, with the agreement of the three on what they accept.
-/

namespace Dirtsand.NetIO

/-- A value sent least significant byte first. -/
def leValue (bytes : List UInt8) : Nat :=
  bytes.foldr (fun b n => b.toNat + 256 * n) 0

/-- `64 - (66 - msgSize)`, converted from `int` to `size_t`. -/
def keySize (msgSize : UInt8) : Nat :=
  ((64 - (66 - (msgSize.toNat : Int))) % 2 ^ 64).toNat

/-- What a connected client left behind: the reply, and behind a key exchange
`Y` as it went into `CryptEstablish` and the shared key that came out. -/
inductive Accepted where
  | plain (reply : List UInt8)
  | encrypted (Y sharedKey reply : List UInt8)
deriving DecidableEq, Repr

/-- What the process brings to a handshake: the keys of the server, the random
seed, and the old contents of the stack. -/
structure CryptEnv where
  key : CryptKey
  serverSeed : List UInt8
  stack : List UInt8

section Program

variable {σ : Type} (recv : Nat → Nat → Recv σ (List UInt8))

/-- The two branches on `msgSize`: a client without a seed talks in the clear,
any other sends its half of the key exchange. -/
def keyExchange (env : CryptEnv) (msgSize : UInt8) : Recv σ Accepted :=
  if msgSize = 2 then pure (.plain [1, 2])
  else if msgSize > 66 then Recv.throwInvalidHeader
  else do
    let received ← recv 64 (keySize msgSize)
    let Y := received ++ List.replicate (64 - received.length) 0
    let Y := byteSwapBuffer Y 64
    match cryptEstablish env.key env.serverSeed env.stack Y with
    | none => Recv.throwInvalidHeader
    | some sharedKey => pure (.encrypted Y sharedKey ([1, 9] ++ env.serverSeed))

/-- The part that is the same in the three servers, from the reply header on. -/
def serverHandshake (env : CryptEnv) : Recv σ Accepted := do
  let msgId ← recv 1 1
  if leValue msgId ≠ 0 then Recv.throwInvalidHeader else do
  let msgSize ← recv 1 1
  keyExchange recv env (msgSize.headD 0)

/-- Receive `n` UUIDs, of which nothing is kept. -/
def recvUuids : Nat → Recv σ Unit
  | 0 => pure ()
  | n + 1 => do
    let _ ← recv 16 16
    recvUuids n

/-- A connection header of `size` and `uuids` UUIDs, then the handshake. -/
def clientInit (size uuids : Nat) (env : CryptEnv) : Recv σ Accepted := do
  let sizeBuf ← recv 4 4
  if leValue sizeBuf ≠ size then Recv.throwInvalidHeader else do
  recvUuids recv uuids
  serverHandshake recv env

end Program

/-- `auth_init`: size, null uuid. -/
def authInit (env : CryptEnv) : Recv Socket Accepted :=
  clientInit recvBuffer 20 1 env

/-- `game_client_init`: size, account uuid, age instance uuid. -/
def gameClientInit (env : CryptEnv) : Recv Socket Accepted :=
  clientInit recvBuffer 36 2 env

/-- `gate_init`: size, null uuid. -/
def gateInit (env : CryptEnv) : Recv Socket Accepted :=
  clientInit recvBuffer 20 1 env

/-! ## From sockets to streams -/

theorem keyExchange_refines (env : CryptEnv) (msgSize : UInt8) :
    Refines (keyExchange recvBuffer env msgSize) (keyExchange recvStream env msgSize) := by
  refine (Refines.pure _).ite (Refines.throwInvalidHeader.ite ?_)
  refine (recvBuffer_stream 64 _).bind fun received => ?_
  dsimp only
  split
  · exact Refines.throwInvalidHeader
  · exact Refines.pure _

theorem serverHandshake_refines (env : CryptEnv) :
    Refines (serverHandshake recvBuffer env) (serverHandshake recvStream env) := by
  refine (recvBuffer_stream 1 1).bind fun msgId => ?_
  refine Refines.throwInvalidHeader.ite ?_
  exact (recvBuffer_stream 1 1).bind fun msgSize => keyExchange_refines env _

theorem recvUuids_refines (n : Nat) : Refines (recvUuids recvBuffer n) (recvUuids recvStream n) := by
  induction n with
  | zero => exact Refines.pure ()
  | succ n ih => exact (recvBuffer_stream 16 16).bind fun _ => ih

theorem clientInit_refines (size uuids : Nat) (env : CryptEnv) :
    Refines (clientInit recvBuffer size uuids env) (clientInit recvStream size uuids env) := by
  refine (recvBuffer_stream 4 4).bind fun sizeBuf => ?_
  refine Refines.throwInvalidHeader.ite ?_
  exact (recvUuids_refines uuids).bind fun _ => serverHandshake_refines env

/-! ## Receives on a stream -/

theorem recvStream_bind_append {α : Type} {cap size : Nat} (hcap : size ≤ cap)
    {a b : List UInt8} (ha : a.length = size) (hup : Bool) (f : List UInt8 → Recv Stream α) :
    (recvStream cap size >>= f) ⟨a ++ b, hup⟩ = f a ⟨b, hup⟩ := by
  subst ha
  have hno : ¬ cap < min a.length (a ++ b).length := by omega
  have hle : a.length ≤ (a ++ b).length := by simp only [List.length_append]; omega
  simp only [Recv.bind_apply, recvStream, if_neg hno, if_pos hle, List.take_left, List.drop_left]

theorem recvStream_bind_short {α : Type} {cap size : Nat} (hcap : size ≤ cap) {s : Stream}
    (hs : s.bytes.length < size) (f : List UInt8 → Recv Stream α) :
    (recvStream cap size >>= f) s = if s.hup then .sockHup else .blocked := by
  have hno : ¬ cap < min size s.bytes.length := by omega
  have hle : ¬ size ≤ s.bytes.length := by omega
  simp only [Recv.bind_apply, recvStream, if_neg hno, if_neg hle]
  cases s.hup <;> rfl

/-- The client is dropped, or the server still waits for it. -/
def Result.Stops {σ α : Type} (r : Result σ α) : Prop :=
  r = .blocked ∨ r = .sockHup ∨ r = .invalidHeader

theorem Result.stops_short {σ α : Type} (hup : Bool) :
    (if hup then (.sockHup : Result σ α) else .blocked).Stops := by
  cases hup
  · exact .inl rfl
  · exact .inr (.inl rfl)

theorem Result.stops_invalidHeader {σ α : Type} : (.invalidHeader : Result σ α).Stops :=
  .inr (.inr rfl)

theorem Result.Stops.ne_ok {σ α : Type} {r : Result σ α} (h : r.Stops) (a : α) (s : σ) :
    r ≠ .ok a s := by
  rcases h with rfl | rfl | rfl <;> simp

theorem Result.Stops.ne_overrun {σ α : Type} {r : Result σ α} (h : r.Stops) : r ≠ .overrun := by
  rcases h with rfl | rfl | rfl <;> simp

/-! ## The handshake on a stream -/

theorem keySize_eq {msgSize : UInt8} (h : 2 ≤ msgSize.toNat) : keySize msgSize = msgSize.toNat - 2 := by
  have hlt : msgSize.toNat < 256 := msgSize.toNat_lt
  unfold keySize
  omega

/-- For 0 and 1 the size wraps. -/
theorem keySize_wraps {msgSize : UInt8} (h : msgSize.toNat < 2) :
    keySize msgSize = 2 ^ 64 - 2 + msgSize.toNat := by
  unfold keySize
  omega

/-- `Y` as the client's key should leave it: zeros on the high side, then the
key with its bytes reversed. -/
def paddedKey (key : List UInt8) : List UInt8 :=
  List.replicate (64 - key.length) 0 ++ key.reverse

theorem length_paddedKey {key : List UInt8} (h : key.length ≤ 64) :
    (paddedKey key).length = 64 := by
  simp only [paddedKey, List.length_append, List.length_replicate, List.length_reverse]
  omega

theorem byteSwapBuffer_padded {key : List UInt8} (h : key.length ≤ 64) :
    byteSwapBuffer (key ++ List.replicate (64 - key.length) 0) 64 = paddedKey key := by
  have hlen : (key ++ List.replicate (64 - key.length) (0 : UInt8)).length = 64 := by
    simp only [List.length_append, List.length_replicate]
    omega
  have hswap := byteSwapBuffer_eq (key ++ List.replicate (64 - key.length) (0 : UInt8))
  rw [hlen] at hswap
  rw [hswap, List.reverse_append, List.reverse_replicate, paddedKey]

/-- A key exchange that went through: how the reply and the shared key come
from the client's key. -/
def exchange (env : CryptEnv) (key : List UInt8) : Accepted :=
  .encrypted (paddedKey key)
    ((cryptEstablish env.key env.serverSeed env.stack (paddedKey key)).getD [])
    ([1, 9] ++ env.serverSeed)

section Handshake

variable (env : CryptEnv) (hup : Bool)

theorem serverHandshake_short {h : List UInt8} (hlen : h.length < 2) :
    (serverHandshake recvStream env ⟨h, hup⟩).Stops := by
  unfold serverHandshake
  match h, hlen with
  | [], _ =>
    rw [recvStream_bind_short (le_refl 1) (by simp)]
    exact Result.stops_short hup
  | [msgId], _ =>
    rw [show [msgId] = [msgId] ++ [] from rfl, recvStream_bind_append (le_refl 1) rfl]
    split
    · exact Result.stops_invalidHeader
    · rw [recvStream_bind_short (le_refl 1) (by simp)]
      exact Result.stops_short hup

theorem leValue_singleton (b : UInt8) : leValue [b] = b.toNat := by
  simp [leValue]

theorem serverHandshake_badId {msgId : UInt8} (hid : msgId ≠ 0) (t : List UInt8) :
    serverHandshake recvStream env ⟨msgId :: t, hup⟩ = .invalidHeader := by
  have hne : leValue [msgId] ≠ 0 := by
    rw [leValue_singleton]
    exact fun h0 => hid (UInt8.toNat_inj.1 h0)
  unfold serverHandshake
  rw [show msgId :: t = [msgId] ++ t from rfl, recvStream_bind_append (le_refl 1) rfl, if_pos hne]
  rfl

theorem keyExchange_stream (msgSize : UInt8) (t : List UInt8) :
    keyExchange recvStream env msgSize ⟨t, hup⟩ =
      if msgSize = 2 then .ok (.plain [1, 2]) ⟨t, hup⟩
      else if msgSize > 66 then .invalidHeader
      else if 64 < min (keySize msgSize) t.length then .overrun
      else if keySize msgSize ≤ t.length then
        .ok (exchange env (t.take (keySize msgSize))) ⟨t.drop (keySize msgSize), hup⟩
      else if hup then .sockHup else .blocked := by
  unfold keyExchange
  by_cases h2 : msgSize = 2
  · rw [if_pos h2, if_pos h2]; rfl
  rw [if_neg h2, if_neg h2]
  by_cases h66 : msgSize > 66
  · rw [if_pos h66, if_pos h66]; rfl
  rw [if_neg h66, if_neg h66, Recv.bind_apply]
  by_cases hover : 64 < min (keySize msgSize) t.length
  · simp only [recvStream, if_pos hover]
  simp only [recvStream, if_neg hover]
  by_cases hle : keySize msgSize ≤ t.length
  · have hlen : (t.take (keySize msgSize)).length ≤ 64 := by
      rw [List.length_take]; omega
    obtain ⟨k, hk⟩ := Option.isSome_iff_exists.1 (cryptEstablish_isSome env.key env.serverSeed
      env.stack (paddedKey (t.take (keySize msgSize))))
    simp only [if_pos hle, byteSwapBuffer_padded hlen, exchange, hk]
    rfl
  · simp only [if_neg hle]
    cases hup <;> rfl

/-- Past the two bytes of the message header only the key exchange is left. -/
theorem serverHandshake_cons (msgSize : UInt8) (t : List UInt8) :
    serverHandshake recvStream env ⟨0 :: msgSize :: t, hup⟩ =
      keyExchange recvStream env msgSize ⟨t, hup⟩ := by
  have hid : ¬ leValue [(0 : UInt8)] ≠ 0 := by decide
  unfold serverHandshake
  rw [show (0 : UInt8) :: msgSize :: t = [0] ++ (msgSize :: t) from rfl,
    recvStream_bind_append (le_refl 1) rfl, if_neg hid,
    show msgSize :: t = [msgSize] ++ t from rfl, recvStream_bind_append (le_refl 1) rfl]
  rfl

/-- **Where `Y` overruns.**  `msgSize` is 0 or 1, and the client sends more
than the buffer holds. -/
theorem serverHandshake_overrun (h : List UInt8) :
    serverHandshake recvStream env ⟨h, hup⟩ = .overrun ↔
      ∃ msgSize t, h = 0 :: msgSize :: t ∧ msgSize.toNat < 2 ∧ 64 < t.length := by
  constructor
  · intro hover
    match h with
    | [] => exact absurd hover (serverHandshake_short env hup (by simp)).ne_overrun
    | [_] => exact absurd hover (serverHandshake_short env hup (by simp)).ne_overrun
    | msgId :: msgSize :: t =>
      by_cases hid : msgId = 0
      · subst hid
        refine ⟨msgSize, t, rfl, ?_⟩
        rw [serverHandshake_cons, keyExchange_stream] at hover
        split at hover
        · cases hover
        split at hover
        · cases hover
        rename_i h66
        split at hover
        · rename_i hmin
          have h66' : msgSize.toNat ≤ 66 := by simpa [UInt8.lt_iff_toNat_lt] using h66
          by_cases h2 : msgSize.toNat < 2
          · exact ⟨h2, by omega⟩
          · rw [keySize_eq (by omega)] at hmin
            omega
        · split at hover
          · cases hover
          · cases hup <;> cases hover
      · rw [serverHandshake_badId env hup hid] at hover
        cases hover
  · rintro ⟨msgSize, t, rfl, hsize, hlen⟩
    have h2 : msgSize ≠ 2 := by rintro rfl; simp at hsize
    have h66 : ¬ msgSize > 66 := by
      rw [gt_iff_lt, UInt8.lt_iff_toNat_lt]
      simp only [UInt8.reduceToNat]
      omega
    rw [serverHandshake_cons, keyExchange_stream, if_neg h2, if_neg h66, if_pos]
    rw [keySize_wraps hsize]
    omega

/-- **What an accepted client sent.**  Either the empty seed, or a key of
`msgSize - 2` bytes, all of which fits in `Y`. -/
theorem serverHandshake_ok {h : List UInt8} {acc : Accepted} {rest : Stream}
    (hok : serverHandshake recvStream env ⟨h, hup⟩ = .ok acc rest) :
    (h = 0 :: 2 :: rest.bytes ∧ acc = .plain [1, 2]) ∨
      ∃ msgSize key, h = 0 :: msgSize :: (key ++ rest.bytes) ∧
        key.length + 2 = msgSize.toNat ∧ key.length ≤ 64 ∧ acc = exchange env key := by
  match h with
  | [] => exact absurd hok ((serverHandshake_short env hup (by simp)).ne_ok acc rest)
  | [_] => exact absurd hok ((serverHandshake_short env hup (by simp)).ne_ok acc rest)
  | msgId :: msgSize :: t =>
    by_cases hid : msgId = 0
    · subst hid
      rw [serverHandshake_cons, keyExchange_stream] at hok
      split at hok
      · rename_i h2
        cases hok
        exact .inl ⟨by rw [h2], rfl⟩
      split at hok
      · cases hok
      rename_i h66
      split at hok
      · cases hok
      rename_i hmin
      split at hok
      · rename_i hle
        cases hok
        have h66' : msgSize.toNat ≤ 66 := by simpa [UInt8.lt_iff_toNat_lt] using h66
        have h2 : 2 ≤ msgSize.toNat := by
          by_contra hlt
          rw [keySize_wraps (by omega)] at hmin hle
          omega
        have hsize := keySize_eq h2
        refine .inr ⟨msgSize, t.take (keySize msgSize), ?_, ?_, ?_, rfl⟩
        · rw [List.take_append_drop]
        · rw [List.length_take, Nat.min_eq_left hle]; omega
        · rw [List.length_take, Nat.min_eq_left hle]; omega
      · cases hup <;> cases hok
    · rw [serverHandshake_badId env hup hid] at hok
      cases hok

end Handshake

/-! ## The connection header -/

/-- The bytes behind a connection header that the server lets through. -/
def handshakeBytes (size uuids : Nat) (bytes : List UInt8) : Option (List UInt8) :=
  if leValue (bytes.take 4) = size ∧ 4 + 16 * uuids ≤ bytes.length then
    some (bytes.drop (4 + 16 * uuids))
  else none

theorem recvUuids_stream {α : Type} (f : Unit → Recv Stream α) (uuids : Nat) (s : Stream) :
    (16 * uuids ≤ s.bytes.length ∧ (recvUuids recvStream uuids >>= f) s =
        f () ⟨s.bytes.drop (16 * uuids), s.hup⟩) ∨
      (s.bytes.length < 16 * uuids ∧ ((recvUuids recvStream uuids >>= f) s).Stops) := by
  induction uuids generalizing s with
  | zero => exact .inl ⟨Nat.zero_le _, rfl⟩
  | succ n ih =>
    have hunfold : (recvUuids recvStream (n + 1) >>= f) s =
        (recvStream 16 16 >>= fun _ => (recvUuids recvStream n >>= f)) s := by
      simp only [recvUuids, Recv.bind_apply]
      cases recvStream 16 16 s <;> rfl
    rw [hunfold]
    by_cases hlen : s.bytes.length < 16
    · rw [recvStream_bind_short (le_refl 16) hlen]
      exact .inr ⟨by omega, Result.stops_short _⟩
    · have hsplit : s = ⟨s.bytes.take 16 ++ s.bytes.drop 16, s.hup⟩ := by
        rw [List.take_append_drop]
      have hstep : (recvStream 16 16 >>= fun _ => (recvUuids recvStream n >>= f)) s =
          (recvUuids recvStream n >>= f) ⟨s.bytes.drop 16, s.hup⟩ := by
        rw [hsplit, recvStream_bind_append (le_refl 16) (by rw [List.length_take]; omega)]
        simp only [List.take_append_drop]
      rw [hstep]
      rcases ih ⟨s.bytes.drop 16, s.hup⟩ with ⟨hle, heq⟩ | ⟨hlt, hstop⟩
      · rw [List.length_drop] at hle
        refine .inl ⟨by omega, ?_⟩
        rw [heq, List.drop_drop, show 16 + 16 * n = 16 * (n + 1) by omega]
      · rw [List.length_drop] at hlt
        exact .inr ⟨by omega, hstop⟩

/-- A connection header either lets the handshake behind it run, or ends the
run. -/
theorem clientInit_stream (size uuids : Nat) (env : CryptEnv) (s : Stream) :
    (∃ h, handshakeBytes size uuids s.bytes = some h ∧
        clientInit recvStream size uuids env s = serverHandshake recvStream env ⟨h, s.hup⟩) ∨
      (handshakeBytes size uuids s.bytes = none ∧
        (clientInit recvStream size uuids env s).Stops) := by
  unfold clientInit
  by_cases hlen : s.bytes.length < 4
  · rw [recvStream_bind_short (le_refl 4) hlen]
    refine .inr ⟨?_, Result.stops_short _⟩
    rw [handshakeBytes, if_neg (by omega)]
  have hsplit : s = ⟨s.bytes.take 4 ++ s.bytes.drop 4, s.hup⟩ := by
    rw [List.take_append_drop]
  have hstep : ∀ f : List UInt8 → Recv Stream Accepted, (recvStream 4 4 >>= f) s =
      f (s.bytes.take 4) ⟨s.bytes.drop 4, s.hup⟩ := by
    intro f
    rw [hsplit, recvStream_bind_append (le_refl 4) (by rw [List.length_take]; omega)]
    simp only [List.take_append_drop]
  rw [hstep]
  by_cases hsize : leValue (s.bytes.take 4) = size
  · rw [if_neg (not_not.2 hsize)]
    rcases recvUuids_stream (fun _ => serverHandshake recvStream env) uuids
      ⟨s.bytes.drop 4, s.hup⟩ with ⟨hle, heq⟩ | ⟨hlt, hstop⟩
    · rw [List.length_drop] at hle
      refine .inl ⟨_, if_pos ⟨hsize, by omega⟩, ?_⟩
      rw [heq, List.drop_drop]
    · rw [List.length_drop] at hlt
      exact .inr ⟨if_neg (by omega), hstop⟩
  · rw [if_pos hsize]
    exact .inr ⟨if_neg (fun h => hsize h.1), Result.stops_invalidHeader⟩

/-! ## The three servers -/

inductive Server where
  | auth
  | game
  | gate
deriving DecidableEq, Repr

/-- The initialisation a server runs on a new connection. -/
def Server.init : Server → CryptEnv → Recv Socket Accepted
  | .auth => authInit
  | .game => gameClientInit
  | .gate => gateInit

/-- The handshake part of what the client of a server sent. -/
def Server.handshakeBytes : Server → List UInt8 → Option (List UInt8)
  | .auth => NetIO.handshakeBytes 20 1
  | .game => NetIO.handshakeBytes 36 2
  | .gate => NetIO.handshakeBytes 20 1

/-- Whether the client is accepted, and the `Y` it is accepted with. -/
def Result.acceptedY {σ : Type} : Result σ Accepted → Option (Option (List UInt8))
  | .ok (.plain _) _ => some none
  | .ok (.encrypted Y _ _) _ => some (some Y)
  | _ => none

/-- No more than the 64 bytes of `Y` are ever stored, and `Y` is the client's
key of `msgSize - 2` bytes, reversed and padded on the high side. -/
def BoundedY (srv : Server) (env : CryptEnv) (sock : Socket) : Prop :=
  match srv.init env sock with
  | .overrun => False
  | .ok (.encrypted Y _ _) rest => ∃ msgSize key,
      srv.handshakeBytes sock.stream.bytes = some (0 :: msgSize :: (key ++ rest.stream.bytes)) ∧
        key.length + 2 = msgSize.toNat ∧ Y.length = 64 ∧ Y = paddedKey key
  | _ => True

/-- Bounded on the three servers, which agree on whom they accept and with
which `Y` wherever they see the same handshake. -/
def HandshakeSound (env : Server → CryptEnv) (sock : Server → Socket) : Prop :=
  (∀ srv, BoundedY srv (env srv) (sock srv)) ∧
    ∀ srv srv' : Server, srv.handshakeBytes (sock srv).stream.bytes =
        srv'.handshakeBytes (sock srv').stream.bytes →
      (srv.init (env srv) (sock srv)).acceptedY = (srv'.init (env srv') (sock srv')).acceptedY

/-- The client gives 0 or 1 as its `msgSize`, and sends more than 64 bytes
behind it. -/
def Overlong (srv : Server) (bytes : List UInt8) : Prop :=
  ∃ msgSize t, srv.handshakeBytes bytes = some (0 :: msgSize :: t) ∧
    msgSize.toNat < 2 ∧ 64 < t.length

theorem init_stream (srv : Server) (env : CryptEnv) (sock : Socket) :
    (∃ h, srv.handshakeBytes sock.stream.bytes = some h ∧
        (srv.init env sock).toStream =
          serverHandshake recvStream env ⟨h, sock.stream.hup⟩) ∨
      (srv.handshakeBytes sock.stream.bytes = none ∧ (srv.init env sock).toStream.Stops) := by
  cases srv
  · have hs := clientInit_refines 20 1 env sock
    exact (hs ▸ clientInit_stream 20 1 env sock.stream)
  · have hs := clientInit_refines 36 2 env sock
    exact (hs ▸ clientInit_stream 36 2 env sock.stream)
  · have hs := clientInit_refines 20 1 env sock
    exact (hs ▸ clientInit_stream 20 1 env sock.stream)

theorem Result.acceptedY_toStream (r : Result Socket Accepted) :
    r.toStream.acceptedY = r.acceptedY := by
  match r with
  | .ok (.plain _) _ => rfl
  | .ok (.encrypted ..) _ => rfl
  | .blocked => rfl
  | .sockHup => rfl
  | .invalidHeader => rfl
  | .overrun => rfl

theorem Result.Stops.acceptedY {σ : Type} {r : Result σ Accepted} (h : r.Stops) :
    r.acceptedY = none := by
  rcases h with rfl | rfl | rfl <;> rfl

theorem acceptedY_exchange {σ : Type} (env : CryptEnv) (key : List UInt8) (s : σ) :
    (Result.ok (exchange env key) s).acceptedY = some (some (paddedKey key)) := by
  simp only [exchange, Result.acceptedY]

theorem keyExchange_acceptedY (env : CryptEnv) (hup : Bool) (msgSize : UInt8) (t : List UInt8) :
    (keyExchange recvStream env msgSize ⟨t, hup⟩).acceptedY =
      if msgSize = 2 then some none
      else if msgSize ≤ 66 ∧ min (keySize msgSize) t.length ≤ 64 ∧ keySize msgSize ≤ t.length then
        some (some (paddedKey (t.take (keySize msgSize))))
      else none := by
  rw [keyExchange_stream]
  by_cases h2 : msgSize = 2
  · rw [if_pos h2, if_pos h2]; rfl
  rw [if_neg h2, if_neg h2]
  by_cases h66 : msgSize > 66
  · rw [if_pos h66, if_neg (fun h => absurd h.1 (UInt8.not_le.2 h66))]; rfl
  rw [if_neg h66]
  by_cases hover : 64 < min (keySize msgSize) t.length
  · rw [if_pos hover, if_neg (fun h => absurd h.2.1 (Nat.not_le.2 hover))]; rfl
  rw [if_neg hover]
  by_cases hle : keySize msgSize ≤ t.length
  · rw [if_pos hle, if_pos ⟨UInt8.not_lt.1 h66, Nat.not_lt.1 hover, hle⟩, acceptedY_exchange]
  · rw [if_neg hle, (Result.stops_short hup).acceptedY, if_neg (fun h => hle h.2.2)]

/-- `Y` depends on the client alone: not on the keys, nor on what follows the
hand-over of the stream. -/
theorem serverHandshake_acceptedY (env env' : CryptEnv) (hup hup' : Bool) (h : List UInt8) :
    (serverHandshake recvStream env ⟨h, hup⟩).acceptedY =
      (serverHandshake recvStream env' ⟨h, hup'⟩).acceptedY := by
  match h with
  | [] => rw [(serverHandshake_short env hup (by simp)).acceptedY,
      (serverHandshake_short env' hup' (by simp)).acceptedY]
  | [_] => rw [(serverHandshake_short env hup (by simp)).acceptedY,
      (serverHandshake_short env' hup' (by simp)).acceptedY]
  | msgId :: msgSize :: t =>
    by_cases hid : msgId = 0
    · subst hid
      rw [serverHandshake_cons, serverHandshake_cons, keyExchange_acceptedY,
        keyExchange_acceptedY]
    · rw [serverHandshake_badId env hup hid, serverHandshake_badId env' hup' hid]

/-- **The three servers accept the same clients, with the same `Y`.** -/
theorem init_agree {srv srv' : Server} {env env' : CryptEnv} {sock sock' : Socket}
    (h : srv.handshakeBytes sock.stream.bytes = srv'.handshakeBytes sock'.stream.bytes) :
    (srv.init env sock).acceptedY = (srv'.init env' sock').acceptedY := by
  rw [← Result.acceptedY_toStream, ← Result.acceptedY_toStream]
  rcases init_stream srv env sock with ⟨h₁, hb, hr⟩ | ⟨hb, hstop⟩
  · rcases init_stream srv' env' sock' with ⟨h₂, hb', hr'⟩ | ⟨hb', -⟩
    · obtain rfl : h₁ = h₂ := Option.some.inj (by rw [← hb, h, hb'])
      rw [hr, hr', serverHandshake_acceptedY env env' _ sock'.stream.hup]
    · rw [h, hb'] at hb
      cases hb
  · rcases init_stream srv' env' sock' with ⟨h₂, hb', -⟩ | ⟨-, hstop'⟩
    · rw [h, hb'] at hb
      cases hb
    · rw [hstop.acceptedY, hstop'.acceptedY]

theorem overrun_iff (srv : Server) (env : CryptEnv) (sock : Socket) :
    srv.init env sock = .overrun ↔ Overlong srv sock.stream.bytes := by
  have htoStream : srv.init env sock = .overrun ↔ (srv.init env sock).toStream = .overrun := by
    cases srv.init env sock <;> simp [Result.toStream]
  rw [htoStream]
  rcases init_stream srv env sock with ⟨h, hb, hr⟩ | ⟨hb, hstop⟩
  · rw [hr, serverHandshake_overrun, Overlong, hb]
    simp only [Option.some.injEq]
  · refine ⟨fun hover => absurd hover hstop.ne_overrun, ?_⟩
    rintro ⟨msgSize, t, hsome, -⟩
    rw [hb] at hsome
    cases hsome

theorem boundedY_iff (srv : Server) (env : CryptEnv) (sock : Socket) :
    BoundedY srv env sock ↔ ¬ Overlong srv sock.stream.bytes := by
  rw [← overrun_iff srv env sock, BoundedY]
  cases hr : srv.init env sock with
  | overrun => simp
  | blocked => simp
  | sockHup => simp
  | invalidHeader => simp
  | ok acc rest =>
    cases acc with
    | plain reply => simp
    | encrypted Y sharedKey reply =>
      refine ⟨fun _ => by simp, fun _ => ?_⟩
      rcases init_stream srv env sock with ⟨h, hb, hs⟩ | ⟨-, hstop⟩
      · rw [hr] at hs
        rcases serverHandshake_ok env _ hs.symm with ⟨-, hplain⟩ | ⟨msgSize, key, hh, hk, h64, he⟩
        · cases hplain
        · have hY : Y = paddedKey key := by
            rw [exchange, Accepted.encrypted.injEq] at he
            exact he.1
          exact ⟨msgSize, key, hh ▸ hb, hk, hY ▸ length_paddedKey h64, hY⟩
      · rw [hr] at hstop
        exact absurd rfl (hstop.ne_ok _ _)

/-- **The handshake is sound exactly where no client is overlong.** -/
theorem handshake_sound_iff (env : Server → CryptEnv) (sock : Server → Socket) :
    HandshakeSound env sock ↔ ∀ srv, ¬ Overlong srv (sock srv).stream.bytes := by
  constructor
  · intro h srv
    exact (boundedY_iff srv (env srv) _).1 (h.1 srv)
  · intro h
    exact ⟨fun srv => (boundedY_iff srv _ _).2 (h srv), fun srv srv' hb => init_agree hb⟩

/-- Keys with the modulus 5 and the exponent 3. -/
def smallKey : CryptKey where
  N := List.replicate 63 0 ++ [5]
  K := List.replicate 63 0 ++ [3]
  length_N := rfl
  length_K := rfl
  N_pos := by decide

/-- A connection header of the gate keeper, `msgSize` 0, and 65 more bytes. -/
def overlongClient : Socket :=
  [.segment 20 (List.replicate 19 0 ++ [0, 0] ++ List.replicate 65 0xFF)]

/-- The client of `overlongClient` writes past the end of `Y`. -/
theorem handshake_unsound :
    ¬ HandshakeSound (fun _ => ⟨smallKey, List.replicate 7 0, []⟩) (fun _ => overlongClient) := by
  rw [handshake_sound_iff]
  intro h
  exact h .gate ⟨0, List.replicate 65 0xFF, by decide, by decide, by decide⟩

end Dirtsand.NetIO
