import Dirtsand.Lib.Keystream
import Dirtsand.Lib.Reader
import Dirtsand.NetIO.SendIO
import Dirtsand.NetIO.SockIO

/-!
# Encrypted connections

`DS::CryptSendBuffer`, `DS::CryptRecvBuffer` and what NetIO/CryptIO.h makes of
them, for a thread that receives and sends on one socket.  The cipher is a
parameter: RC4 combines a text with a keystream that its key starts, and a
connection has two of them that start alike, one for each direction.

The other side is seen here without the encryption.  A `Peer` is what it still
sends, in the clear, and the keystream for what it gets.

* `Says` — what a program sends and how it ends, for every way the network cuts
  up what it receives.
* `Says.bind` — one program after the other.
* `says_cryptRecvBuffer`, `says_cryptSendBuffer` — receiving takes bytes off the
  clear text, and sending puts them on the wire encrypted.
-/

namespace Dirtsand.NetIO

open Lib (Keystream)

/-- `RC4_set_key` and `RC4`. -/
structure Rc4 (κ : Type) extends Keystream κ where
  setKey : List UInt8 → κ

/-- The 256 numbers of RC4, and its two counters. -/
structure Rc4Key where
  data : List UInt8
  x : UInt8
  y : UInt8
deriving DecidableEq

def Rc4Key.get (k : Rc4Key) (i : UInt8) : UInt8 := k.data.getD i.toNat 0

def Rc4Key.swap (k : Rc4Key) (i j : UInt8) : Rc4Key :=
  { k with data := (k.data.set i.toNat (k.get j)).set j.toNat (k.get i) }

/-- RC4 as it is published. -/
def rc4 : Rc4 Rc4Key where
  setKey key :=
    let mixed := (List.range 256).foldl (fun (k : Rc4Key) i =>
      let y := k.y + k.get (UInt8.ofNat i) + key.getD (i % key.length) 0
      { k.swap (UInt8.ofNat i) y with y }) ⟨(List.range 256).map UInt8.ofNat, 0, 0⟩
    { mixed with x := 0, y := 0 }
  next k :=
    let x := k.x + 1
    let y := k.y + k.get x
    let k := { k.swap x y with x, y }
    (k.get (k.get x + k.get y), k)

example : rc4.crypt (rc4.setKey [75, 101, 121]) [80, 108, 97, 105, 110] =
    [0xBB, 0xF3, 0x16, 0xE8, 0xD9] := by
  decide +kernel

structure CryptState (κ : Type) where
  writeKey : κ
  readKey : κ

/-- `DS::CryptStateInit`. -/
def Rc4.cryptStateInit {κ : Type} (g : Rc4 κ) (key : List UInt8) : CryptState κ where
  readKey := g.setKey key
  writeKey := g.setKey key

/-- The socket of a client, and the state of its encryption if there is one. -/
structure Client (κ : Type) where
  sock : Socket
  crypt : Option (CryptState κ) := none

/-- Why a session is over.  `blocked` is one that still waits for its client, and `exception` one
that has thrown something else. -/
inductive Stop where
  | blocked
  | sockHup
  | invalidHeader
  | overrun
  | exception
  | packetSize (size : Nat)
  | invalidMessage (msgId : Nat)
  | outOfFuel
deriving DecidableEq, Repr

abbrev Conn (κ α : Type) := StateT (Client κ) (ExceptT Stop Send) α

section Programs

variable {κ α : Type}

def Result.toExcept : Result Socket α → Except Stop (α × Socket)
  | .ok a rest => .ok (a, rest)
  | .blocked => .error .blocked
  | .sockHup => .error .sockHup
  | .invalidHeader => .error .invalidHeader
  | .overrun => .error .overrun

/-- A program that receives without encryption. -/
def Conn.recv (p : Recv Socket α) : Conn κ α := fun c =>
  ExceptT.mk (pure ((p c.sock).toExcept.map fun x => (x.1, { c with sock := x.2 })))

/-- `DS::SendBuffer`. -/
def Conn.send (buffer : List UInt8) : Conn κ Unit := fun c =>
  ExceptT.mk (sendBuffer buffer >>= fun _ => pure (.ok ((), c)))

def Conn.setCrypt (crypt : CryptState κ) : Conn κ Unit := fun c =>
  pure ((), { c with crypt := some crypt })

variable (g : Keystream κ)

/-- `RC4` with the read key. -/
def Conn.decrypt (bytes : List UInt8) : Conn κ (List UInt8) := fun c =>
  match c.crypt with
  | none => pure (bytes, c)
  | some state => pure (g.crypt state.readKey bytes,
      { c with crypt := some { state with readKey := g.skip state.readKey bytes.length } })

/-- `RC4` with the write key. -/
def Conn.encrypt (bytes : List UInt8) : Conn κ (List UInt8) := fun c =>
  match c.crypt with
  | none => pure (bytes, c)
  | some state => pure (g.crypt state.writeKey bytes,
      { c with crypt := some { state with writeKey := g.skip state.writeKey bytes.length } })

/-- `DS::CryptRecvBuffer`. -/
def cryptRecvBuffer (size : Nat) : Conn κ (List UInt8) := do
  let bytes ← Conn.recv (recvBuffer size size)
  Conn.decrypt g bytes

/-- `DS::CryptRecvValue`, of a number of `size` bytes. -/
def cryptRecvValue (size : Nat) : Conn κ Nat := do
  let bytes ← cryptRecvBuffer g size
  pure (Lib.Reader.leValue bytes)

/-- `MAX_PAYLOAD_SIZE`. -/
def maxPayloadSize : Nat := 128 * 1024

/-- `DS::CryptRecvSize`, with the default for the largest size. -/
def cryptRecvSize : Conn κ Nat := do
  let size ← cryptRecvValue g 4
  if size > maxPayloadSize then throw (.packetSize size) else pure size

/-- `DS::CryptSendBuffer`. -/
def cryptSendBuffer (buffer : List UInt8) : Conn κ Unit := do
  let cryptbuf ← Conn.encrypt g buffer
  Conn.send cryptbuf

end Programs

/-! ## The other side -/

/-- What a client still sends, in the clear, whether it hangs up behind that, and the keystream
for what it gets. -/
structure Peer (κ : Type) where
  clear : List UInt8
  hup : Bool
  writeKey : Option κ

section Peer

variable {κ : Type} (g : Keystream κ)

/-- The bytes of the socket, in the clear. -/
def Client.clear (c : Client κ) : List UInt8 :=
  match c.crypt with
  | none => c.sock.stream.bytes
  | some state => g.crypt state.readKey c.sock.stream.bytes

def Client.peer (c : Client κ) : Peer κ where
  clear := c.clear g
  hup := c.sock.stream.hup
  writeKey := c.crypt.map CryptState.writeKey

/-- What comes over the wire where this is sent. -/
def Peer.sealed (peer : Peer κ) (bytes : List UInt8) : List UInt8 :=
  match peer.writeKey with
  | none => bytes
  | some k => g.crypt k bytes

/-- The peer after so many bytes were received from it. -/
def Peer.took (peer : Peer κ) (n : Nat) : Peer κ :=
  { peer with clear := peer.clear.drop n }

/-- The peer after so many bytes were sent to it. -/
def Peer.got (peer : Peer κ) (n : Nat) : Peer κ :=
  { peer with writeKey := peer.writeKey.map fun k => g.skip k n }

@[simp] theorem Peer.took_clear (peer : Peer κ) (n : Nat) :
    (peer.took n).clear = peer.clear.drop n := rfl

@[simp] theorem Peer.took_hup (peer : Peer κ) (n : Nat) : (peer.took n).hup = peer.hup := rfl

@[simp] theorem Peer.got_clear (peer : Peer κ) (n : Nat) : (peer.got g n).clear = peer.clear := rfl

@[simp] theorem Peer.got_hup (peer : Peer κ) (n : Nat) : (peer.got g n).hup = peer.hup := rfl

@[simp] theorem Peer.sealed_took (peer : Peer κ) (n : Nat) (bytes : List UInt8) :
    (peer.took n).sealed g bytes = peer.sealed g bytes := rfl

@[simp] theorem Peer.sealed_nil (peer : Peer κ) : peer.sealed g [] = [] := by
  unfold sealed
  cases peer.writeKey with
  | none => rfl
  | some k => rfl

/-- What is sent in two parts. -/
theorem Peer.sealed_append (peer : Peer κ) (bytes bytes' : List UInt8) :
    peer.sealed g (bytes ++ bytes') =
      peer.sealed g bytes ++ (peer.got g bytes.length).sealed g bytes' := by
  obtain ⟨clear, hup, writeKey⟩ := peer
  cases writeKey with
  | none => rfl
  | some k => exact g.crypt_append k bytes bytes'

end Peer

/-! ## What a program says -/

section Says

variable {κ α β : Type} (g : Keystream κ)

/-- How a program ends, seen from the other side. -/
def seen : Except Stop (α × Client κ) → Except Stop (α × Peer κ)
  | .ok (a, c) => .ok (a, c.peer g)
  | .error stop => .error stop

/-- A program sends these bytes to this peer, and comes to this end. -/
def Says (p : Conn κ α) (peer : Peer κ) (bytes : List UInt8) (r : Except Stop (α × Peer κ)) :
    Prop :=
  ∀ c : Client κ, c.peer g = peer → Sends (p c) bytes fun x => seen g x = r

variable {g} {p : Conn κ α} {f : α → Conn κ β} {peer peer' : Peer κ} {bytes bytes' : List UInt8}

theorem says_pure (a : α) (peer : Peer κ) : Says g (pure a) peer [] (.ok (a, peer)) := by
  rintro c rfl
  exact Sends.pure rfl

theorem says_throw (stop : Stop) (peer : Peer κ) :
    Says g (throw stop : Conn κ α) peer [] (.error stop) := by
  rintro c rfl
  exact Sends.pure rfl

/-- The rule of `Send`, where an exception passes by what follows. -/
theorem sends_bind {P : Except Stop (α × Client κ) → Prop} {Q : Except Stop (β × Client κ) → Prop}
    {c : Client κ} (hp : Sends (p c) bytes P)
    (hok : ∀ a c', P (.ok (a, c')) → Sends (f a c') bytes' Q)
    (herror : ∀ stop, P (.error stop) → bytes' = [] ∧ Q (.error stop)) :
    Sends ((p >>= f) c) (bytes ++ bytes') Q := by
  refine Sends.bind hp fun x hx => ?_
  cases x with
  | error stop =>
    obtain ⟨rfl, hQ⟩ := herror stop hx
    exact Sends.pure hQ
  | ok x => exact hok x.1 x.2 hx

/-- The same rule, where nothing is sent before. -/
theorem sends_after {P : Except Stop (α × Client κ) → Prop} {Q : Except Stop (β × Client κ) → Prop}
    {c : Client κ} (hp : Sends (p c) [] P) (hok : ∀ a c', P (.ok (a, c')) → Sends (f a c') bytes Q)
    (herror : ∀ stop, P (.error stop) → bytes = [] ∧ Q (.error stop)) :
    Sends ((p >>= f) c) bytes Q :=
  sends_bind hp hok herror

/-- **One program after the other.** -/
theorem Says.bind {a : α} {r : Except Stop (β × Peer κ)} (hp : Says g p peer bytes (.ok (a, peer')))
    (hf : Says g (f a) peer' bytes' r) : Says g (p >>= f) peer (bytes ++ bytes') r := by
  intro c hc
  refine sends_bind (hp c hc) (fun b c' hx => ?_) fun stop hx => ?_
  · rw [seen, Except.ok.injEq, Prod.mk.injEq] at hx
    obtain ⟨rfl, hpeer⟩ := hx
    exact hf c' hpeer
  · cases hx

/-- What comes behind an exception is not run. -/
theorem Says.bind_error {stop : Stop} (hp : Says g p peer bytes (.error stop)) :
    Says g (p >>= f) peer bytes (.error stop) := by
  intro c hc
  have h : Sends ((p >>= f) c) (bytes ++ []) fun x => seen g x = .error stop := by
    refine sends_bind (hp c hc) (fun b c' hx => ?_) fun stop' hx => ?_
    · cases hx
    · cases hx
      exact ⟨rfl, rfl⟩
  rwa [List.append_nil] at h

/-- A bind whose first half sends nothing. -/
theorem Says.after {a : α} {r : Except Stop (β × Peer κ)} (hp : Says g p peer [] (.ok (a, peer')))
    (hf : Says g (f a) peer' bytes r) : Says g (p >>= f) peer bytes r :=
  hp.bind hf

theorem seen_error {x : Except Stop (α × Client κ)} {stop : Stop} (h : seen g x = .error stop) :
    x = .error stop := by
  cases x with
  | ok x => cases h
  | error stop' =>
    cases h
    rfl

theorem Says.sends {stop : Stop} (h : Says g p peer bytes (.error stop)) {c : Client κ}
    (hc : c.peer g = peer) : Sends (p c) bytes fun x => x = .error stop :=
  fun out ks => (h c hc out ks).mono fun _ hx => seen_error hx

/-! ## Receiving and sending -/

/-- How a receive ends that wants more than there is. -/
def starved (hup : Bool) : Stop := if hup then .sockHup else .blocked

/-- How a program that receives leaves the connection. -/
def Received (c : Client κ) (x : Except Stop (α × Client κ)) : Result Stream α → Prop
  | .ok a s => ∃ rest : Socket, rest.stream = s ∧ x = .ok (a, { c with sock := rest })
  | .blocked => x = .error .blocked
  | .sockHup => x = .error .sockHup
  | .invalidHeader => x = .error .invalidHeader
  | .overrun => x = .error .overrun

theorem sends_recv {p : Recv Socket α} {q : Recv Stream α} (h : Refines p q) (c : Client κ) :
    Sends (Conn.recv p c) [] fun x => Received c x (q c.sock.stream) := by
  rw [← h c.sock]
  refine Sends.pure ?_
  cases p c.sock with
  | ok a rest => exact ⟨rest, rfl, rfl⟩
  | blocked => rfl
  | sockHup => rfl
  | invalidHeader => rfl
  | overrun => rfl

theorem length_clear (c : Client κ) : (c.clear g).length = c.sock.stream.bytes.length := by
  unfold Client.clear
  cases c.crypt with
  | none => rfl
  | some state => exact g.length_crypt _ _

/-- **Receiving takes bytes off the clear text.** -/
theorem says_cryptRecvBuffer (peer : Peer κ) {size : Nat} (h : size ≤ peer.clear.length) :
    Says g (cryptRecvBuffer g size) peer [] (.ok (peer.clear.take size, peer.took size)) := by
  rintro ⟨sock, crypt⟩ rfl
  have hlen : size ≤ sock.stream.bytes.length := by
    rw [← length_clear (g := g) ⟨sock, crypt⟩]
    exact h
  have hno : ¬ size < min size sock.stream.bytes.length := by omega
  have hrecv : recvStream size size sock.stream =
      .ok (sock.stream.bytes.take size) ⟨sock.stream.bytes.drop size, sock.stream.hup⟩ := by
    rw [recvStream, if_neg hno, if_pos hlen]
  have htook : (sock.stream.bytes.take size).length = size := by
    rw [List.length_take]
    exact min_eq_left hlen
  refine sends_after (sends_recv (recvBuffer_stream size size) _)
    (fun bytes c' hx => ?_) fun stop hx => ?_
  · rw [hrecv] at hx
    obtain ⟨rest, hrest, hx⟩ := hx
    cases hx
    cases crypt with
    | none =>
      refine Sends.pure ?_
      simp only [seen, Client.peer, Client.clear, Peer.took, hrest]
    | some state =>
      refine Sends.pure ?_
      simp only [seen, Client.peer, Client.clear, Peer.took, hrest, htook, g.crypt_take,
        g.crypt_drop]
      rfl
  · rw [hrecv] at hx
    obtain ⟨rest, -, hx⟩ := hx
    cases hx

theorem says_cryptRecvBuffer_append {size : Nat} {bytes : List UInt8} (h : bytes.length = size)
    (rest : List UInt8) {hup : Bool} {w : Option κ} : Says g (cryptRecvBuffer g size)
      ⟨bytes ++ rest, hup, w⟩ [] (.ok (bytes, ⟨rest, hup, w⟩)) := by
  subst h
  have hle : bytes.length ≤ (⟨bytes ++ rest, hup, w⟩ : Peer κ).clear.length := by
    rw [List.length_append]
    exact Nat.le_add_right _ _
  have hsays := says_cryptRecvBuffer (g := g) ⟨bytes ++ rest, hup, w⟩ hle
  simpa only [Peer.took, List.take_left, List.drop_left] using hsays

theorem says_cryptRecvBuffer_short (peer : Peer κ) {size : Nat} (h : peer.clear.length < size) :
    Says g (cryptRecvBuffer g size) peer [] (.error (starved peer.hup)) := by
  rintro ⟨sock, crypt⟩ rfl
  have hlen : sock.stream.bytes.length < size := by
    rw [← length_clear (g := g) ⟨sock, crypt⟩]
    exact h
  have hno : ¬ size < min size sock.stream.bytes.length := by omega
  have hrecv : recvStream size size sock.stream =
      if sock.stream.hup then .sockHup else .blocked := by
    rw [recvStream, if_neg hno, if_neg (not_le.2 hlen)]
  have hstop : ∀ x : Except Stop (List UInt8 × Client κ),
      Received ⟨sock, crypt⟩ x (recvStream size size sock.stream) →
        x = .error (starved sock.stream.hup) := by
    intro x hx
    rw [hrecv] at hx
    cases hhup : sock.stream.hup with
    | true =>
      rw [hhup] at hx
      exact hx
    | false =>
      rw [hhup] at hx
      exact hx
  refine sends_after (sends_recv (recvBuffer_stream size size) _)
    (fun bytes c' hx => ?_) fun stop hx => ?_
  · cases hstop _ hx
  · cases hstop _ hx
    exact ⟨rfl, rfl⟩

theorem says_cryptRecvValue_short (peer : Peer κ) {size : Nat} (h : peer.clear.length < size) :
    Says g (cryptRecvValue g size) peer [] (.error (starved peer.hup)) :=
  (says_cryptRecvBuffer_short peer h).bind_error

theorem says_encrypt (peer : Peer κ) (bytes : List UInt8) :
    Says g (Conn.encrypt g bytes) peer [] (.ok (peer.sealed g bytes, peer.got g bytes.length)) := by
  rintro ⟨sock, crypt⟩ rfl
  cases crypt with
  | none => exact Sends.pure rfl
  | some state => exact Sends.pure rfl

theorem says_send (peer : Peer κ) (buffer : List UInt8) :
    Says g (Conn.send buffer) peer buffer (.ok ((), peer)) := by
  rintro c rfl
  have h : Sends (Conn.send buffer c) (buffer ++ []) fun x => seen g x = .ok ((), c.peer g) :=
    (sends_sendBuffer buffer).bind fun _ _ => Sends.pure rfl
  rwa [List.append_nil] at h

/-- **What is sent comes over the wire encrypted.** -/
theorem says_cryptSendBuffer (peer : Peer κ) (buffer : List UInt8) :
    Says g (cryptSendBuffer g buffer) peer (peer.sealed g buffer)
      (.ok ((), peer.got g buffer.length)) :=
  (says_encrypt peer buffer).after (says_send _ _)

end Says

end Dirtsand.NetIO
