import Dirtsand.NetIO.CryptSession
import Dirtsand.NetIO.Handshake

/-!
# Connected clients

`connect` is the rest of `auth_init`, `game_client_init` and `gate_init`, behind
what Handshake.lean has of them: the encryption starts with the shared key, and
the reply is sent.

* `clientInit_ok` — what a client sends that is let in, and what it still sends.
* `sends_connect` — it gets the reply, and goes on encrypted in both directions.
-/

namespace Dirtsand.NetIO

variable {κ : Type}

/-- The end of the handshake, on a client that has no encryption yet. -/
def connect (g : Rc4 κ) (init : Recv Socket Accepted) : Conn κ Unit := do
  match ← Conn.recv init with
  | .plain reply => Conn.send reply
  | .encrypted _ sharedKey reply => do
    Conn.setCrypt (g.cryptStateInit sharedKey)
    Conn.send reply

def Accepted.reply : Accepted → List UInt8
  | .plain reply => reply
  | .encrypted _ _ reply => reply

/-- The client behind the handshake, that still sends this. -/
def Accepted.peer (g : Rc4 κ) (rest : Stream) : Accepted → Peer κ
  | .plain _ => ⟨rest.bytes, rest.hup, none⟩
  | .encrypted _ sharedKey _ =>
    ⟨g.crypt (g.setKey sharedKey) rest.bytes, rest.hup, some (g.setKey sharedKey)⟩

/-- Why there is no result. -/
def Result.stop {σ α : Type} : Result σ α → Option Stop
  | .ok _ _ => none
  | .blocked => some .blocked
  | .sockHup => some .sockHup
  | .invalidHeader => some .invalidHeader
  | .overrun => some .overrun

section

variable {g : Rc4 κ} {env : CryptEnv} {size uuids : Nat} {sock : Socket}

theorem says_setCrypt (clear : List UInt8) (hup : Bool) (crypt : CryptState κ) :
    Says g.toKeystream (Conn.setCrypt crypt) ⟨clear, hup, none⟩ []
      (.ok ((), ⟨g.crypt crypt.readKey clear, hup, some crypt.writeKey⟩)) := by
  rintro ⟨sock, old⟩ hc
  cases old with
  | none =>
    cases hc
    exact Sends.pure rfl
  | some state => cases hc

theorem sends_connect {acc : Accepted} {rest : Stream}
    (h : clientInit recvStream size uuids env sock.stream = .ok acc rest) :
    Sends (connect g (clientInit recvBuffer size uuids env) ⟨sock, none⟩) acc.reply fun x =>
      seen g.toKeystream x = .ok ((), acc.peer g rest) := by
  refine sends_after (sends_recv (clientInit_refines size uuids env) _) (fun acc' c' hx => ?_)
    fun stop hx => ?_
  · rw [h] at hx
    obtain ⟨sock', rfl, hx⟩ := hx
    cases hx
    cases acc with
    | plain reply => exact says_send _ reply _ rfl
    | encrypted Y sharedKey reply =>
      have hsays := (says_setCrypt (g := g) sock'.stream.bytes sock'.stream.hup
        (g.cryptStateInit sharedKey)).after (f := fun _ => Conn.send reply) (says_send _ reply)
      exact hsays ⟨sock', none⟩ rfl
  · rw [h] at hx
    obtain ⟨sock', -, hx⟩ := hx
    cases hx

/-- A client that is not let in gets no reply. -/
theorem sends_connect_stop {stop : Stop}
    (h : (clientInit recvStream size uuids env sock.stream).stop = some stop) :
    Sends (connect g (clientInit recvBuffer size uuids env) ⟨sock, none⟩) [] fun x =>
      seen g.toKeystream x = .error stop := by
  have hstop : ∀ x : Except Stop (Accepted × Client κ),
      Received ⟨sock, none⟩ x (clientInit recvStream size uuids env sock.stream) →
        x = .error stop := by
    intro x hx
    cases hr : clientInit recvStream size uuids env sock.stream with
    | ok acc rest =>
      rw [hr] at h
      cases h
    | blocked | sockHup | invalidHeader | overrun =>
      rw [hr] at h hx
      cases h
      exact hx
  refine sends_after (sends_recv (clientInit_refines size uuids env) _)
    (fun acc' c' hx => ?_) fun stop' hx => ?_
  · cases hstop _ hx
  · cases hstop _ hx
    exact ⟨rfl, rfl⟩

/-! ## Who is let in -/

variable (env)

theorem serverHandshake_plain (hup : Bool) (sent : List UInt8) :
    serverHandshake recvStream env ⟨0 :: 2 :: sent, hup⟩ = .ok (.plain [1, 2]) ⟨sent, hup⟩ := by
  rw [serverHandshake_cons, keyExchange_stream, if_pos rfl]

theorem serverHandshake_key {msgSize : UInt8} {key : List UInt8} (hne : key ≠ [])
    (hkey : key.length + 2 = msgSize.toNat) (hlen : key.length ≤ 64) (hup : Bool)
    (sent : List UInt8) :
    serverHandshake recvStream env ⟨0 :: msgSize :: (key ++ sent), hup⟩ =
      .ok (exchange env key) ⟨sent, hup⟩ := by
  have hpos := List.length_pos_of_ne_nil hne
  have hsize : keySize msgSize = key.length := by
    rw [keySize_eq (by omega)]
    omega
  have h2 : msgSize ≠ 2 := by
    rintro rfl
    have h2 : (2 : UInt8).toNat = 2 := rfl
    omega
  have h66 : ¬ msgSize > 66 := by
    rw [gt_iff_lt, UInt8.lt_iff_toNat_lt]
    simp only [UInt8.reduceToNat]
    omega
  have hlong : (key ++ sent).length = key.length + sent.length := List.length_append
  rw [serverHandshake_cons, keyExchange_stream, if_neg h2, if_neg h66, hsize, hlong,
    if_neg (by omega), if_pos (by omega), List.take_left, List.drop_left]

/-- **Who is let in**: a client without a seed, or one with a key. -/
theorem clientInit_ok {s : Stream} {acc : Accepted} {rest : Stream}
    (h : clientInit recvStream size uuids env s = .ok acc rest) :
    (∃ sent, handshakeBytes size uuids s.bytes = some (0 :: 2 :: sent) ∧
        acc = .plain [1, 2] ∧ rest = ⟨sent, s.hup⟩) ∨
      ∃ msgSize key sent, handshakeBytes size uuids s.bytes =
          some (0 :: msgSize :: (key ++ sent)) ∧ key ≠ [] ∧
        key.length + 2 = msgSize.toNat ∧ key.length ≤ 64 ∧
        acc = exchange env key ∧ rest = ⟨sent, s.hup⟩ := by
  rcases clientInit_stream size uuids env s with ⟨sent, hsent, heq⟩ | ⟨-, hstops⟩
  · rw [heq] at h
    rcases serverHandshake_ok env s.hup h with ⟨rfl, hacc⟩ | ⟨msgSize, key, rfl, hkey, hlen, hacc⟩
    · rw [serverHandshake_plain, Result.ok.injEq] at h
      exact .inl ⟨rest.bytes, hsent, hacc, h.2.symm⟩
    · have hne : key ≠ [] := by
        rintro rfl
        obtain rfl : msgSize = 2 := UInt8.toNat_inj.1 hkey.symm
        rw [List.nil_append, serverHandshake_plain, hacc] at h
        cases h
      rw [serverHandshake_key env hne hkey hlen, Result.ok.injEq] at h
      exact .inr ⟨msgSize, key, rest.bytes, hsent, hne, hkey, hlen, hacc, h.2.symm⟩
  · exact absurd h (hstops.ne_ok acc rest)

theorem handshakeBytes_length {bytes sent : List UInt8}
    (h : handshakeBytes size uuids bytes = some sent) : sent.length ≤ bytes.length := by
  unfold handshakeBytes at h
  split at h
  · cases h
    rw [List.length_drop]
    exact Nat.sub_le _ _
  · cases h

end

end Dirtsand.NetIO
