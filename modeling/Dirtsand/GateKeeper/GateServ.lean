import Dirtsand.NetIO.Connect
import Dirtsand.NetIO.ServeLoop

/-!
# The gate keeper

`wk_gateKeeper` (GateKeeper/GateServ.cpp), the thread of one client: it takes the
client through `gate_init`, and from then on receives one request after the other
and sends one reply to each.  The reply is put together in a buffer of its own
and sent when the request was received as a whole, so that a request that breaks
off is not answered at all.

* `implements_gate` — a whole request is answered, and anything else ends the
  session.
* `gateKeeper_transcript` — the replies are those to the requests that the client
  sent, in their order, however what it sends is cut up.  Of a client that overruns
  the buffer of the handshake it says nothing.
-/

namespace Dirtsand.GateKeeper

open NetIO hiding leValue
open Lib.Reader (leBytes leValue length_leBytes leValue_leBytes leBytes_leValue leValue_lt)

/-- `DS::Settings::FileServerAddress` and `DS::Settings::AuthServerAddress`. -/
structure Settings where
  fileServerAddress : List UInt16
  authServerAddress : List UInt16

/-- The size and the characters of an address. -/
def writeAddress (address : List UInt16) : List UInt8 :=
  leBytes 2 address.length ++ address.flatMap fun c => leBytes 2 c.toNat

section Program

variable {κ : Type} (g : Rc4 κ) (settings : Settings)

def recvPayload (size : Nat) : Conn κ (List UInt8) :=
  if size = 0 then pure [] else cryptRecvBuffer g.toKeystream size

def cbPing : Conn κ Unit := do
  let transId ← cryptRecvValue g.toKeystream 4
  let pingTime ← cryptRecvValue g.toKeystream 4
  let payloadSize ← cryptRecvSize g.toKeystream
  let payload ← recvPayload g payloadSize
  cryptSendBuffer g.toKeystream (leBytes 2 0 ++ leBytes 4 transId ++ leBytes 4 pingTime ++
    leBytes 4 payloadSize ++ payload)

def cbFileServIpAddress : Conn κ Unit := do
  let transId ← cryptRecvValue g.toKeystream 4
  -- from the patcher?  It does not matter
  let _ ← cryptRecvValue g.toKeystream 1
  cryptSendBuffer g.toKeystream
    (leBytes 2 1 ++ leBytes 4 transId ++ writeAddress settings.fileServerAddress)

def cbAuthServIpAddress : Conn κ Unit := do
  let transId ← cryptRecvValue g.toKeystream 4
  cryptSendBuffer g.toKeystream
    (leBytes 2 2 ++ leBytes 4 transId ++ writeAddress settings.authServerAddress)

/-- One round of the loop of `wk_gateKeeper`. -/
def gateRound : Conn κ Unit := do
  let msgId ← cryptRecvValue g.toKeystream 2
  if msgId = 0 then cbPing g
  else if msgId = 1 then cbFileServIpAddress g settings
  else if msgId = 2 then cbAuthServIpAddress g settings
  else throw (.invalidMessage msgId)

/-- `wk_gateKeeper`, up to the exception that ends it. -/
def wkGateKeeper (env : CryptEnv) (fuel : Nat) : Conn κ Unit := do
  connect g (gateInit env)
  serveLoop (fun _ => gateRound g settings) fuel ()

end Program

/-! ## Requests and replies -/

inductive Request where
  | ping (transId pingTime : UInt32) (payload : List UInt8)
  | fileServIpAddress (transId : UInt32) (fromPatcher : UInt8)
  | authServIpAddress (transId : UInt32)
deriving DecidableEq, Repr

/-- A payload is not larger than the server takes. -/
def Request.Valid : Request → Prop
  | .ping _ _ payload => payload.length ≤ maxPayloadSize
  | _ => True

/-- A request as a client sends it. -/
def Request.encode : Request → List UInt8
  | .ping transId pingTime payload => leBytes 2 0 ++ (leBytes 4 transId.toNat ++
      (leBytes 4 pingTime.toNat ++ (leBytes 4 payload.length ++ payload)))
  | .fileServIpAddress transId fromPatcher =>
    leBytes 2 1 ++ (leBytes 4 transId.toNat ++ [fromPatcher])
  | .authServIpAddress transId => leBytes 2 2 ++ leBytes 4 transId.toNat

/-- The reply to a request. -/
def Request.reply (settings : Settings) : Request → List UInt8
  | .ping transId pingTime payload => leBytes 2 0 ++ leBytes 4 transId.toNat ++
      leBytes 4 pingTime.toNat ++ leBytes 4 payload.length ++ payload
  | .fileServIpAddress transId _ =>
    leBytes 2 1 ++ leBytes 4 transId.toNat ++ writeAddress settings.fileServerAddress
  | .authServIpAddress transId =>
    leBytes 2 2 ++ leBytes 4 transId.toNat ++ writeAddress settings.authServerAddress

/-- How the session ends where no whole request comes. -/
def stopAt (hup : Bool) (clear : List UInt8) : Stop :=
  if clear.length < 2 then starved hup
  else if 2 < leValue (clear.take 2) then .invalidMessage (leValue (clear.take 2))
  else if leValue (clear.take 2) = 0 ∧ 14 ≤ clear.length ∧
      maxPayloadSize < leValue ((clear.drop 10).take 4) then
    .packetSize (leValue ((clear.drop 10).take 4))
  else starved hup

def gateProtocol (settings : Settings) : Protocol Unit Request where
  encode := Request.encode
  Valid := Request.Valid
  serve _ r := (r.reply settings, .ok ())
  stopAt := stopAt

/-! ## One round -/

section Round

variable {κ : Type} {g : Rc4 κ} {hup : Bool} {w : Option κ}

theorem says_recvValue {size v : Nat} (hv : v < 256 ^ size) (rest : List UInt8) :
    Says g.toKeystream (cryptRecvValue g.toKeystream size)
      ⟨leBytes size v ++ rest, hup, w⟩ [] (.ok (v, ⟨rest, hup, w⟩)) := by
  refine (says_cryptRecvBuffer_append (length_leBytes size v) rest).after ?_
  rw [leValue_leBytes hv]
  exact says_pure _ _

theorem says_recvSize {size : Nat} (hsize : size ≤ maxPayloadSize) (rest : List UInt8) :
    Says g.toKeystream (cryptRecvSize g.toKeystream)
      ⟨leBytes 4 size ++ rest, hup, w⟩ [] (.ok (size, ⟨rest, hup, w⟩)) := by
  have hv : size < 256 ^ 4 := lt_of_le_of_lt hsize (by decide)
  refine (says_recvValue hv rest).after ?_
  rw [if_neg (not_lt.2 hsize)]
  exact says_pure _ _

theorem says_recvPayload (payload rest : List UInt8) :
    Says g.toKeystream (recvPayload g payload.length)
      ⟨payload ++ rest, hup, w⟩ [] (.ok (payload, ⟨rest, hup, w⟩)) := by
  unfold recvPayload
  split
  · rename_i hnil
    rw [List.length_eq_zero_iff.1 hnil, List.nil_append]
    exact says_pure _ _
  · exact says_cryptRecvBuffer_append rfl rest

theorem transId_lt (transId : UInt32) : transId.toNat < 256 ^ 4 := transId.toNat_lt

/-- **A whole request is answered.** -/
theorem says_request (settings : Settings) {r : Request} (hr : r.Valid) (rest : List UInt8) :
    Says g.toKeystream (gateRound g settings) ⟨r.encode ++ rest, hup, w⟩
      ((⟨rest, hup, w⟩ : Peer κ).sealed g.toKeystream (r.reply settings))
      (.ok ((), (⟨rest, hup, w⟩ : Peer κ).got g.toKeystream (r.reply settings).length)) := by
  cases r with
  | ping transId pingTime payload =>
    simp only [Request.encode, List.append_assoc]
    refine (says_recvValue (by decide) _).after ?_
    refine (says_recvValue (transId_lt transId) _).after ?_
    refine (says_recvValue (transId_lt pingTime) _).after ?_
    refine (says_recvSize hr _).after ?_
    exact (says_recvPayload payload rest).after (says_cryptSendBuffer _ _)
  | fileServIpAddress transId fromPatcher =>
    simp only [Request.encode, List.append_assoc]
    refine (says_recvValue (by decide) _).after ?_
    refine (says_recvValue (transId_lt transId) _).after ?_
    have hpatcher : Says g.toKeystream (cryptRecvValue g.toKeystream 1)
        ⟨[fromPatcher] ++ rest, hup, w⟩ [] (.ok (leValue [fromPatcher], ⟨rest, hup, w⟩)) :=
      (says_cryptRecvBuffer_append rfl rest).after (says_pure _ _)
    exact hpatcher.after (says_cryptSendBuffer _ _)
  | authServIpAddress transId =>
    simp only [Request.encode, List.append_assoc]
    refine (says_recvValue (by decide) _).after ?_
    refine (says_recvValue (transId_lt transId) _).after ?_
    exact says_cryptSendBuffer _ _

/-! ## What is not a request -/

theorem exists_value {size : Nat} {clear : List UInt8} (h : size ≤ clear.length) :
    ∃ v rest, v < 256 ^ size ∧ clear = leBytes size v ++ rest := by
  have hlen : (clear.take size).length = size := by
    rw [List.length_take]
    exact min_eq_left h
  refine ⟨leValue (clear.take size), clear.drop size, ?_, ?_⟩
  · have hlt := leValue_lt (clear.take size)
    rwa [hlen] at hlt
  · have hbytes := leBytes_leValue (clear.take size)
    rw [hlen] at hbytes
    rw [hbytes, List.take_append_drop]

theorem exists_word {clear : List UInt8} (h : 4 ≤ clear.length) :
    ∃ (v : UInt32) (rest : List UInt8), clear = leBytes 4 v.toNat ++ rest := by
  obtain ⟨v, rest, hv, rfl⟩ := exists_value h
  refine ⟨UInt32.ofNat v, rest, ?_⟩
  rw [UInt32.toNat_ofNat_of_lt' hv]

theorem take_leBytes (size v : Nat) (rest : List UInt8) :
    (leBytes size v ++ rest).take size = leBytes size v := by
  rw [List.take_append_of_le_length (length_leBytes size v).ge,
    List.take_of_length_le (length_leBytes size v).le]

theorem drop_leBytes (size v n : Nat) (rest : List UInt8) :
    (leBytes size v ++ rest).drop (size + n) = rest.drop n := by
  rw [← List.drop_drop, List.drop_left' (length_leBytes size v)]

theorem stopAt_id {msgId : Nat} (hid : msgId < 256 ^ 2) (rest : List UInt8) :
    stopAt hup (leBytes 2 msgId ++ rest) =
      if 2 < msgId then .invalidMessage msgId
      else if msgId = 0 ∧ 12 ≤ rest.length ∧
          maxPayloadSize < leValue ((rest.drop 8).take 4) then
        .packetSize (leValue ((rest.drop 8).take 4))
      else starved hup := by
  have hlen : (leBytes 2 msgId ++ rest).length = 2 + rest.length := by
    rw [List.length_append, length_leBytes]
  have hlong : 14 ≤ 2 + rest.length ↔ 12 ≤ rest.length := by omega
  rw [stopAt, take_leBytes, leValue_leBytes hid, hlen, if_neg (by omega),
    show (10 : Nat) = 2 + 8 from rfl, drop_leBytes]
  simp only [hlong]

theorem says_short {size : Nat} {clear : List UInt8} (h : clear.length < size) {α : Type}
    (f : Nat → Conn κ α) : Says g.toKeystream (cryptRecvValue g.toKeystream size >>= f)
      ⟨clear, hup, w⟩ [] (.error (starved hup)) :=
  (says_cryptRecvValue_short ⟨clear, hup, w⟩ h).bind_error

/-- A ping that breaks off, or has too large a payload. -/
theorem says_cut_ping {clear : List UInt8}
    (hcut : ∀ (transId pingTime : UInt32) (payload rest : List UInt8),
      payload.length ≤ maxPayloadSize → clear ≠ leBytes 4 transId.toNat ++
        (leBytes 4 pingTime.toNat ++ (leBytes 4 payload.length ++ (payload ++ rest)))) :
    Says g.toKeystream (cbPing g) ⟨clear, hup, w⟩ []
      (.error (if 12 ≤ clear.length ∧ maxPayloadSize < leValue ((clear.drop 8).take 4) then
        .packetSize (leValue ((clear.drop 8).take 4)) else starved hup)) := by
  unfold cbPing
  by_cases h4 : clear.length < 4
  · rw [if_neg (by omega)]
    exact says_short h4 _
  obtain ⟨transId, clear, rfl⟩ := exists_word (not_lt.1 h4)
  rw [List.length_append, length_leBytes]
  refine (says_recvValue (transId_lt transId) _).after ?_
  by_cases h8 : clear.length < 4
  · rw [if_neg (by omega)]
    exact says_short h8 _
  obtain ⟨pingTime, clear, rfl⟩ := exists_word (not_lt.1 h8)
  rw [List.length_append, length_leBytes]
  refine (says_recvValue (transId_lt pingTime) _).after ?_
  by_cases h12 : clear.length < 4
  · rw [if_neg (by omega)]
    exact (says_short h12 _).bind_error
  obtain ⟨size, clear, hsize, rfl⟩ := exists_value (not_lt.1 h12)
  rw [show (8 : Nat) = 4 + (4 + 0) from rfl, drop_leBytes, drop_leBytes, List.drop_zero,
    take_leBytes, leValue_leBytes hsize, List.length_append, length_leBytes]
  by_cases hmax : size ≤ maxPayloadSize
  · rw [if_neg (by omega)]
    refine (says_recvSize hmax _).after ?_
    have hshort : clear.length < size := by
      by_contra hle
      refine hcut transId pingTime (clear.take size) (clear.drop size) ?_ ?_
      · rw [List.length_take]
        omega
      · rw [List.length_take, min_eq_left (not_lt.1 hle), List.take_append_drop]
    have hpos : size ≠ 0 := by omega
    rw [recvPayload, if_neg hpos]
    exact (says_cryptRecvBuffer_short ⟨clear, hup, w⟩ hshort).bind_error
  · rw [if_pos ⟨by omega, not_le.1 hmax⟩]
    refine Says.bind_error ((says_recvValue hsize _).after ?_)
    rw [if_pos (not_le.1 hmax)]
    exact says_throw _ _

/-- **Anything else than a whole request ends the session.** -/
theorem says_cut (settings : Settings) {clear : List UInt8}
    (hcut : (gateProtocol settings).Cut clear) :
    Says g.toKeystream (gateRound g settings) ⟨clear, hup, w⟩ []
      (.error (stopAt hup clear)) := by
  have hcut : ∀ (r : Request) (rest : List UInt8), r.Valid → clear ≠ r.encode ++ rest := hcut
  by_cases h2 : clear.length < 2
  · rw [stopAt, if_pos h2]
    exact says_short h2 _
  obtain ⟨msgId, clear, hid, rfl⟩ := exists_value (not_lt.1 h2)
  rw [stopAt_id hid]
  refine (says_recvValue hid _).after ?_
  by_cases h0 : msgId = 0
  · subst h0
    rw [if_pos rfl, if_neg (by decide)]
    simp only [true_and]
    refine says_cut_ping fun transId pingTime payload rest hle heq => ?_
    refine hcut (.ping transId pingTime payload) rest hle ?_
    rw [heq]
    simp only [Request.encode, List.append_assoc]
  by_cases h1 : msgId = 1
  · subst h1
    rw [if_neg (by decide), if_pos rfl, if_neg (by decide), if_neg (by simp)]
    unfold cbFileServIpAddress
    by_cases h4 : clear.length < 4
    · exact says_short h4 _
    obtain ⟨transId, clear, rfl⟩ := exists_word (not_lt.1 h4)
    refine (says_recvValue (transId_lt transId) _).after ?_
    cases clear with
    | nil => exact says_short (by decide) _
    | cons fromPatcher rest =>
      refine absurd ?_ (hcut (.fileServIpAddress transId fromPatcher) rest trivial)
      simp only [Request.encode, List.append_assoc]
      rfl
  by_cases h2 : msgId = 2
  · subst h2
    rw [if_neg (by decide), if_neg (by decide), if_pos rfl, if_neg (by decide), if_neg (by simp)]
    unfold cbAuthServIpAddress
    by_cases h4 : clear.length < 4
    · exact says_short h4 _
    obtain ⟨transId, clear, rfl⟩ := exists_word (not_lt.1 h4)
    refine absurd ?_ (hcut (.authServIpAddress transId) clear trivial)
    simp only [Request.encode, List.append_assoc]
  · rw [if_neg h0, if_neg h1, if_neg h2, if_pos (by omega)]
    exact says_throw _ _

end Round

/-! ## The session -/

theorem length_encode_pos (r : Request) : 0 < r.encode.length := by
  cases r with
  | ping => exact Nat.zero_lt_succ _
  | fileServIpAddress => exact Nat.zero_lt_succ _
  | authServIpAddress => exact Nat.zero_lt_succ _

section Session

variable {κ : Type} {g : Rc4 κ} {settings : Settings}

/-- **The gate keeper implements its protocol.** -/
theorem implements_gate :
    (gateProtocol settings).Implements g.toKeystream fun _ => gateRound g settings where
  pos := length_encode_pos
  request _ _ rest _ _ hr := says_request settings hr rest
  cut _ _ _ _ hcut := says_cut settings hcut

theorem serveAll_gate (rs : List Request) : (gateProtocol settings).serveAll () rs =
    (rs.flatMap (Request.reply settings), .ok ()) := by
  induction rs with
  | nil => rfl
  | cons r rs ih =>
    have hcons : (gateProtocol settings).serveAll () (r :: rs) =
        (r.reply settings ++ ((gateProtocol settings).serveAll () rs).1,
          ((gateProtocol settings).serveAll () rs).2) := rfl
    rw [hcons, ih, List.flatMap_cons]

/-- What is sent to a client that sends `s`, and why its session is over. -/
inductive Transcript (g : Rc4 κ) (settings : Settings) (env : CryptEnv) (s : NetIO.Stream) :
    List UInt8 → Stop → Prop
  | plain {rs : List Request} {tail : List UInt8} (hrs : ∀ r ∈ rs, r.Valid) (htail : (gateProtocol settings).Cut tail)
      (h : handshakeBytes 20 1 s.bytes = some (0 :: 2 :: (rs.flatMap Request.encode ++ tail))) :
      Transcript g settings env s ([1, 2] ++ rs.flatMap (Request.reply settings))
        (stopAt s.hup tail)
  | encrypted {rs : List Request} {tail key sent sharedKey : List UInt8} {msgSize : UInt8}
      (hrs : ∀ r ∈ rs, r.Valid) (htail : (gateProtocol settings).Cut tail)
      (h : handshakeBytes 20 1 s.bytes = some (0 :: msgSize :: (key ++ sent))) (hne : key ≠ [])
      (hkey : key.length + 2 = msgSize.toNat) (hlen : key.length ≤ 64)
      (hshared : cryptEstablish env.key env.serverSeed env.stack (paddedKey key) = some sharedKey)
      (hsent : g.crypt (g.setKey sharedKey) sent = rs.flatMap Request.encode ++ tail) :
      Transcript g settings env s ([1, 9] ++ env.serverSeed ++
        g.crypt (g.setKey sharedKey) (rs.flatMap (Request.reply settings))) (stopAt s.hup tail)
  | refused {stop : Stop} (h : (clientInit recvStream 20 1 env s).stop = some stop)
      (hinside : stop ≠ .overrun) : Transcript g settings env s [] stop

/-- The loop, behind the handshake. -/
theorem sends_session {env : CryptEnv} {sock : Socket} {acc : Accepted} {rest : NetIO.Stream}
    (h : clientInit recvStream 20 1 env sock.stream = .ok acc rest)
    {rs : List Request} {tail : List UInt8} (hrs : ∀ r ∈ rs, r.Valid) (htail : (gateProtocol settings).Cut tail)
    (hclear : (acc.peer g rest).clear = rs.flatMap Request.encode ++ tail)
    {fuel : Nat} (hfuel : rs.length < fuel) :
    Sends (wkGateKeeper g settings env fuel ⟨sock, none⟩) (acc.reply ++
        (acc.peer g rest).sealed g.toKeystream (rs.flatMap (Request.reply settings)))
      fun x => x = .error (stopAt (acc.peer g rest).hup tail) := by
  refine sends_bind (sends_connect h) (fun a c hx => ?_) fun stop hx => ?_
  · rw [seen, Except.ok.injEq, Prod.mk.injEq] at hx
    have hloop := implements_gate.says_serveLoop (g := g.toKeystream) hrs htail
      (acc.peer g rest).hup (acc.peer g rest).writeKey () hfuel
    rw [serveAll_gate, gateProtocol, ← hclear] at hloop
    exact hloop.sends hx.2
  · cases hx

theorem sends_refused {env : CryptEnv} {sock : Socket} {stop : Stop}
    (h : (clientInit recvStream 20 1 env sock.stream).stop = some stop) (fuel : Nat) :
    Sends (wkGateKeeper g settings env fuel ⟨sock, none⟩) [] fun x => x = .error stop := by
  refine sends_after (sends_connect_stop (g := g) h) (fun a c hx => ?_)
    fun stop' hx => ?_
  · cases hx
  · cases hx
    exact ⟨rfl, rfl⟩

/-- Only a client that sends too much for `Y` gets the handshake past its buffer. -/
theorem clientInit_inside {env : CryptEnv} {s : NetIO.Stream} (h : ¬ Overlong .gate s.bytes) :
    clientInit recvStream 20 1 env s ≠ .overrun := by
  intro hover
  rcases clientInit_stream 20 1 env s with ⟨t, ht, hinit⟩ | ⟨-, hstops⟩
  · rw [hinit, serverHandshake_overrun] at hover
    obtain ⟨msgSize, rest, rfl, hsize, hlen⟩ := hover
    exact h ⟨msgSize, rest, ht, hsize, hlen⟩
  · exact hstops.ne_overrun hover

/-- **The replies are those to the requests of the client**, in their order, and nothing is sent
besides.  They do not depend on how the network cuts up what the client sends. -/
theorem gateKeeper_transcript (g : Rc4 κ) (settings : Settings) (env : CryptEnv) (sock : Socket)
    (hinside : ¬ Overlong .gate sock.stream.bytes) {fuel : Nat}
    (hfuel : sock.stream.bytes.length < fuel) :
    ∃ wire stop, Transcript g settings env sock.stream wire stop ∧
      Sends (wkGateKeeper g settings env fuel ⟨sock, none⟩) wire fun x => x = .error stop := by
  cases hr : clientInit recvStream 20 1 env sock.stream with
  | ok acc rest =>
    rcases clientInit_ok env hr with ⟨sent, hsent, rfl, rfl⟩ |
      ⟨msgSize, key, sent, hsent, hne, hkey, hlen, rfl, rfl⟩
    · obtain ⟨rs, tail, hrs, htail, rfl⟩ :=
        Protocol.exists_requests (P := gateProtocol settings) length_encode_pos sent
      have hbytes := handshakeBytes_length hsent
      have hcount := Protocol.length_requests (P := gateProtocol settings) length_encode_pos rs
      simp only [List.length_cons, List.length_append] at hbytes
      exact ⟨_, _, .plain hrs htail hsent, sends_session hr hrs htail rfl (by omega)⟩
    · obtain ⟨sharedKey, hshared⟩ := Option.isSome_iff_exists.1
        (cryptEstablish_isSome env.key env.serverSeed env.stack (paddedKey key))
      obtain ⟨rs, tail, hrs, htail, hclear⟩ := Protocol.exists_requests (P := gateProtocol settings)
        length_encode_pos (g.crypt (g.setKey sharedKey) sent)
      have hbytes := handshakeBytes_length hsent
      have hcount := Protocol.length_requests (P := gateProtocol settings) length_encode_pos rs
      have hlength := congrArg List.length hclear
      simp only [List.length_cons, List.length_append, Lib.Keystream.length_crypt] at hbytes hlength
      rw [exchange, hshared, Option.getD_some] at hr
      exact ⟨_, _, .encrypted hrs htail hsent hne hkey hlen hshared hclear,
        sends_session hr hrs htail hclear (by omega)⟩
  | blocked =>
    refine ⟨[], .blocked, .refused (by rw [hr]; rfl) fun h => ?_,
      sends_refused (by rw [hr]; rfl) fuel⟩
    cases h
  | sockHup =>
    refine ⟨[], .sockHup, .refused (by rw [hr]; rfl) fun h => ?_,
      sends_refused (by rw [hr]; rfl) fuel⟩
    cases h
  | invalidHeader =>
    refine ⟨[], .invalidHeader, .refused (by rw [hr]; rfl) fun h => ?_,
      sends_refused (by rw [hr]; rfl) fuel⟩
    cases h
  | overrun => exact absurd hr (clientInit_inside hinside)

/-- The header and the handshake of a client that talks in the clear, and three requests, in
segments that end within a request. -/
def cutSocket : Socket :=
  [.segment 20 (List.replicate 19 0 ++ [0, 2, 0]),
    .segment 0 [1, 0, 0, 0, 7, 0, 0, 0, 1, 0, 0, 0, 42, 1],
    .segment 0 [2, 0, 0, 0, 0, 2, 0, 3, 0], .segment 0 [0], .hangup]

example : cutSocket.stream = ⟨leBytes 4 20 ++ List.replicate 16 0 ++ 0 :: 2 ::
    [.ping 1 7 [42], .fileServIpAddress 2 0, .authServIpAddress 3].flatMap Request.encode,
      true⟩ := by
  decide

theorem gateKeeper_transcript_cut : ∃ wire stop,
    Transcript rc4 ⟨[104], [105]⟩ ⟨smallKey, List.replicate 7 0, []⟩ cutSocket.stream wire stop ∧
      Sends (wkGateKeeper rc4 ⟨[104], [105]⟩ ⟨smallKey, List.replicate 7 0, []⟩ 64
        ⟨cutSocket, none⟩) wire fun x => x = .error stop := by
  refine gateKeeper_transcript rc4 ⟨[104], [105]⟩ ⟨smallKey, List.replicate 7 0, []⟩ cutSocket
    ?_ (by decide)
  rintro ⟨msgSize, t, hbytes, hsize, -⟩
  have hclear : Server.gate.handshakeBytes cutSocket.stream.bytes = some (0 :: 2 ::
      [.ping 1 7 [42], .fileServIpAddress 2 0, .authServIpAddress 3].flatMap Request.encode) := by
    decide
  rw [hclear, Option.some.injEq, List.cons.injEq, List.cons.injEq] at hbytes
  obtain ⟨-, rfl, -⟩ := hbytes
  exact absurd hsize (by decide)

end Session

end Dirtsand.GateKeeper
