import Dirtsand.NetIO.Handshake

/-!
# The session key

`CryptIO.lean` has the key of `DS::CryptEstablish` and `Handshake.lean` the
clients that get as far as that call.  This file joins them.

A client takes `Y ^ K % N` as a number of 64 bytes, least significant byte
first, and combines its first seven bytes with the server's seed: `agreedKey`.
`BN_bn2bin` writes no leading zeros, so below `256 ^ 6` it leaves some of the
seven bytes of `keybuf` unwritten, and the server's key takes them from the
stack.

* `cryptEstablish_getD` — each byte of the server's key.
* `establishes_iff` — the handshake accepts every `Y` of 64 bytes.
* `keyAgreement_iff` — the two keys are the same exactly from `256 ^ 6` on.
-/

namespace Dirtsand.NetIO

/-! ## The exported number -/

theorem length_bnBn2bin (n : Nat) : (bnBn2bin n).length = bnNumBytes n := by
  simp only [bnBn2bin, List.length_reverse, List.length_map, List.length_range]

theorem lt_bnNumBytes_iff {n i : Nat} : i < bnNumBytes n ↔ 256 ^ i ≤ n := by
  unfold bnNumBytes
  by_cases h0 : n = 0
  · rw [if_pos h0, h0]
    have hpos : 0 < 256 ^ i := Nat.pow_pos (by decide)
    omega
  · rw [if_neg h0, Nat.lt_succ_iff]
    exact (Nat.le_log_iff_pow_le (by decide) h0)

/-- The `i`-th byte of a number that is written least significant byte first. -/
def lowByte (n i : Nat) : UInt8 :=
  UInt8.ofNat (n / 256 ^ i)

theorem lowByte_eq_zero {n i : Nat} (h : n < 256 ^ i) : lowByte n i = 0 := by
  rw [lowByte, Nat.div_eq_of_lt h]
  rfl

/-- `keybuf` behind the swap: the bytes that were written, then the stack. -/
theorem getD_keybuf (n : Nat) (stack : List UInt8) (i : Nat) :
    ((bnBn2bin n).reverse ++ stack.drop (bnNumBytes n)).getD i 0 =
      if 256 ^ i ≤ n then lowByte n i else stack.getD i 0 := by
  have hlen : (bnBn2bin n).reverse.length = bnNumBytes n := by
    rw [List.length_reverse, length_bnBn2bin]
  by_cases hi : 256 ^ i ≤ n
  · have hlt : i < bnNumBytes n := lt_bnNumBytes_iff.2 hi
    rw [if_pos hi, List.getD_eq_getElem?_getD, List.getElem?_append_left (by rw [hlen]; exact hlt)]
    simp only [bnBn2bin, List.reverse_reverse, List.getElem?_map,
      List.getElem?_range hlt, Option.map_some, Option.getD_some, lowByte]
  · have hle : bnNumBytes n ≤ i := Nat.not_lt.1 fun h => hi (lt_bnNumBytes_iff.1 h)
    rw [if_neg hi, List.getD_eq_getElem?_getD,
      List.getElem?_append_right (by rw [hlen]; exact hle), hlen, List.getElem?_drop,
      Nat.add_sub_cancel' hle, List.getD_eq_getElem?_getD]

/-! ## The two keys -/

/-- `Y ^ K % N`. -/
def CryptKey.shared (key : CryptKey) (Y : List UInt8) : Nat :=
  bnBin2bn Y ^ bnBin2bn key.K % bnBin2bn key.N

/-- The key of a client, from the seven low bytes of the shared number. -/
def agreedKey (key : CryptKey) (seed Y : List UInt8) : List UInt8 :=
  (List.range 7).map fun i => lowByte (key.shared Y) i ^^^ seed.getD i 0

/-- **The bytes of the server's key.** -/
theorem cryptEstablish_getD (key : CryptKey) (seed stack Y : List UInt8) :
    cryptEstablish key seed stack Y = some ((List.range 7).map fun i =>
      (if 256 ^ i ≤ key.shared Y then lowByte (key.shared Y) i else stack.getD i 0) ^^^
        seed.getD i 0) := by
  have hsome := cryptEstablish_isSome key seed stack Y
  unfold cryptEstablish at hsome ⊢
  by_cases hnum : bnNumBytes (bnBin2bn Y ^ bnBin2bn key.K % bnBin2bn key.N) > 64
  · simp [hnum] at hsome
  · simp only [if_neg hnum, getD_keybuf, CryptKey.shared]
    rfl

theorem xor_left_inj {a b c : UInt8} : a ^^^ c = b ^^^ c ↔ a = b := by
  constructor
  · intro h
    have h' : a ^^^ c ^^^ c = b ^^^ c ^^^ c := by rw [h]
    simpa [UInt8.xor_assoc] using h'
  · rintro rfl
    rfl

/-- The server gets the client's key where the bytes above the shared number
are zero on the stack. -/
theorem cryptEstablish_agrees (key : CryptKey) (seed stack Y : List UInt8) :
    cryptEstablish key seed stack Y = some (agreedKey key seed Y) ↔
      ∀ i < 7, key.shared Y < 256 ^ i → stack.getD i 0 = 0 := by
  rw [cryptEstablish_getD, Option.some_inj, agreedKey, List.map_inj_left]
  refine forall_congr' fun i => ?_
  rw [List.mem_range]
  refine imp_congr_right fun _ => ?_
  rw [xor_left_inj]
  by_cases hi : 256 ^ i ≤ key.shared Y
  · rw [if_pos hi]
    exact ⟨fun _ hlt => absurd hi (Nat.not_le.2 hlt), fun _ => rfl⟩
  · rw [if_neg hi, lowByte_eq_zero (Nat.not_le.1 hi)]
    exact ⟨fun h _ => h, fun h => h (Nat.not_le.1 hi)⟩

/-! ## The clients of the handshake -/

/-- A client that the server accepts with `Y`, and the key the server takes. -/
def Establishes (srv : Server) (env : CryptEnv) (Y sharedKey : List UInt8) : Prop :=
  ∃ sock reply rest, srv.init env sock = .ok (.encrypted Y sharedKey reply) rest

/-- A connection header, with zeros for the UUIDs. -/
def Server.header : Server → List UInt8
  | .auth => 20 :: List.replicate 19 0
  | .game => 36 :: List.replicate 35 0
  | .gate => 20 :: List.replicate 19 0

theorem handshakeBytes_header (srv : Server) (h : List UInt8) :
    srv.handshakeBytes (srv.header ++ h) = some h := by
  cases srv
  · rfl
  · rfl
  · rfl

theorem paddedKey_reverse {Y : List UInt8} (h : Y.length = 64) : paddedKey Y.reverse = Y := by
  rw [paddedKey, List.length_reverse, h, List.reverse_reverse]
  rfl

theorem Result.toStream_ok {α : Type} {r : Result Socket α} {a : α} {t : Stream}
    (h : r.toStream = .ok a t) : ∃ rest, r = .ok a rest := by
  cases r with
  | ok b rest =>
    rw [Result.toStream, Result.ok.injEq] at h
    exact ⟨rest, by rw [h.1]⟩
  | blocked => cases h
  | sockHup => cases h
  | invalidHeader => cases h
  | overrun => cases h

/-- A client that sends the whole of `Y`. -/
theorem serverHandshake_whole (env : CryptEnv) {Y : List UInt8} (h : Y.length = 64) :
    serverHandshake recvStream env ⟨0 :: 66 :: Y.reverse, false⟩ =
      .ok (exchange env Y.reverse) ⟨[], false⟩ := by
  have hlen : Y.reverse.length = 64 := by rw [List.length_reverse, h]
  have hsize : keySize 66 = 64 := by decide
  rw [serverHandshake_cons, keyExchange_stream, if_neg (by decide), if_neg (by decide), hsize,
    hlen, if_neg (by decide), if_pos (le_refl 64), ← hlen, List.take_length, List.drop_length]

/-- **Every `Y` of 64 bytes is accepted, and no other.** -/
theorem establishes_iff (srv : Server) (env : CryptEnv) (Y sharedKey : List UInt8) :
    Establishes srv env Y sharedKey ↔
      Y.length = 64 ∧ cryptEstablish env.key env.serverSeed env.stack Y = some sharedKey := by
  have hsome : ∀ Z, some ((cryptEstablish env.key env.serverSeed env.stack Z).getD []) =
      cryptEstablish env.key env.serverSeed env.stack Z := by
    intro Z
    obtain ⟨k, hk⟩ := Option.isSome_iff_exists.1
      (cryptEstablish_isSome env.key env.serverSeed env.stack Z)
    rw [hk, Option.getD_some]
  constructor
  · rintro ⟨sock, reply, rest, hok⟩
    rcases init_stream srv env sock with ⟨h, -, hs⟩ | ⟨-, hstop⟩
    · rw [hok] at hs
      rcases serverHandshake_ok env _ hs.symm with ⟨-, hplain⟩ | ⟨-, key, -, -, h64, he⟩
      · cases hplain
      · rw [exchange, Accepted.encrypted.injEq] at he
        obtain ⟨rfl, rfl, -⟩ := he
        exact ⟨length_paddedKey h64, (hsome _).symm⟩
    · rw [hok] at hstop
      exact absurd rfl (hstop.ne_ok _ _)
  · rintro ⟨hlen, hkey⟩
    obtain ⟨b, bs, hbytes⟩ : ∃ b bs, srv.header ++ 0 :: 66 :: Y.reverse = b :: bs := by
      cases srv
      · exact ⟨_, _, rfl⟩
      · exact ⟨_, _, rfl⟩
      · exact ⟨_, _, rfl⟩
    have hstream : Socket.stream [.segment b bs] = ⟨srv.header ++ 0 :: 66 :: Y.reverse, false⟩ := by
      rw [hbytes]
      simp only [Socket.stream, List.append_nil]
    rcases init_stream srv env [.segment b bs] with ⟨h, hb, hs⟩ | ⟨hb, -⟩
    · rw [hstream, handshakeBytes_header, Option.some_inj] at hb
      rw [← hb, hstream, serverHandshake_whole env hlen] at hs
      obtain ⟨rest, hrest⟩ := Result.toStream_ok hs
      rw [exchange, paddedKey_reverse hlen, hkey, Option.getD_some] at hrest
      exact ⟨_, _, rest, hrest⟩
    · rw [hstream, handshakeBytes_header] at hb
      cases hb

/-! ## Agreement -/

/-- Whatever the seed and the stack, the server's key for a client that it
accepts with `Y` is the client's. -/
def KeyAgreement (srv : Server) (key : CryptKey) (Y : List UInt8) : Prop :=
  ∀ env sharedKey, env.key = key → env.serverSeed.length = 7 → env.stack.length = 64 →
    Establishes srv env Y sharedKey → sharedKey = agreedKey key env.serverSeed Y

/-- **The keys agree exactly where the shared number has seven bytes.** -/
theorem keyAgreement_iff (srv : Server) (key : CryptKey) (Y : List UInt8) :
    KeyAgreement srv key Y ↔ (Y.length = 64 → 256 ^ 6 ≤ key.shared Y) := by
  constructor
  · intro h hlen
    by_contra hsmall
    -- a stack without a zero byte shows through in the seventh
    obtain ⟨k, hk⟩ := Option.isSome_iff_exists.1
      (cryptEstablish_isSome key (List.replicate 7 0) (List.replicate 64 1) Y)
    have hagree : k = agreedKey key (List.replicate 7 0) Y :=
      h ⟨key, List.replicate 7 0, List.replicate 64 1⟩ k rfl rfl rfl
        ((establishes_iff srv _ Y k).2 ⟨hlen, hk⟩)
    rw [hagree, cryptEstablish_agrees] at hk
    exact absurd (hk 6 (by decide) (Nat.not_le.1 hsmall)) (by decide)
  · rintro h ⟨key', seed, stack⟩ k rfl - - hest
    obtain ⟨hlen, hk⟩ := (establishes_iff srv _ Y k).1 hest
    have hagree : cryptEstablish key' seed stack Y = some (agreedKey key' seed Y) := by
      refine (cryptEstablish_agrees key' seed stack Y).2 fun i hi hlt => ?_
      have hmono : 256 ^ i ≤ 256 ^ 6 := Nat.pow_le_pow_right (by decide) (by omega)
      exact absurd (Nat.lt_of_lt_of_le hlt hmono) (Nat.not_lt.2 (h hlen))
    exact Option.some_inj.1 (hk.symm.trans hagree)

/-- A client whose `Y` is zero: nothing of `keybuf` is written. -/
theorem zero_client_disagrees :
    ¬ ∀ srv key Y, KeyAgreement srv key Y := by
  intro h
  have hlarge := (keyAgreement_iff .auth smallKey (List.replicate 64 0)).1 (h _ _ _) rfl
  have hzero : smallKey.shared (List.replicate 64 0) = 0 := by decide
  rw [hzero] at hlarge
  exact absurd hlarge (by decide)

end Dirtsand.NetIO
