import Dirtsand.Streams
import Mathlib.Logic.Function.Iterate

/-!
# The ciphers of encrypted streams

`EncryptedStream::teaEncipher`, `teaDecipher`, `xxteaEncipher` and
`xxteaDecipher` (streams.cpp), on a block of 8 bytes that is taken for two words
of 32 bits, lower byte first.

* `teaDecipher_teaEncipher` — the rounds of TEA are undone one by one, with the
  round constant counted down again.
* `xxteaDecipher_xxteaEncipher` — the same for XXTEA, whose loop back ends where
  the round constant is zero.
* `decipher_encipher` — a block is deciphered as it was.
-/

namespace Dirtsand.EncryptedStream

open Lib.Reader (leBytes leValue leValue_leBytes leBytes_leValue leValue_lt length_leBytes)

/-- `m_key`. -/
abbrev Key := Vector UInt32 4

def Key.word (key : Key) (i : UInt32) : UInt32 := key.toList.getD i.toNat 0

/-- `EncryptedStream::Type`. -/
inductive EncType where
  | xxtea
  | tea
deriving DecidableEq, Repr

/-! ## TEA -/

/-- The local variables of `teaEncipher` and `teaDecipher`. -/
structure TeaState where
  first : UInt32
  second : UInt32
  key : UInt32
deriving DecidableEq

def teaMix (m_key : Key) (other key index : UInt32) : UInt32 :=
  (((other >>> 5) ^^^ (other <<< 4)) + other) ^^^ (m_key.word (index &&& 3) + key)

def teaEncipherRound (m_key : Key) (s : TeaState) : TeaState :=
  let first := s.first + teaMix m_key s.second s.key s.key
  let key := s.key + 0x9E3779B9
  let second := s.second + teaMix m_key first key (key >>> 11)
  ⟨first, second, key⟩

def teaDecipherRound (m_key : Key) (s : TeaState) : TeaState :=
  let second := s.second - teaMix m_key s.first s.key (s.key >>> 11)
  let key := s.key - 0x9E3779B9
  let first := s.first - teaMix m_key second key key
  ⟨first, second, key⟩

def teaEncipher (m_key : Key) (buf : List UInt32) : List UInt32 :=
  let s := (teaEncipherRound m_key)^[32] ⟨buf.getD 0 0, buf.getD 1 0, 0⟩
  [s.first, s.second]

def teaDecipher (m_key : Key) (buf : List UInt32) : List UInt32 :=
  let s := (teaDecipherRound m_key)^[32] ⟨buf.getD 0 0, buf.getD 1 0, 0xC6EF3720⟩
  [s.first, s.second]

variable {m_key : Key}

theorem teaRound_inverse (m_key : Key) :
    Function.LeftInverse (teaDecipherRound m_key) (teaEncipherRound m_key) := by
  intro s
  simp only [teaDecipherRound, teaEncipherRound, UInt32.add_sub_cancel]

/-- The round constant does not depend on the block. -/
theorem teaEncipherRound_key (n : Nat) (s : TeaState) :
    ((teaEncipherRound m_key)^[n] s).key = (· + 0x9E3779B9)^[n] s.key := by
  induction n generalizing s with
  | zero => rfl
  | succ n ih =>
    rw [Function.iterate_succ_apply, Function.iterate_succ_apply, ih]
    rfl

theorem teaConst_last : (· + 0x9E3779B9)^[32] (0 : UInt32) = 0xC6EF3720 := by
  decide

theorem teaDecipher_teaEncipher (a b : UInt32) :
    teaDecipher m_key (teaEncipher m_key [a, b]) = [a, b] := by
  have hkey : ((teaEncipherRound m_key)^[32] ⟨a, b, 0⟩).key = 0xC6EF3720 := by
    rw [teaEncipherRound_key]
    exact teaConst_last
  have hback := (teaRound_inverse m_key).iterate 32 ⟨a, b, 0⟩
  rw [teaDecipher, teaEncipher]
  simp only [List.getD_cons_zero, List.getD_cons_succ]
  generalize (teaEncipherRound m_key)^[32] ⟨a, b, 0⟩ = s at hkey hback ⊢
  obtain ⟨first, second, key⟩ := s
  obtain rfl : key = 0xC6EF3720 := hkey
  rw [hback]

/-! ## XXTEA -/

/-- What is added to a word, or taken away from it, for the word next to it. -/
def xxteaMix (m_key : Key) (key numloop other : UInt32) : UInt32 :=
  let xorkey := (key >>> 2) &&& 3
  (((other <<< 4) ^^^ (other >>> 3)) + ((other >>> 5) ^^^ (other <<< 2))) ^^^
    ((m_key.word ((numloop &&& 3) ^^^ xorkey) ^^^ other) + (key ^^^ other))

/-- One round of the outer loop of `xxteaEncipher`. -/
def xxteaEncipherPass (m_key : Key) (num : Nat) (key : UInt32) (buf : List UInt32) : List UInt32 :=
  let buf := (List.range (num - 1)).foldl (fun buf i =>
    buf.set i (buf.getD i 0 + xxteaMix m_key key (UInt32.ofNat i) (buf.getD (i + 1) 0))) buf
  buf.set (num - 1)
    (buf.getD (num - 1) 0 + xxteaMix m_key key (UInt32.ofNat (num - 1)) (buf.getD 0 0))

/-- One round of the outer loop of `xxteaDecipher`. -/
def xxteaDecipherPass (m_key : Key) (num : Nat) (key : UInt32) (buf : List UInt32) : List UInt32 :=
  let buf := (List.range (num - 1)).reverse.foldl (fun buf i =>
    buf.set (i + 1)
      (buf.getD (i + 1) 0 - xxteaMix m_key key (UInt32.ofNat (i + 1)) (buf.getD i 0))) buf
  buf.set 0 (buf.getD 0 0 - xxteaMix m_key key 0 (buf.getD (num - 1) 0))

def xxteaRounds (num : Nat) : Nat := 52 / num + 6

/-- The loop counts the rounds, and the round constant up before each of them. -/
def xxteaEncipherRound (m_key : Key) (num : Nat) (s : UInt32 × List UInt32) :
    UInt32 × List UInt32 :=
  let key := s.1 - 0x61C88647
  (key, xxteaEncipherPass m_key num key s.2)

def xxteaEncipher (m_key : Key) (buf : List UInt32) (num : Nat) : List UInt32 :=
  ((xxteaEncipherRound m_key num)^[xxteaRounds num] (0, buf)).2

/-- The loop goes on until the round constant is zero.  It takes all values in
turn, so that there are fewer rounds than values. -/
def xxteaDecipherLoop (m_key : Key) (num : Nat) : Nat → UInt32 → List UInt32 → List UInt32
  | 0, _, buf => buf
  | n + 1, key, buf =>
    if key = 0 then buf
    else xxteaDecipherLoop m_key num n (key + 0x61C88647) (xxteaDecipherPass m_key num key buf)

def xxteaDecipher (m_key : Key) (buf : List UInt32) (num : Nat) : List UInt32 :=
  xxteaDecipherLoop m_key num (2 ^ 32) (UInt32.ofNat (xxteaRounds num) * 0x9E3779B9) buf

theorem xxteaEncipherPass_two (key a b : UInt32) :
    xxteaEncipherPass m_key 2 key [a, b] =
      [a + xxteaMix m_key key 0 b,
        b + xxteaMix m_key key 1 (a + xxteaMix m_key key 0 b)] := rfl

theorem xxteaDecipherPass_two (key a b : UInt32) :
    xxteaDecipherPass m_key 2 key [a, b] =
      [a - xxteaMix m_key key 0 (b - xxteaMix m_key key 1 a),
        b - xxteaMix m_key key 1 a] := rfl

theorem xxteaPass_inverse (key a b : UInt32) :
    xxteaDecipherPass m_key 2 key (xxteaEncipherPass m_key 2 key [a, b]) = [a, b] := by
  rw [xxteaEncipherPass_two, xxteaDecipherPass_two]
  simp only [UInt32.add_sub_cancel]

theorem xxteaEncipher_two (n : Nat) (key a b : UInt32) :
    ∃ c d, ((xxteaEncipherRound m_key 2)^[n] (key, [a, b])) =
      ((· - 0x61C88647)^[n] key, [c, d]) := by
  induction n generalizing key a b with
  | zero => exact ⟨a, b, rfl⟩
  | succ n ih => exact ih _ _ _

/-- The loop back undoes `n` rounds where none of their constants is zero. -/
theorem xxteaDecipherLoop_undo (m_key : Key) {n fuel : Nat} {a b : UInt32}
    (hconst : ∀ i < n, (· - 0x61C88647)^[i + 1] (0 : UInt32) ≠ 0) (hfuel : n < fuel) :
    xxteaDecipherLoop m_key 2 fuel ((· - 0x61C88647)^[n] 0)
      ((xxteaEncipherRound m_key 2)^[n] (0, [a, b])).2 = [a, b] := by
  induction n generalizing fuel with
  | zero =>
    obtain _ | fuel := fuel
    · cases hfuel
    · rfl
  | succ n ih =>
    obtain _ | fuel := fuel
    · cases hfuel
    · obtain ⟨c, d, hround⟩ := @xxteaEncipher_two m_key n 0 a b
      have hbefore := ih (fun i hi => hconst i (Nat.lt_succ_of_lt hi)) (Nat.lt_of_succ_lt_succ hfuel)
      rw [xxteaDecipherLoop, if_neg (hconst n n.lt_succ_self), Function.iterate_succ_apply',
        Function.iterate_succ_apply', xxteaEncipherRound, hround]
      rw [hround] at hbefore
      simp only [xxteaPass_inverse, UInt32.sub_add_cancel]
      exact hbefore

theorem xxteaRounds_two : xxteaRounds 2 = 32 := by decide

theorem xxteaConst_ne_zero : ∀ i < 32, (· - 0x61C88647)^[i + 1] (0 : UInt32) ≠ 0 := by
  decide

theorem xxteaConst_last :
    UInt32.ofNat (xxteaRounds 2) * 0x9E3779B9 = (· - 0x61C88647)^[32] (0 : UInt32) := by
  decide

theorem xxteaDecipher_xxteaEncipher (a b : UInt32) :
    xxteaDecipher m_key (xxteaEncipher m_key [a, b] 2) 2 = [a, b] := by
  rw [xxteaDecipher, xxteaEncipher, xxteaConst_last, xxteaRounds_two]
  apply xxteaDecipherLoop_undo m_key xxteaConst_ne_zero
  norm_num

/-! ## Blocks -/

/-- `reinterpret_cast<uint32_t*>` of 8 bytes. -/
def toWords (bytes : List UInt8) : List UInt32 :=
  [UInt32.ofNat (leValue (bytes.take 4)), UInt32.ofNat (leValue (bytes.drop 4))]

def fromWords (words : List UInt32) : List UInt8 := words.flatMap Streams.writeU32

/-- What `cryptFlush` does to the buffer. -/
def encipher (type : EncType) (m_key : Key) (buffer : List UInt8) : List UInt8 :=
  match type with
  | .xxtea => fromWords (xxteaEncipher m_key (toWords buffer) 2)
  | .tea => fromWords (teaEncipher m_key (toWords buffer))

/-- What `readBytes` does to the buffer. -/
def decipher (type : EncType) (m_key : Key) (buffer : List UInt8) : List UInt8 :=
  match type with
  | .xxtea => fromWords (xxteaDecipher m_key (toWords buffer) 2)
  | .tea => fromWords (teaDecipher m_key (toWords buffer))

theorem fromWords_pair (a b : UInt32) :
    fromWords [a, b] = leBytes 4 a.toNat ++ leBytes 4 b.toNat := by
  rw [fromWords, List.flatMap_cons, List.flatMap_cons, List.flatMap_nil, List.append_nil]
  rfl

theorem length_fromWords_pair (a b : UInt32) : (fromWords [a, b]).length = 8 := by
  rw [fromWords_pair, List.length_append, length_leBytes, length_leBytes]

theorem word_of_bytes (a : UInt32) : UInt32.ofNat (leValue (leBytes 4 a.toNat)) = a := by
  rw [leValue_leBytes a.toNat_lt, UInt32.ofNat_toNat]

theorem toWords_fromWords (a b : UInt32) : toWords (fromWords [a, b]) = [a, b] := by
  have hlen := length_leBytes 4 a.toNat
  rw [toWords, fromWords_pair, List.take_left' hlen, List.drop_left' hlen, word_of_bytes,
    word_of_bytes]

theorem bytes_of_word {bytes : List UInt8} (h : bytes.length = 4) :
    leBytes 4 (UInt32.ofNat (leValue bytes)).toNat = bytes := by
  have hlt := leValue_lt bytes
  rw [h] at hlt
  rw [UInt32.toNat_ofNat_of_lt' hlt]
  have hback := leBytes_leValue bytes
  rwa [h] at hback

theorem fromWords_toWords {bytes : List UInt8} (h : bytes.length = 8) :
    fromWords (toWords bytes) = bytes := by
  have htake : (bytes.take 4).length = 4 := by
    rw [List.length_take]
    omega
  have hdrop : (bytes.drop 4).length = 4 := by
    rw [List.length_drop]
    omega
  rw [toWords, fromWords_pair, bytes_of_word htake, bytes_of_word hdrop, List.take_append_drop]

theorem xxteaEncipher_pair (a b : UInt32) : ∃ c d, xxteaEncipher m_key [a, b] 2 = [c, d] := by
  obtain ⟨c, d, h⟩ := @xxteaEncipher_two m_key (xxteaRounds 2) 0 a b
  refine ⟨c, d, ?_⟩
  rw [xxteaEncipher, h]

theorem length_encipher (type : EncType) (m_key : Key) (buffer : List UInt8) :
    (encipher type m_key buffer).length = 8 := by
  cases type with
  | xxtea =>
    obtain ⟨c, d, h⟩ := @xxteaEncipher_pair m_key
      (UInt32.ofNat (leValue (buffer.take 4))) (UInt32.ofNat (leValue (buffer.drop 4)))
    rw [encipher, toWords, h]
    exact length_fromWords_pair c d
  | tea => exact length_fromWords_pair _ _

theorem length_xxteaDecipherPass (num : Nat) (key : UInt32) (buf : List UInt32) :
    (xxteaDecipherPass m_key num key buf).length = buf.length := by
  have hfold : ∀ (is : List Nat) (buf : List UInt32), (is.foldl (fun buf i => buf.set (i + 1)
      (buf.getD (i + 1) 0 - xxteaMix m_key key (UInt32.ofNat (i + 1)) (buf.getD i 0))) buf).length =
        buf.length := by
    intro is
    induction is with
    | nil => exact fun buf => rfl
    | cons i is ih =>
      intro buf
      rw [List.foldl_cons, ih, List.length_set]
  rw [xxteaDecipherPass, List.length_set, hfold]

theorem length_xxteaDecipherLoop (num n : Nat) (key : UInt32) (buf : List UInt32) :
    (xxteaDecipherLoop m_key num n key buf).length = buf.length := by
  induction n generalizing key buf with
  | zero => rfl
  | succ n ih =>
    rw [xxteaDecipherLoop]
    split
    · rfl
    · rw [ih, length_xxteaDecipherPass]

theorem length_decipher (type : EncType) (m_key : Key) (buffer : List UInt8) :
    (decipher type m_key buffer).length = 8 := by
  cases type with
  | xxtea =>
    have hlen : (xxteaDecipher m_key (toWords buffer) 2).length = 2 := length_xxteaDecipherLoop _ _ _ _
    obtain ⟨a, b, hpair⟩ := List.length_eq_two.1 hlen
    rw [decipher, hpair]
    exact length_fromWords_pair a b
  | tea => exact length_fromWords_pair _ _

/-- **A block is deciphered as it was before it was enciphered**, with either cipher. -/
theorem decipher_encipher (type : EncType) (m_key : Key) {buffer : List UInt8}
    (h : buffer.length = 8) : decipher type m_key (encipher type m_key buffer) = buffer := by
  obtain ⟨a, b, hwords⟩ : ∃ a b, toWords buffer = [a, b] := ⟨_, _, rfl⟩
  have hback := fromWords_toWords h
  rw [hwords] at hback
  cases type with
  | xxtea =>
    obtain ⟨c, d, hpair⟩ := @xxteaEncipher_pair m_key a b
    rw [encipher, decipher, hwords, hpair, toWords_fromWords, ← hpair,
      xxteaDecipher_xxteaEncipher, hback]
  | tea =>
    obtain ⟨c, d, hpair⟩ : ∃ c d, teaEncipher m_key [a, b] = [c, d] := ⟨_, _, rfl⟩
    rw [encipher, decipher, hwords, hpair, toWords_fromWords, ← hpair,
      teaDecipher_teaEncipher, hback]

/-- The first block of the files in `Test_EncryptedStream.cpp`. -/
example : decipher .xxtea #v[0x31415926, 0x53589793, 0x23846264, 0x33832795]
    [0x93, 0xBD, 0x71, 0x93, 0xA4, 0x40, 0xC2, 0x6A] = Streams.toLatin1 "Hello, w" := by
  decide +kernel

example : encipher .tea #v[0x6c0a5452, 0x03827d0f, 0x3a170b92, 0x16db7fc2]
    (Streams.toLatin1 "Hello, w") = [0xAC, 0xC1, 0xA6, 0xB6, 0xDC, 0x33, 0x95, 0x0E] := by
  decide

end Dirtsand.EncryptedStream
