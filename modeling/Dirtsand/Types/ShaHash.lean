import Dirtsand.Lib.Arrays
import Dirtsand.Lib.Sha
import Dirtsand.Streams
import Dirtsand.Types.Uuid

/-!
# SHA-0

`_ds_internal_sha0` (Types/ShaHash.cpp), which `ShaHash::Sha0` calls where OpenSSL
has no `sha`.  It is compared with the algorithm of FIPS 180, which is
`Lib.Sha.digest`.

* `preprocess_eq` — the buffer holds the padded message, on the stack as on the
  heap, and nothing behind it is written.
* `swapWords_spec`, `extend_spec`, `rounds_spec` — the loops over a block make its
  schedule and its 80 steps.
* `blockLoop_spec` — the loop over the blocks reads them all, and nothing behind.
* `internalSha0_eq` — the hash is the digest.
-/

namespace Dirtsand.ShaHash

open Lib (put slice loop)
open Lib.Reader (leBytes leValue length_leBytes)
open Lib.Sha (State padded digest)

/-- The bytes of `m_data`, as a comparison sees them. -/
def bytes (h : ShaHash) : List UInt8 := h.data.toList.flatMap Streams.writeU32

/-- `__builtin_bswap64`: the bytes in the other order. -/
def bswap64 (x : UInt64) : UInt64 := UInt64.ofNat (leValue (leBytes 8 x.toNat).reverse)

def rol32 (value n : UInt32) : UInt32 := (value <<< n) ||| (value >>> (32 - n))

/-- What is in the memory of the buffer, and of `work`, before. -/
structure Memory where
  buffer : Nat → UInt8
  work : Nat → UInt32

/-- `sizeof(stack_buffer)`. -/
def stackBuffer : UInt64 := 256

/-- `buf_size`. -/
def bufSize (size : UInt64) : UInt64 :=
  let buf_size := size + 1 + 8
  if buf_size % 64 ≠ 0 then buf_size + (64 - buf_size % 64) else buf_size

/-- The buffer, on the heap or on the stack, with the padded message at its start. -/
def preprocess (memory : Memory) (data : List UInt8) : Option (List UInt8) := do
  let size := UInt64.ofNat data.length
  let buf_size := bufSize size
  let length := if stackBuffer < buf_size then buf_size.toNat else stackBuffer.toNat
  let bufp := (List.range length).map memory.buffer
  let bufp ← put bufp 0 data
  let bufp ← put bufp size.toNat (List.replicate (buf_size - size).toNat 0)
  let bufp ← put bufp size.toNat [0x80]
  let msg_size_bits := bswap64 (size * 8)
  put bufp (buf_size - 8).toNat (leBytes 8 msg_size_bits.toNat)

/-- The words that are in a block, in the order of the host. -/
def blockWords (block : List UInt8) : List UInt32 :=
  (List.range 16).map fun i => UInt32.ofNat (leValue ((block.drop (4 * i)).take 4))

def swapWord (i : Nat) (work : List UInt32) : Option (List UInt32) := do
  let word ← work[i]?
  put work i [bswap32 word]

def swapWords (work : List UInt32) : Option (List UInt32) := loop swapWord 0 16 work

def extendWord (i : Nat) (work : List UInt32) : Option (List UInt32) := do
  let w₃ ← work[i - 3]?
  let w₈ ← work[i - 8]?
  let w₁₄ ← work[i - 14]?
  let w₁₆ ← work[i - 16]?
  put work i [w₃ ^^^ w₈ ^^^ w₁₄ ^^^ w₁₆]

def extend (work : List UInt32) : Option (List UInt32) := loop extendWord 16 64 work

/-- The body of the four loops, with the function and the constant of each. -/
def round (f : UInt32 → UInt32 → UInt32 → UInt32) (K : UInt32) (work : List UInt32) (i : Nat)
    (hv : Vector UInt32 5) : Option (Vector UInt32 5) := do
  let word ← work[i]?
  let temp := rol32 hv[0] 5 + f hv[1] hv[2] hv[3] + hv[4] + K + word
  let hv := hv.set 4 hv[3]
  let hv := hv.set 3 hv[2]
  let hv := hv.set 2 (rol32 hv[1] 30)
  let hv := hv.set 1 hv[0]
  some (hv.set 0 temp)

def rounds (work : List UInt32) (hv : Vector UInt32 5) : Option (Vector UInt32 5) := do
  let hv ← loop (round (fun b c d => (b &&& c) ||| (~~~b &&& d)) 0x5a827999 work) 0 20 hv
  let hv ← loop (round (fun b c d => b ^^^ c ^^^ d) 0x6ed9eba1 work) 20 20 hv
  let hv ← loop (round (fun b c d => (b &&& c) ||| (b &&& d) ||| (c &&& d)) 0x8f1bbcdc work) 40 20 hv
  loop (round (fun b c d => b ^^^ c ^^^ d) 0xca62c1d6 work) 60 20 hv

/-- The loop over the blocks up to `end`; a read behind it fails. -/
def blockLoop (buffer : List UInt8) (endp : Nat) :
    Nat → Nat → List UInt32 → Vector UInt32 5 → Option (Vector UInt32 5)
  | 0, _, _, _ => none
  | fuel + 1, bufp, work, hash =>
    if bufp < endp then do
      let block ← slice (buffer.take endp) bufp 64
      let work ← put work 0 (blockWords block)
      let work ← swapWords work
      let work ← extend work
      let hv ← rounds work hash
      let hash := #v[hash[0] + hv[0], hash[1] + hv[1], hash[2] + hv[2], hash[3] + hv[3],
        hash[4] + hv[4]]
      blockLoop buffer endp fuel (bufp + 64) work hash
    else some hash

/-- `_ds_internal_sha0`; nothing is returned where memory outside of the padded message is
accessed. -/
def internalSha0 (memory : Memory) (data : List UInt8) : Option ShaHash := do
  let hash := #v[0x67452301, 0xefcdab89, 0x98badcfe, 0x10325476, 0xc3d2e1f0]
  let buffer ← preprocess memory data
  let endp := (bufSize (UInt64.ofNat data.length)).toNat
  let hash ← blockLoop buffer endp (endp + 1) 0 ((List.range 80).map memory.work) hash
  some ⟨hash.map bswap32⟩

/-! ## Bytes in the other order -/

/-- A byte of a number, by itself. -/
theorem and_byte (n : Nat) : n &&& 0xFF00 = (n / 256 % 256) <<< 8 := by
  have hmask : (0xFF00 : Nat) = (2 ^ 8 - 1) <<< 8 := rfl
  have hdiv : n / 256 % 256 = n / 2 ^ 8 % 2 ^ 8 := rfl
  refine Nat.eq_of_testBit_eq fun i => ?_
  rw [hmask, hdiv, Nat.testBit_and, Nat.testBit_shiftLeft, Nat.testBit_shiftLeft,
    Nat.testBit_two_pow_sub_one, Nat.testBit_mod_two_pow, Nat.testBit_div_two_pow]
  by_cases hi : 8 ≤ i
  · have hback : i - 8 + 8 = i := by omega
    simp [hi, hback, Bool.and_comm]
  · simp [hi]

theorem toNat_bswap32 (x : UInt32) : (bswap32 x).toNat =
    x.toNat % 256 * 2 ^ 24 + (x.toNat / 256 % 256 * 2 ^ 16 + (x.toNat / 2 ^ 16 % 256 * 2 ^ 8 +
      x.toNat / 2 ^ 24)) := by
  have hx := x.toNat_lt
  have h₁ : (x <<< 24).toNat = (x.toNat % 256) <<< 24 := by
    rw [UInt32.toNat_shiftLeft, Nat.shiftLeft_eq, Nat.shiftLeft_eq]
    show x.toNat * 2 ^ 24 % 2 ^ 32 = _
    omega
  have h₂ : ((x &&& 0xFF00) <<< 8).toNat = (x.toNat / 256 % 256) <<< 16 := by
    rw [UInt32.toNat_shiftLeft, UInt32.toNat_and]
    show (x.toNat &&& 0xFF00) <<< 8 % 2 ^ 32 = _
    rw [and_byte, Nat.shiftLeft_eq, Nat.shiftLeft_eq, Nat.shiftLeft_eq]
    omega
  have h₃ : ((x >>> 8) &&& 0xFF00).toNat = (x.toNat / 2 ^ 16 % 256) <<< 8 := by
    rw [UInt32.toNat_and, UInt32.toNat_shiftRight]
    show (x.toNat >>> 8) &&& 0xFF00 = _
    rw [and_byte, Nat.shiftRight_eq_div_pow, Nat.div_div_eq_div_mul]
    rfl
  have h₄ : (x >>> 24).toNat = x.toNat / 2 ^ 24 := by
    rw [UInt32.toNat_shiftRight]
    exact Nat.shiftRight_eq_div_pow _ _
  show ((x <<< 24) ||| ((x &&& (0xFF00 : UInt32)) <<< 8) ||| ((x >>> 8) &&& (0xFF00 : UInt32)) |||
    (x >>> 24)).toNat = _
  rw [UInt32.toNat_or, UInt32.toNat_or, UInt32.toNat_or, h₁, h₂, h₃, h₄, Nat.or_assoc, Nat.or_assoc]
  have hlow : x.toNat / 2 ^ 24 < 2 ^ 8 := by omega
  have hmid : (x.toNat / 2 ^ 16 % 256) <<< 8 + x.toNat / 2 ^ 24 < 2 ^ 16 := by
    rw [Nat.shiftLeft_eq]
    omega
  have hhigh : (x.toNat / 256 % 256) <<< 16 +
      ((x.toNat / 2 ^ 16 % 256) <<< 8 + x.toNat / 2 ^ 24) < 2 ^ 24 := by
    rw [Nat.shiftLeft_eq, Nat.shiftLeft_eq]
    omega
  rw [← Nat.shiftLeft_add_eq_or_of_lt hlow, ← Nat.shiftLeft_add_eq_or_of_lt hmid,
    ← Nat.shiftLeft_add_eq_or_of_lt hhigh, Nat.shiftLeft_eq, Nat.shiftLeft_eq, Nat.shiftLeft_eq]

/-- **`bswap32` is the word of the bytes in the other order.** -/
theorem bswap32_word {bs : List UInt8} (h : bs.length = 4) :
    bswap32 (UInt32.ofNat (leValue bs)) = UInt32.ofNat (leValue bs.reverse) := by
  obtain ⟨b₀, b₁, b₂, b₃, rfl⟩ := List.length_eq_four.1 h
  have hlt : ∀ b : UInt8, b.toNat < 256 := fun b => b.toNat_lt
  have h₀ := hlt b₀
  have h₁ := hlt b₁
  have h₂ := hlt b₂
  have h₃ := hlt b₃
  rw [← UInt32.toNat_inj, toNat_bswap32]
  simp only [List.reverse_cons, List.reverse_nil, List.nil_append, List.cons_append, leValue]
  rw [UInt32.toNat_ofNat_of_lt' (show _ < 2 ^ 32 by omega),
    UInt32.toNat_ofNat_of_lt' (show _ < 2 ^ 32 by omega)]
  generalize hn : b₀.toNat + 256 * (b₁.toNat + 256 * (b₂.toNat + 256 * (b₃.toNat + 256 * 0))) = n
  have hq₁ : n / 256 = b₁.toNat + 256 * (b₂.toNat + 256 * b₃.toNat) := by omega
  have hq₂ : n / 2 ^ 16 = b₂.toNat + 256 * b₃.toNat := by omega
  have hq₃ : n / 2 ^ 24 = b₃.toNat := by omega
  have hr₀ : n % 256 = b₀.toNat := by omega
  have hr₁ : (b₁.toNat + 256 * (b₂.toNat + 256 * b₃.toNat)) % 256 = b₁.toNat := by omega
  have hr₂ : (b₂.toNat + 256 * b₃.toNat) % 256 = b₂.toNat := by omega
  rw [hq₁, hq₂, hq₃, hr₀, hr₁, hr₂]
  ring

theorem word_reverse (x : UInt32) :
    leBytes 4 (bswap32 x).toNat = (leBytes 4 x.toNat).reverse := by
  have hlen := length_leBytes 4 x.toNat
  have hback : UInt32.ofNat (leValue (leBytes 4 x.toNat)) = x := by
    rw [Lib.Reader.leValue_leBytes x.toNat_lt, UInt32.ofNat_toNat]
  have hword := bswap32_word hlen
  rw [hback] at hword
  have hrev : (leBytes 4 x.toNat).reverse.length = 4 := by rw [List.length_reverse, hlen]
  have hlt := Lib.Reader.leValue_lt (leBytes 4 x.toNat).reverse
  have hbytes := Lib.Reader.leBytes_leValue (leBytes 4 x.toNat).reverse
  rw [hrev] at hlt hbytes
  rw [hword, UInt32.toNat_ofNat_of_lt' hlt, hbytes]

/-! ## The padded message -/

theorem toNat_bufSize {n : Nat} (h : n < 2 ^ 61) :
    (bufSize (UInt64.ofNat n)).toNat = n + 1 + Lib.Sha.zeros n + 8 := by
  have hn : (UInt64.ofNat n).toNat = n := UInt64.toNat_ofNat_of_lt' (lt_trans h (by decide))
  have hsum : (UInt64.ofNat n + 1 + 8).toNat = n + 9 := by
    rw [UInt64.toNat_add, UInt64.toNat_add, hn]
    show ((n + 1) % 2 ^ 64 + 8) % 2 ^ 64 = n + 9
    omega
  have hmod : ((UInt64.ofNat n + 1 + 8) % 64).toNat = (n + 9) % 64 := by
    rw [UInt64.toNat_mod, hsum]
    rfl
  rw [bufSize, Lib.Sha.zeros]
  show (if (UInt64.ofNat n + 1 + 8) % 64 ≠ 0 then _ else _ : UInt64).toNat = _
  by_cases hfull : (UInt64.ofNat n + 1 + 8) % 64 = 0
  · have hzero : (n + 9) % 64 = 0 := by
      rw [← hmod, hfull]
      rfl
    rw [if_neg (not_not.2 hfull), hsum]
    omega
  · have hle : (UInt64.ofNat n + 1 + 8) % 64 ≤ 64 := by
      rw [UInt64.le_iff_toNat_le, hmod]
      exact (Nat.mod_lt _ (by decide)).le
    have hsub : (64 - (UInt64.ofNat n + 1 + 8) % 64).toNat = 64 - (n + 9) % 64 := by
      rw [UInt64.toNat_sub_of_le _ _ hle, hmod]
      rfl
    have hne : (n + 9) % 64 ≠ 0 := by
      intro hzero
      refine hfull (UInt64.toNat_inj.1 ?_)
      rw [hmod, hzero]
      rfl
    rw [if_pos hfull, UInt64.toNat_add, hsub, hsum]
    omega

/-- The length in bits, as the host writes it with its bytes swapped. -/
theorem lengthBytes {n : Nat} (h : n < 2 ^ 61) :
    leBytes 8 (bswap64 (UInt64.ofNat n * 8)).toNat = (leBytes 8 (8 * n)).reverse := by
  have hbits : (UInt64.ofNat n * 8).toNat = 8 * n := by
    rw [UInt64.toNat_mul, UInt64.toNat_ofNat_of_lt' (lt_trans h (by decide))]
    show n * 8 % 2 ^ 64 = _
    omega
  have hlen : (leBytes 8 (8 * n)).reverse.length = 8 := by
    rw [List.length_reverse, length_leBytes]
  have hlt := Lib.Reader.leValue_lt (leBytes 8 (8 * n)).reverse
  have hback := Lib.Reader.leBytes_leValue (leBytes 8 (8 * n)).reverse
  rw [hlen] at hlt hback
  rw [bswap64, hbits, UInt64.toNat_ofNat_of_lt' hlt, hback]

/-- How long the buffer is. -/
def bufferLength (buf_size : UInt64) : Nat :=
  if stackBuffer < buf_size then buf_size.toNat else stackBuffer.toNat

/-- It has room for the padded message. -/
theorem le_bufferLength (buf_size : UInt64) : buf_size.toNat ≤ bufferLength buf_size := by
  rw [bufferLength]
  split
  · exact le_rfl
  · rename_i hle
    exact UInt64.le_iff_toNat_le.1 (UInt64.not_lt.1 hle)

/-- The four writes: the message, zeros behind it, the byte `0x80`, and the length at the end. -/
theorem paddingWrites {data front middle tail length : List UInt8} {z : Nat}
    (hfront : front.length = data.length) (hmiddle : middle.length = 1 + (z + 8))
    (hlength : length.length = 8) :
    (do
      let bufp ← put (front ++ (middle ++ tail)) 0 data
      let bufp ← put bufp data.length (List.replicate (1 + (z + 8)) 0)
      let bufp ← put bufp data.length [0x80]
      put bufp (data ++ ([0x80] ++ List.replicate z 0)).length length) =
    some ((data ++ ([0x80] ++ List.replicate z 0)) ++ (length ++ tail)) := by
  have h₁ : put (front ++ (middle ++ tail)) 0 data = some (data ++ (middle ++ tail)) :=
    Lib.put_middle [] hfront.symm
  have h₂ : put (data ++ (middle ++ tail)) data.length (List.replicate (1 + (z + 8)) 0) =
      some (data ++ (List.replicate (1 + (z + 8)) 0 ++ tail)) := by
    refine Lib.put_middle _ ?_
    rw [List.length_replicate, hmiddle]
  have hzeros : data ++ (List.replicate (1 + (z + 8)) 0 ++ tail) =
      data ++ ([0] ++ (List.replicate (z + 8) 0 ++ tail)) := by
    rw [List.replicate_add, List.append_assoc]
    rfl
  have h₃ : put (data ++ ([0] ++ (List.replicate (z + 8) 0 ++ tail))) data.length [(0x80 : UInt8)] =
      some (data ++ ([0x80] ++ (List.replicate (z + 8) 0 ++ tail))) := Lib.put_middle _ rfl
  have hlast : data ++ ([0x80] ++ (List.replicate (z + 8) 0 ++ tail)) =
      (data ++ ([0x80] ++ List.replicate z 0)) ++ (List.replicate 8 0 ++ tail) := by
    rw [List.replicate_add, List.append_assoc, List.append_assoc, List.append_assoc]
  have h₄ : put ((data ++ ([0x80] ++ List.replicate z 0)) ++ (List.replicate 8 0 ++ tail))
      (data ++ ([0x80] ++ List.replicate z 0)).length length =
        some ((data ++ ([0x80] ++ List.replicate z 0)) ++ (length ++ tail)) := by
    refine Lib.put_middle _ ?_
    rw [hlength, List.length_replicate]
  rw [h₁, Option.bind_eq_bind, Option.bind_some, h₂, Option.bind_some, hzeros, h₃, Option.bind_some,
    hlast, h₄]

/-- **The padded message is at the start of the buffer**, and what is behind it is as it was. -/
theorem preprocess_eq (memory : Memory) {data : List UInt8} (h : data.length < 2 ^ 61) :
    preprocess memory data = some (padded data ++
      ((List.range (bufferLength (bufSize (UInt64.ofNat data.length)))).map memory.buffer).drop
        (padded data).length) := by
  have hsize : (UInt64.ofNat data.length).toNat = data.length :=
    UInt64.toNat_ofNat_of_lt' (lt_trans h (by decide))
  have hbuf := toNat_bufSize h
  have hpadded := Lib.Sha.length_padded data
  have hroom := le_bufferLength (bufSize (UInt64.ofNat data.length))
  set buf_size := bufSize (UInt64.ofNat data.length) with hbuf_size
  set old := (List.range (bufferLength buf_size)).map memory.buffer with hold
  set tail := old.drop (padded data).length with htail
  set z := Lib.Sha.zeros data.length with hz
  have hlen : old.length = bufferLength buf_size := by
    rw [hold, List.length_map, List.length_range]
  have hsub : (buf_size - UInt64.ofNat data.length).toNat = 1 + (z + 8) := by
    rw [UInt64.toNat_sub_of_le _ _ (UInt64.le_iff_toNat_le.2 (by omega)), hsize, hbuf]
    omega
  have hend : (buf_size - 8).toNat = (data ++ ([0x80] ++ List.replicate z 0)).length := by
    have height : (8 : UInt64).toNat = 8 := rfl
    rw [UInt64.toNat_sub_of_le _ _ (UInt64.le_iff_toNat_le.2 (by omega)), hbuf, height,
      List.length_append, List.length_append, List.length_replicate, List.length_singleton]
    omega
  have hsplit : old = old.take data.length ++ ((old.drop data.length).take (1 + (z + 8)) ++ tail) := by
    have hplace : data.length + (1 + (z + 8)) = (padded data).length := by omega
    have hdrop : (old.drop data.length).drop (1 + (z + 8)) = tail := by
      rw [List.drop_drop, hplace]
    rw [← hdrop, List.take_append_drop, List.take_append_drop]
  have hfront : (old.take data.length).length = data.length := by
    rw [List.length_take]
    omega
  have hmiddle : ((old.drop data.length).take (1 + (z + 8))).length = 1 + (z + 8) := by
    rw [List.length_take, List.length_drop]
    omega
  have hlength : (leBytes 8 (8 * data.length)).reverse.length = 8 := by
    rw [List.length_reverse, length_leBytes]
  rw [preprocess]
  show (do
    let bufp ← put old 0 data
    let bufp ← put bufp (UInt64.ofNat data.length).toNat
      (List.replicate (buf_size - UInt64.ofNat data.length).toNat 0)
    let bufp ← put bufp (UInt64.ofNat data.length).toNat [0x80]
    put bufp (buf_size - 8).toNat (leBytes 8 (bswap64 (UInt64.ofNat data.length * 8)).toNat)) = _
  rw [hsize, hsub, hend, lengthBytes h, hsplit, paddingWrites hfront hmiddle hlength, padded]
  simp only [List.append_assoc, List.cons_append, List.nil_append]
  rfl

/-! ## A block -/

theorem length_blockWords (block : List UInt8) : (blockWords block).length = 16 := by
  rw [blockWords, List.length_map, List.length_range]

theorem blockWords_getElem? (block : List UInt8) {i : Nat} (hi : i < 16) :
    (blockWords block)[i]? =
      some (UInt32.ofNat (leValue ((block.drop (4 * i)).take 4))) := by
  rw [blockWords, List.getElem?_map, List.getElem?_range hi]
  rfl

/-- A word that is put into `work`, and the others. -/
theorem put_word {work : List UInt32} {i : Nat} (hi : i < work.length) (v : UInt32) :
    ∃ next, put work i [v] = some next ∧ next.length = work.length ∧ next[i]? = some v ∧
      ∀ t, t ≠ i → next[t]? = work[t]? := by
  obtain ⟨next, hput, hlen, helem⟩ := @Lib.put_eq _ work [v] i hi
  rw [List.length_singleton] at helem
  refine ⟨next, hput, hlen, ?_, fun t ht => ?_⟩
  · rw [helem, if_pos ⟨le_rfl, Nat.lt_succ_self i⟩, Nat.sub_self]
    rfl
  · rw [helem, if_neg (by omega)]

/-- **The words of a block are swapped** to those of the message. -/
theorem swapWords_spec {work : List UInt32} {m : Nat → UInt32} (hlen : work.length = 80)
    (hraw : ∀ t, t < 16 → ∃ v, work[t]? = some v ∧ bswap32 v = m t) :
    ∃ work', swapWords work = some work' ∧ work'.length = 80 ∧
      ∀ t, t < 16 → work'[t]? = some (m t) := by
  let P : Nat → List UInt32 → Prop := fun i now => now.length = 80 ∧
    (∀ t, t < i → now[t]? = some (m t)) ∧ ∀ t, i ≤ t → now[t]? = work[t]?
  have hstart : P 0 work := ⟨hlen, fun t ht => absurd ht (Nat.not_lt_zero t), fun _ _ => rfl⟩
  have hbody : ∀ i now, 0 ≤ i → i < 0 + 16 → P i now →
      ∃ next, swapWord i now = some next ∧ P (i + 1) next := by
    rintro i now - hi ⟨hnow, hdone, htodo⟩
    obtain ⟨v, hv, hswap⟩ := hraw i (by omega)
    obtain ⟨next, hput, hnext, hself, hother⟩ := put_word (show i < now.length by omega) (bswap32 v)
    refine ⟨next, ?_, hnext.trans hnow, fun t ht => ?_, fun t ht => ?_⟩
    · rw [swapWord, htodo i le_rfl, hv]
      exact hput
    · by_cases hti : t = i
      · rw [hti, hself, hswap]
      · rw [hother t hti]
        exact hdone t (by omega)
    · rw [hother t (by omega)]
      exact htodo t (by omega)
  obtain ⟨work', hloop, hlast, hdone, -⟩ := Lib.loop_rule P hbody hstart
  exact ⟨work', hloop, hlast, fun t ht => hdone t (by omega)⟩

/-- **The schedule of a block**, of which the first words are there. -/
theorem extend_spec {work : List UInt32} {m : Nat → UInt32} (hlen : work.length = 80)
    (hwords : ∀ t, t < 16 → work[t]? = some (m t)) :
    ∃ work', extend work = some work' ∧ work'.length = 80 ∧
      ∀ t, t < 80 → work'[t]? = some (Lib.Sha.w m t) := by
  let P : Nat → List UInt32 → Prop := fun i now => now.length = 80 ∧
    ∀ t, t < i → now[t]? = some (Lib.Sha.w m t)
  have hstart : P 16 work := by
    refine ⟨hlen, fun t ht => ?_⟩
    rw [hwords t ht, Lib.Sha.w_of_lt ht]
  have hbody : ∀ i now, 16 ≤ i → i < 16 + 64 → P i now →
      ∃ next, extendWord i now = some next ∧ P (i + 1) next := by
    rintro i now hle hlt ⟨hnow, hdone⟩
    obtain ⟨next, hput, hnext, hself, hother⟩ := put_word (show i < now.length by omega)
      (Lib.Sha.w m i)
    refine ⟨next, ?_, hnext.trans hnow, fun t ht => ?_⟩
    · rw [extendWord, hdone (i - 3) (by omega), hdone (i - 8) (by omega),
        hdone (i - 14) (by omega), hdone (i - 16) (by omega)]
      show put now i [_] = _
      rw [← Lib.Sha.w_of_le hle]
      exact hput
    · by_cases hti : t = i
      · rw [hti, hself]
      · rw [hother t hti]
        exact hdone t (by omega)
  obtain ⟨work', hloop, hlast, hdone⟩ := Lib.loop_rule P hbody hstart
  exact ⟨work', hloop, hlast, hdone⟩

/-- The five words as the code has them. -/
def words (s : State) : Vector UInt32 5 := #v[s.a, s.b, s.c, s.d, s.e]

/-- One step, with the function and the constant of its place. -/
theorem round_eq {work : List UInt32} {m : Nat → UInt32} {i : Nat}
    (hword : work[i]? = some (Lib.Sha.w m i)) (s : State) :
    round (Lib.Sha.f i) (Lib.Sha.k i) work i (words s) = some (words (Lib.Sha.step m i s)) := by
  have hsum : rol32 s.a 5 + Lib.Sha.f i s.b s.c s.d + s.e + Lib.Sha.k i + Lib.Sha.w m i =
      Lib.Sha.rotate 5 s.a + Lib.Sha.f i s.b s.c s.d + s.e + Lib.Sha.w m i + Lib.Sha.k i := by
    rw [UInt32.add_assoc, UInt32.add_comm (Lib.Sha.k i), ← UInt32.add_assoc]
    rfl
  rw [round, hword]
  show some (#v[rol32 s.a 5 + Lib.Sha.f i s.b s.c s.d + s.e + Lib.Sha.k i + Lib.Sha.w m i, s.a,
    rol32 s.b 30, s.c, s.d] : Vector UInt32 5) = _
  rw [hsum]
  rfl

/-- Twenty steps of one kind. -/
theorem loop_round {work : List UInt32} {m : Nat → UInt32}
    (hwork : ∀ t, t < 80 → work[t]? = some (Lib.Sha.w m t)) {f : UInt32 → UInt32 → UInt32 → UInt32}
    {K : UInt32} {start : Nat} (hstart : start ≤ 60)
    {stop : Nat} (hstop : stop = start + 20)
    (hf : ∀ i, start ≤ i → i < stop → f = Lib.Sha.f i ∧ K = Lib.Sha.k i) (s : State) :
    loop (round f K work) start 20 (words (Lib.Sha.steps m start s)) =
      some (words (Lib.Sha.steps m stop s)) := by
  subst hstop
  let P : Nat → Vector UInt32 5 → Prop := fun i hv => hv = words (Lib.Sha.steps m i s)
  have hbody : ∀ i hv, start ≤ i → i < start + 20 → P i hv →
      ∃ hv', round f K work i hv = some hv' ∧ P (i + 1) hv' := by
    rintro i hv hle hlt rfl
    obtain ⟨rfl, rfl⟩ := hf i hle hlt
    exact ⟨_, round_eq (hwork i (by omega)) _, rfl⟩
  obtain ⟨hv, hloop, hlast⟩ := Lib.loop_rule P hbody rfl
  rw [hloop, hlast]

/-- **The four loops are the 80 steps.** -/
theorem rounds_spec {work : List UInt32} {m : Nat → UInt32}
    (hwork : ∀ t, t < 80 → work[t]? = some (Lib.Sha.w m t)) (s : State) :
    rounds work (words s) = some (words (Lib.Sha.steps m 80 s)) := by
  have h₁ := @loop_round work m hwork (fun b c d => (b &&& c) ||| (~~~b &&& d)) 0x5a827999 0
    (by decide) 20 rfl (fun i hle hlt => by
      refine ⟨?_, ?_⟩
      · funext b c d
        rw [Lib.Sha.f, if_pos (by omega)]
      · rw [Lib.Sha.k, if_pos (by omega)]) s
  have h₂ := @loop_round work m hwork (fun b c d => b ^^^ c ^^^ d) 0x6ed9eba1 20
    (by decide) 40 rfl (fun i hle hlt => by
      refine ⟨?_, ?_⟩
      · funext b c d
        rw [Lib.Sha.f, if_neg (by omega), if_pos (by omega)]
      · rw [Lib.Sha.k, if_neg (by omega), if_pos (by omega)]) s
  have h₃ := @loop_round work m hwork (fun b c d => (b &&& c) ||| (b &&& d) ||| (c &&& d))
    0x8f1bbcdc 40 (by decide) 60 rfl (fun i hle hlt => by
      refine ⟨?_, ?_⟩
      · funext b c d
        rw [Lib.Sha.f, if_neg (by omega), if_neg (by omega), if_pos (by omega)]
      · rw [Lib.Sha.k, if_neg (by omega), if_neg (by omega), if_pos (by omega)]) s
  have h₄ := @loop_round work m hwork (fun b c d => b ^^^ c ^^^ d) 0xca62c1d6 60
    (by decide) 80 rfl (fun i hle hlt => by
      refine ⟨?_, ?_⟩
      · funext b c d
        rw [Lib.Sha.f, if_neg (by omega), if_neg (by omega), if_neg (by omega)]
      · rw [Lib.Sha.k, if_neg (by omega), if_neg (by omega), if_neg (by omega)]) s
  have hrounds : ∀ hv, rounds work hv =
      (loop (round (fun b c d => (b &&& c) ||| (~~~b &&& d)) 0x5a827999 work) 0 20 hv).bind fun hv =>
        (loop (round (fun b c d => b ^^^ c ^^^ d) 0x6ed9eba1 work) 20 20 hv).bind fun hv =>
          (loop (round (fun b c d => (b &&& c) ||| (b &&& d) ||| (c &&& d)) 0x8f1bbcdc work)
            40 20 hv).bind fun hv =>
              loop (round (fun b c d => b ^^^ c ^^^ d) 0xca62c1d6 work) 60 20 hv := fun _ => rfl
  rw [Lib.Sha.steps] at h₁
  rw [hrounds, h₁, Option.bind_some, h₂, Option.bind_some, h₃, Option.bind_some, h₄]

/-! ## All of the blocks -/

/-- The words of a block, swapped, are words of the text. -/
theorem bswap32_blockWords {text : List UInt8} {n t : Nat} (ht : t < 16)
    (hlen : 64 * n + 64 ≤ text.length) :
    ∃ v, (blockWords ((text.drop (64 * n)).take 64))[t]? = some v ∧
      bswap32 v = Lib.Sha.word text (16 * n + t) := by
  refine ⟨_, blockWords_getElem? _ ht, ?_⟩
  have hbytes : (((text.drop (64 * n)).take 64).drop (4 * t)).take 4 =
      (text.drop (4 * (16 * n + t))).take 4 := by
    have hplace : 4 * (16 * n + t) = 64 * n + 4 * t := by omega
    have hmin : min 4 (64 - 4 * t) = 4 := by omega
    rw [hplace, List.drop_take, List.take_take, List.drop_drop, hmin]
  have hfour : ((text.drop (4 * (16 * n + t))).take 4).length = 4 := by
    rw [List.length_take, List.length_drop]
    omega
  rw [hbytes, bswap32_word hfour, Lib.Sha.word]

theorem words_add (h s : State) :
    (#v[(words h)[0] + (words s)[0], (words h)[1] + (words s)[1], (words h)[2] + (words s)[2],
      (words h)[3] + (words s)[3], (words h)[4] + (words s)[4]] : Vector UInt32 5) =
      words ⟨h.a + s.a, h.b + s.b, h.c + s.c, h.d + s.d, h.e + s.e⟩ := rfl

/-- **The loop over the blocks reads each of them, and nothing behind them.** -/
theorem blockLoop_spec {text tail : List UInt8} {blocks : Nat} (hlen : text.length = 64 * blocks)
    {left n fuel : Nat} (hleft : n + left = blocks) (hfuel : left < fuel) {work : List UInt32}
    (hwork : work.length = 80) :
    blockLoop (text ++ tail) text.length fuel (64 * n) work (words (Lib.Sha.chain text n)) =
      some (words (Lib.Sha.chain text blocks)) := by
  induction left generalizing n fuel work with
  | zero =>
    obtain ⟨fuel, rfl⟩ := Nat.exists_eq_add_of_lt hfuel
    obtain rfl : n = blocks := hleft
    rw [blockLoop, if_neg (by omega)]
  | succ left ih =>
    obtain ⟨fuel, rfl⟩ : ∃ f, fuel = f + 1 := ⟨fuel - 1, by omega⟩
    have hin : 64 * n + 64 ≤ text.length := by omega
    set m : Nat → UInt32 := fun i => Lib.Sha.word text (16 * n + i) with hm
    have hslice : slice ((text ++ tail).take text.length) (64 * n) 64 =
        some ((text.drop (64 * n)).take 64) := by
      rw [List.take_left]
      exact if_neg (by omega)
    obtain ⟨work₁, hput, hwork₁, helem⟩ := @Lib.put_eq _ work
      (blockWords ((text.drop (64 * n)).take 64)) 0 (by
        rw [length_blockWords]
        omega)
    have hraw : ∀ t, t < 16 → ∃ v, work₁[t]? = some v ∧ bswap32 v = m t := by
      intro t ht
      obtain ⟨v, hv, hswap⟩ := bswap32_blockWords ht hin
      refine ⟨v, ?_, hswap⟩
      rw [helem, length_blockWords, if_pos ⟨Nat.zero_le t, by omega⟩]
      exact hv
    obtain ⟨work₂, hswap, hwork₂, hwords⟩ := swapWords_spec (hwork₁.trans hwork) hraw
    obtain ⟨work₃, hextend, hwork₃, hschedule⟩ := extend_spec hwork₂ hwords
    have hrounds := rounds_spec hschedule (Lib.Sha.chain text n)
    have hnext := ih (show n + 1 + left = blocks by omega) (show left < fuel by omega) hwork₃
    have hchain : Lib.Sha.chain text (n + 1) = Lib.Sha.compress (Lib.Sha.chain text n) m := rfl
    have hbody : blockLoop (text ++ tail) text.length (fuel + 1) (64 * n) work
        (words (Lib.Sha.chain text n)) =
        (slice ((text ++ tail).take text.length) (64 * n) 64).bind fun block =>
          (put work 0 (blockWords block)).bind fun work => (swapWords work).bind fun work =>
            (extend work).bind fun work =>
              (rounds work (words (Lib.Sha.chain text n))).bind fun hv =>
                blockLoop (text ++ tail) text.length fuel (64 * n + 64) work
                  #v[(words (Lib.Sha.chain text n))[0] + hv[0],
                    (words (Lib.Sha.chain text n))[1] + hv[1],
                    (words (Lib.Sha.chain text n))[2] + hv[2],
                    (words (Lib.Sha.chain text n))[3] + hv[3],
                    (words (Lib.Sha.chain text n))[4] + hv[4]] := by
      rw [blockLoop, if_pos (by omega)]
      rfl
    rw [hbody, hslice, Option.bind_some, hput, Option.bind_some, hswap, Option.bind_some, hextend,
      Option.bind_some, hrounds, Option.bind_some, words_add]
    rw [hchain, Lib.Sha.compress] at hnext
    exact hnext

/-- **The hash is the digest**, for every message, and whatever the memory held.  The buffer holds
the padded message, and what is behind it is as it was. -/
theorem internalSha0_eq (memory : Memory) {data : List UInt8} (h : data.length < 2 ^ 61) :
    (∃ hash, internalSha0 memory data = some hash ∧ hash.bytes = digest data) ∧
      preprocess memory data = some (padded data ++
        ((List.range (bufferLength (bufSize (UInt64.ofNat data.length)))).map memory.buffer).drop
          (padded data).length) := by
  refine ⟨?_, preprocess_eq memory h⟩
  obtain ⟨hblocks, -⟩ := Lib.Sha.length_padded_blocks data
  have hend : (bufSize (UInt64.ofNat data.length)).toNat = (padded data).length := by
    rw [toNat_bufSize h, Lib.Sha.length_padded]
  have hlen : (padded data).length = 64 * ((padded data).length / 64) := by omega
  have hwork : ((List.range 80).map memory.work).length = 80 := by
    rw [List.length_map, List.length_range]
  have hloop := @blockLoop_spec (padded data)
    (((List.range (bufferLength (bufSize (UInt64.ofNat data.length)))).map memory.buffer).drop
      (padded data).length) _ hlen _ 0 ((padded data).length + 1) (Nat.zero_add _) (by omega) _ hwork
  set s := Lib.Sha.chain (padded data) ((padded data).length / 64) with hs
  refine ⟨⟨(words s).map bswap32⟩, ?_, ?_⟩
  · rw [internalSha0]
    show (preprocess memory data).bind (fun buffer => Option.bind (blockLoop buffer
      (bufSize (UInt64.ofNat data.length)).toNat
      ((bufSize (UInt64.ofNat data.length)).toNat + 1) (64 * 0) ((List.range 80).map memory.work)
      (words (Lib.Sha.chain (padded data) 0))) fun hash => some (⟨hash.map bswap32⟩ : ShaHash)) = _
    rw [preprocess_eq memory h, Option.bind_some, hend, hloop, Option.bind_some]
  · have hbytes : ∀ x : UInt32, Streams.writeU32 (bswap32 x) = Lib.Sha.wordBytes x := word_reverse
    have hlist : (words s).toList = [s.a, s.b, s.c, s.d, s.e] := rfl
    rw [bytes, Vector.toList_map, hlist, List.map_cons, List.map_cons, List.map_cons, List.map_cons,
      List.map_cons, List.map_nil]
    simp only [List.flatMap_cons, List.flatMap_nil, List.append_nil, hbytes]
    rfl

/-- A message of `Test_ShaHash.cpp`. -/
theorem internalSha0_abc : ∃ hash, internalSha0 ⟨fun _ => 7, fun _ => 9⟩ [97, 98, 99] = some hash ∧
    hash.bytes = digest [97, 98, 99] :=
  (internalSha0_eq ⟨fun _ => 7, fun _ => 9⟩ (show [97, 98, 99].length < 2 ^ 61 by decide)).1

example : (internalSha0 ⟨fun _ => 7, fun _ => 9⟩ [97, 98, 99]).map bytes =
    some [0x01, 0x64, 0xb8, 0xa9, 0x14, 0xcd, 0x2a, 0x5e, 0x74, 0xc4, 0xf7, 0xff, 0x08, 0x2c,
      0x4d, 0x97, 0xf1, 0xed, 0xf8, 0x80] := by
  decide +kernel

end Dirtsand.ShaHash
