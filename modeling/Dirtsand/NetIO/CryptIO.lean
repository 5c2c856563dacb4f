import Mathlib.Tactic

/-!
# Key establishment

`byteSwapBuffer` is the macro `BYTE_SWAP_BUFFER` and `cryptEstablish` is
`DS::CryptEstablish` (NetIO/CryptIO.cpp), with the big numbers of the C++ as
natural numbers.  The random seed, and what the stack held where `keybuf` lies,
come in as arguments.

* `byteSwapBuffer_eq` — the swap loop reverses the buffer.
* `cryptEstablish_isSome` — the size test after `BN_mod_exp` never throws.
-/

namespace Dirtsand.NetIO

/-! ## The swap loop -/

/-- `std::swap(buffer[i], buffer[j])`. -/
def swapBytes (buffer : List UInt8) (i j : Nat) : List UInt8 :=
  (buffer.set i (buffer.getD j 0)).set j (buffer.getD i 0)

/-- The first `n` rounds of `BYTE_SWAP_BUFFER(buffer, size)`. -/
def byteSwapRounds (size : Nat) (buffer : List UInt8) : Nat → List UInt8
  | 0 => buffer
  | n + 1 => swapBytes (byteSwapRounds size buffer n) n (size - 1 - n)

def byteSwapBuffer (buffer : List UInt8) (size : Nat) : List UInt8 :=
  byteSwapRounds size buffer (size / 2)

theorem length_swapBytes (buffer : List UInt8) (i j : Nat) :
    (swapBytes buffer i j).length = buffer.length := by
  simp only [swapBytes, List.length_set]

theorem length_byteSwapRounds (size : Nat) (buffer : List UInt8) (n : Nat) :
    (byteSwapRounds size buffer n).length = buffer.length := by
  induction n with
  | zero => rfl
  | succ n ih => rw [byteSwapRounds, length_swapBytes, ih]

theorem getD_swapBytes {buffer : List UInt8} {i j : Nat} (hi : i < buffer.length)
    (hj : j < buffer.length) (k : Nat) :
    (swapBytes buffer i j).getD k 0 =
      if k = j then buffer.getD i 0 else if k = i then buffer.getD j 0 else buffer.getD k 0 := by
  simp only [swapBytes, List.getD_eq_getElem?_getD, List.getElem?_set, List.length_set]
  by_cases hkj : k = j
  · subst hkj; simp [hj]
  by_cases hki : k = i
  · subst hki; simp [hkj, Ne.symm hkj, hi]
  · simp [hkj, hki, Ne.symm hkj, Ne.symm hki]

/-- After `n` rounds the outer `n` bytes on either side have changed places. -/
theorem getD_byteSwapRounds {buffer : List UInt8} {n : Nat} (hn : 2 * n ≤ buffer.length)
    {k : Nat} (hk : k < buffer.length) :
    (byteSwapRounds buffer.length buffer n).getD k 0 =
      if k < n ∨ buffer.length - n ≤ k then buffer.getD (buffer.length - 1 - k) 0
      else buffer.getD k 0 := by
  induction n generalizing k with
  | zero => simp only [byteSwapRounds]; rw [if_neg (by omega)]
  | succ n ih =>
    have hlen := length_byteSwapRounds buffer.length buffer n
    rw [byteSwapRounds, getD_swapBytes (by omega) (by omega),
      ih (by omega) (k := n) (by omega), ih (by omega) (k := buffer.length - 1 - n) (by omega),
      ih (by omega) hk, if_neg (show ¬ (n < n ∨ buffer.length - n ≤ n) by omega),
      if_neg (show ¬ (buffer.length - 1 - n < n ∨ buffer.length - n ≤ buffer.length - 1 - n)
        by omega)]
    by_cases hhigh : k = buffer.length - 1 - n
    · rw [if_pos hhigh, if_pos (by omega)]
      congr 1; omega
    by_cases hlow : k = n
    · rw [if_neg hhigh, if_pos hlow, if_pos (by omega), hlow]
    · rw [if_neg hhigh, if_neg hlow]
      have hiff : (k < n ∨ buffer.length - n ≤ k) ↔
          (k < n + 1 ∨ buffer.length - (n + 1) ≤ k) := by omega
      simp only [hiff]

/-- **The swap loop reverses the buffer.** -/
theorem byteSwapBuffer_eq (buffer : List UInt8) :
    byteSwapBuffer buffer buffer.length = buffer.reverse := by
  have hlen : (byteSwapBuffer buffer buffer.length).length = buffer.length :=
    length_byteSwapRounds _ _ _
  refine List.ext_getElem (by rw [hlen, List.length_reverse]) fun k hk hk' => ?_
  have hk'' : k < buffer.length := by rw [List.length_reverse] at hk'; exact hk'
  have h := getD_byteSwapRounds (n := buffer.length / 2) (by omega) hk''
  have hrev : (byteSwapBuffer buffer buffer.length).getD k 0 =
      buffer.getD (buffer.length - 1 - k) 0 := by
    rw [byteSwapBuffer, h]
    split
    · rfl
    · congr 1; omega
  rw [List.getElem_reverse]
  simpa [List.getD_eq_getElem?_getD, hk, show buffer.length - 1 - k < buffer.length by omega]
    using hrev

/-! ## The shared key -/

/-- `BN_bin2bn`: a big-endian number. -/
def bnBin2bn (bytes : List UInt8) : Nat :=
  bytes.foldl (fun n b => 256 * n + b.toNat) 0

/-- `BN_num_bytes`. -/
def bnNumBytes (n : Nat) : Nat :=
  if n = 0 then 0 else Nat.log 256 n + 1

/-- `BN_bn2bin`: the bytes of `n`, most significant first, without leading
zeros. -/
def bnBn2bin (n : Nat) : List UInt8 :=
  ((List.range (bnNumBytes n)).map fun i => UInt8.ofNat (n / 256 ^ i)).reverse

/-- The keys of one server: modulus and private exponent, as `DS::Settings`
reads them from the configuration.  A zero modulus is a failed `DS_ASSERT`. -/
structure CryptKey where
  N : List UInt8
  K : List UInt8
  length_N : N.length = 64
  length_K : K.length = 64
  N_pos : 0 < bnBin2bn N

/-- `DS::CryptEstablish`: the key shared with a client that sent `Y`, or `none`
where it throws `InvalidConnectionHeader`.  `stack` is what `keybuf` holds
before it is written. -/
def cryptEstablish (key : CryptKey) (seed stack Y : List UInt8) : Option (List UInt8) :=
  let bnSeed := bnBin2bn Y ^ bnBin2bn key.K % bnBin2bn key.N
  if bnNumBytes bnSeed > 64 then none else
  let keybuf := (bnBn2bin bnSeed).reverse ++ stack.drop (bnNumBytes bnSeed)
  some ((List.range 7).map fun i => keybuf.getD i 0 ^^^ seed.getD i 0)

theorem foldl_bin2bn_lt (bytes : List UInt8) : ∀ n,
    bytes.foldl (fun n b => 256 * n + b.toNat) n < 256 ^ bytes.length * (n + 1) := by
  induction bytes with
  | nil => intro n; simp
  | cons b bytes ih =>
    intro n
    have hb : b.toNat < 256 := b.toNat_lt
    calc (b :: bytes).foldl (fun n b => 256 * n + b.toNat) n
        < 256 ^ bytes.length * (256 * n + b.toNat + 1) := ih _
      _ ≤ 256 ^ bytes.length * (256 * (n + 1)) := Nat.mul_le_mul_left _ (by omega)
      _ = 256 ^ (b :: bytes).length * (n + 1) := by
        rw [List.length_cons, Nat.pow_succ, Nat.mul_assoc]

theorem bnBin2bn_lt (bytes : List UInt8) : bnBin2bn bytes < 256 ^ bytes.length := by
  simpa [bnBin2bn] using foldl_bin2bn_lt bytes 0

theorem bnNumBytes_le {n k : Nat} (h : n < 256 ^ k) : bnNumBytes n ≤ k := by
  unfold bnNumBytes
  split
  · exact Nat.zero_le k
  · rename_i h0
    exact Nat.log_lt_of_lt_pow h0 h

/-- The residue is below a modulus of 64 bytes, so it has at most 64. -/
theorem cryptEstablish_isSome (key : CryptKey) (seed stack Y : List UInt8) :
    (cryptEstablish key seed stack Y).isSome = true := by
  have hlt : bnBin2bn Y ^ bnBin2bn key.K % bnBin2bn key.N < 256 ^ 64 :=
    calc bnBin2bn Y ^ bnBin2bn key.K % bnBin2bn key.N
        < bnBin2bn key.N := Nat.mod_lt _ key.N_pos
      _ < 256 ^ key.N.length := bnBin2bn_lt key.N
      _ = 256 ^ 64 := by rw [key.length_N]
  have hle := bnNumBytes_le hlt
  simp only [cryptEstablish, if_neg (Nat.not_lt.2 hle), Option.isSome_some]

end Dirtsand.NetIO
