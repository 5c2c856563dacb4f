import Dirtsand.Streams.Zlib

/-!
# Streams inside messages

`MOUL::NetMsgStream` (NetMsgObject.cpp): a stream of bytes with its length, which
is compressed after the first two bytes if the message says so.

* `determined_iff` — where reading it ends in one way, whatever was in the memory:
  where no byte is missing, and the text that is inflated has the length that was
  declared, of at least 2.
* `reads_iff` — the streams that are read as they were written.
-/

namespace Dirtsand

open Streams (readU8 readU32 writeU8 writeU32 readArray reads_array reads_u8 reads_u32)
open Lib (filled Outcome Determined)
open Lib.Reader (Reads Yields)

structure NetMsgStream where
  compression : UInt8
  /-- The bytes in `m_stream`. -/
  stream : List UInt8
deriving DecidableEq

namespace NetMsgStream

/-- `e_CompressZlib`. -/
def compressZlib : UInt8 := 2

/-- What is in the memory of the two arrays before. -/
structure Memory where
  buffer : Nat → UInt8
  zbuf : Nat → UInt8

instance : Inhabited Memory := ⟨fun _ => 0, fun _ => 0⟩

section

variable (Z : Zlib)

/-- `uncompressedSize`, the compression, and `size`. -/
def readHeader : Read (UInt32 × UInt8 × UInt32) := do
  let uncompressedSize ← readU32
  let compression ← readU8
  let size ← readU32
  pure (uncompressedSize, compression, size)

/-- Nothing is read where bytes are put outside of `zbuf`. -/
def readBody (memory : Memory) (uncompressedSize : UInt32) (compression : UInt8) (size : UInt32) :
    Read (Option NetMsgStream) := do
  let buffer ← readArray memory.buffer size.toNat
  if compression = compressZlib then
    if size < 2 then Lib.Reader.fail .malformedData
    else
      let zlength := (uncompressedSize - 2).toNat
      if uncompressedSize.toNat < 2 + Z.uncompressWrites zlength (buffer.drop 2) then pure none
      else match Z.uncompress zlength (buffer.drop 2) with
        | none => Lib.Reader.fail .malformedData
        | some bytes =>
          pure (some ⟨compression, filled memory.zbuf uncompressedSize.toNat (buffer.take 2 ++ bytes)⟩)
  else pure (some ⟨compression, buffer⟩)

def read (memory : Memory) : Read (Option NetMsgStream) := do
  let (uncompressedSize, compression, size) ← readHeader
  readBody Z memory uncompressedSize compression size

/-- `size()` of the stream has 32 bits.  The array of `compress` is as long as it is told. -/
def write (s : NetMsgStream) : Except StreamError (List UInt8) :=
  let size := UInt32.ofNat s.stream.length
  let header := fun count => writeU32 size ++ (writeU8 s.compression ++ writeU32 count)
  if s.compression = compressZlib then
    if size < 2 then .error .malformedData
    else
      match Z.compress (Z.compressBound (size - 2).toNat)
        ((s.stream.drop 2).take (size - 2).toNat) with
      | none => .error .malformedData
      | some bytes => .ok (header (UInt32.ofNat (bytes.length + 2)) ++ (s.stream.take 2 ++ bytes))
  else .ok (header size ++ s.stream.take size.toNat)

/-- What is inflated is the same whatever is in the place of bytes that are missing, and it has the
length that was declared. -/
structure Inflates (uncompressedSize size : UInt32) (rest : List UInt8) : Prop where
  declared : 2 ≤ uncompressedSize
  inflated : ∃ answer, (∀ memory, Z.uncompress (uncompressedSize - 2).toNat
      ((filled memory size.toNat (rest.take size.toNat)).drop 2) = answer) ∧
    ∀ bytes, answer = some bytes → 2 ≤ rest.length ∧ bytes.length = (uncompressedSize - 2).toNat

/-- Bytes that have all of a stream, or that are refused. -/
def Whole (bytes : List UInt8) : Prop :=
  match readHeader bytes with
  | .error _ => True
  | .ok ((uncompressedSize, compression, size), rest) =>
    if compression = compressZlib then size < 2 ∨ Inflates Z uncompressedSize size rest
    else size.toNat ≤ rest.length

/-- The lengths fit into 32 bits. -/
structure Fits (s : NetMsgStream) : Prop where
  stream : s.stream.length < 2 ^ 32
  compressed : s.compression = compressZlib → (Z.deflate (s.stream.drop 2)).length + 2 < 2 ^ 32

end

variable {Z : Zlib}

/-! ## What is read -/

theorem tame_header : Streams.Tame readHeader :=
  Streams.tame_u32.bind fun _ => Streams.tame_u8.bind fun _ => Streams.tame_u32.bind fun _ => .pure _

theorem outcome_read {memory : Memory} {bytes rest : List UInt8} {uncompressedSize size : UInt32}
    {compression : UInt8}
    (h : readHeader bytes = .ok ((uncompressedSize, compression, size), rest)) :
    Streams.outcome (read Z memory) bytes =
      Streams.outcome (readBody Z memory uncompressedSize compression size) rest := by
  rw [Streams.outcome, read, Lib.Reader.bind_of_ok h]
  rfl

/-- How reading what follows the sizes ends. -/
theorem outcome_readBody (memory : Memory) (uncompressedSize size : UInt32) (compression : UInt8)
    (rest : List UInt8) :
    Streams.outcome (readBody Z memory uncompressedSize compression size) rest =
      if compression = compressZlib then
        if size < 2 then .threw
        else if uncompressedSize < 2 then .outside
        else match Z.uncompress (uncompressedSize - 2).toNat
            ((filled memory.buffer size.toNat (rest.take size.toNat)).drop 2) with
          | none => .threw
          | some bytes => .value (⟨compression, filled memory.zbuf uncompressedSize.toNat
              ((filled memory.buffer size.toNat (rest.take size.toNat)).take 2 ++ bytes)⟩,
              rest.drop size.toNat)
      else .value (⟨compression, filled memory.buffer size.toNat (rest.take size.toNat)⟩,
        rest.drop size.toNat) := by
  have harray : readArray memory.buffer size.toNat rest =
      .ok (filled memory.buffer size.toNat (rest.take size.toNat), rest.drop size.toNat) := rfl
  rw [Streams.outcome, readBody, Lib.Reader.bind_of_ok harray]
  generalize filled memory.buffer size.toNat (rest.take size.toNat) = buffer
  by_cases hzlib : compression = compressZlib
  · rw [if_pos hzlib, if_pos hzlib]
    by_cases hsize : size < 2
    · rw [if_pos hsize, if_pos hsize]
      rfl
    · rw [if_neg hsize, if_neg hsize]
      by_cases hdeclared : uncompressedSize < 2
      · -- two bytes are copied into less
        have hlt : uncompressedSize.toNat < 2 := UInt32.lt_iff_toNat_lt.1 hdeclared
        rw [if_pos hdeclared, if_pos (by omega)]
        rfl
      · have hle : 2 ≤ uncompressedSize.toNat := UInt32.le_iff_toNat_le.1 (UInt32.not_lt.1 hdeclared)
        have hzlength : (uncompressedSize - 2).toNat = uncompressedSize.toNat - 2 :=
          UInt32.toNat_sub_of_le _ _ (UInt32.not_lt.1 hdeclared)
        have hroom : Z.uncompressWrites (uncompressedSize - 2).toNat (buffer.drop 2) ≤
            (uncompressedSize - 2).toNat := Nat.min_le_right _ _
        rw [if_neg hdeclared, if_neg (by omega)]
        cases Z.uncompress (uncompressedSize - 2).toNat (buffer.drop 2) <;> rfl
  · rw [if_neg hzlib, if_neg hzlib]
    rfl

section Inflating

variable (Z) (uncompressedSize size : UInt32) (rest : List UInt8)

/-- The bytes that are read, with what the memory holds for those that are missing. -/
def arrayOf (memory : Nat → UInt8) : List UInt8 := filled memory size.toNat (rest.take size.toNat)

/-- What zlib makes of them. -/
def textOf (memory : Nat → UInt8) : Option (List UInt8) :=
  Z.uncompress (uncompressedSize - 2).toNat ((arrayOf size rest memory).drop 2)

/-- How reading ends, where the declared size has room for the first two bytes. -/
def inflateEnd (compression : UInt8) (memory : Memory) : Outcome (NetMsgStream × List UInt8) :=
  match textOf Z uncompressedSize size rest memory.buffer with
  | none => .threw
  | some bytes => .value (⟨compression, filled memory.zbuf uncompressedSize.toNat
      ((arrayOf size rest memory.buffer).take 2 ++ bytes)⟩, rest.drop size.toNat)

variable {Z uncompressedSize size rest} {compression : UInt8}

theorem length_arrayOf (memory : Nat → UInt8) : (arrayOf size rest memory).length = size.toNat :=
  Lib.length_filled (List.length_take_le _ _) memory

theorem inflateEnd_threw {buffer : Nat → UInt8} (zbuf : Nat → UInt8)
    (h : textOf Z uncompressedSize size rest buffer = none) :
    inflateEnd Z uncompressedSize size rest compression ⟨buffer, zbuf⟩ = .threw := by
  rw [inflateEnd, h]

theorem inflateEnd_value {buffer : Nat → UInt8} {bytes : List UInt8} (zbuf : Nat → UInt8)
    (h : textOf Z uncompressedSize size rest buffer = some bytes) :
    inflateEnd Z uncompressedSize size rest compression ⟨buffer, zbuf⟩ =
      .value (⟨compression, filled zbuf uncompressedSize.toNat
        ((arrayOf size rest buffer).take 2 ++ bytes)⟩, rest.drop size.toNat) := by
  rw [inflateEnd, h]

theorem stream_of_value {s s' : NetMsgStream} {rest rest' : List UInt8}
    (h : (.value (s, rest) : Outcome (NetMsgStream × List UInt8)) = .value (s', rest')) :
    s.stream = s'.stream :=
  congrArg stream (congrArg Prod.fst (Outcome.value.inj h))

/-- The array is set to its end, as otherwise the end would depend on the memory. -/
theorem length_text (hdeclared : 2 ≤ uncompressedSize)
    (hsame : ∀ memory memory', inflateEnd Z uncompressedSize size rest compression memory =
      inflateEnd Z uncompressedSize size rest compression memory')
    {memory : Nat → UInt8} {bytes : List UInt8}
    (htext : textOf Z uncompressedSize size rest memory = some bytes) :
    bytes.length = (uncompressedSize - 2).toNat ∧
      uncompressedSize.toNat ≤ ((arrayOf size rest memory).take 2 ++ bytes).length := by
  have hzlength : (uncompressedSize - 2).toNat = uncompressedSize.toNat - 2 :=
    UInt32.toNat_sub_of_le _ _ hdeclared
  have hroom := (Zlib.uncompress_eq_some.1 htext).2
  have hfull : uncompressedSize.toNat ≤ ((arrayOf size rest memory).take 2 ++ bytes).length := by
    refine Lib.le_of_filled (show (0 : UInt8) ≠ 1 by decide) fun zbuf zbuf' => ?_
    have h := hsame ⟨memory, zbuf⟩ ⟨memory, zbuf'⟩
    rw [inflateEnd_value zbuf htext, inflateEnd_value zbuf' htext] at h
    exact stream_of_value h
  refine ⟨?_, hfull⟩
  have hlen := hfull
  rw [List.length_append, List.length_take, length_arrayOf] at hlen
  omega

/-- Where reading ends in one way, all memories give the same text, behind the same bytes. -/
theorem text_same (hdeclared : 2 ≤ uncompressedSize)
    (hsame : ∀ memory memory', inflateEnd Z uncompressedSize size rest compression memory =
      inflateEnd Z uncompressedSize size rest compression memory') (memory memory' : Nat → UInt8) :
    textOf Z uncompressedSize size rest memory = textOf Z uncompressedSize size rest memory' ∧
      (textOf Z uncompressedSize size rest memory ≠ none →
        (arrayOf size rest memory).take 2 = (arrayOf size rest memory').take 2) := by
  have h := hsame ⟨memory, memory⟩ ⟨memory', memory'⟩
  cases htext : textOf Z uncompressedSize size rest memory with
  | none =>
    cases htext' : textOf Z uncompressedSize size rest memory' with
    | none => exact ⟨rfl, fun hne => absurd rfl hne⟩
    | some bytes' =>
      rw [inflateEnd_threw memory htext, inflateEnd_value memory' htext'] at h
      cases h
  | some bytes =>
    cases htext' : textOf Z uncompressedSize size rest memory' with
    | none =>
      rw [inflateEnd_value memory htext, inflateEnd_threw memory' htext'] at h
      cases h
    | some bytes' =>
      rw [inflateEnd_value memory htext, inflateEnd_value memory' htext'] at h
      have hstream := stream_of_value h
      dsimp only at hstream
      rw [Lib.filled_eq (length_text hdeclared hsame htext).2,
        Lib.filled_eq (length_text hdeclared hsame htext').2] at hstream
      obtain ⟨htake, hbytes⟩ := List.append_inj hstream (by
        rw [List.length_take, List.length_take, length_arrayOf, length_arrayOf])
      exact ⟨congrArg some hbytes, fun _ => htake⟩

/-- As far as the text goes that is inflated. -/
theorem determined_inflated (hsize : 2 ≤ size.toNat) (hdeclared : 2 ≤ uncompressedSize) :
    Determined (inflateEnd Z uncompressedSize size rest compression) ↔
      Inflates Z uncompressedSize size rest := by
  have htwo : 2 ≤ uncompressedSize.toNat := UInt32.le_iff_toNat_le.1 hdeclared
  have hzlength : (uncompressedSize - 2).toNat = uncompressedSize.toNat - 2 :=
    UInt32.toNat_sub_of_le _ _ hdeclared
  constructor
  · intro h
    have hboth := text_same hdeclared fun memory memory' => h.same memory memory'
    refine ⟨hdeclared, textOf Z uncompressedSize size rest fun _ => 0,
      fun memory => (hboth memory fun _ => 0).1, fun bytes hbytes => ⟨?_, ?_⟩⟩
    · -- the first two bytes are there, as they do not depend on the memory either
      have hmin := Lib.le_of_take_filled (show (0 : UInt8) ≠ 1 by decide) fun memory memory' =>
        (hboth memory memory').2 (by rw [(hboth memory fun _ => 0).1, hbytes]; nofun)
      rw [List.length_take] at hmin
      omega
    · exact (length_text hdeclared (fun memory memory' => h.same memory memory') hbytes).1
  · rintro ⟨-, answer, hanswer, hwhole⟩
    have htext : ∀ memory, textOf Z uncompressedSize size rest memory = answer := hanswer
    cases answer with
    | none => exact ⟨.threw, nofun, fun memory => inflateEnd_threw memory.zbuf (htext memory.buffer)⟩
    | some bytes =>
      obtain ⟨hrest, hlen⟩ := hwhole bytes rfl
      have hprefix : 2 ≤ (rest.take size.toNat).length := by
        rw [List.length_take]
        omega
      have hfull : uncompressedSize.toNat ≤ ((rest.take size.toNat).take 2 ++ bytes).length := by
        rw [List.length_append, List.length_take]
        omega
      refine ⟨.value (⟨compression, (rest.take size.toNat).take 2 ++ bytes⟩, rest.drop size.toNat),
        nofun, fun memory => ?_⟩
      refine (inflateEnd_value memory.zbuf (htext memory.buffer)).trans ?_
      rw [arrayOf, Lib.take_filled hprefix, Lib.filled_eq hfull]

end Inflating

/-- **Reading ends in one way exactly where the bytes have all of a stream.** -/
theorem determined_iff (bytes : List UInt8) :
    Determined (fun memory => Streams.outcome (read Z memory) bytes) ↔ Whole Z bytes := by
  rw [Whole]
  cases hheader : readHeader bytes with
  | error e =>
    have htame : e ≠ .crash := tame_header bytes e hheader
    have herror : ∀ memory, Streams.outcome (read Z memory) bytes = .threw := fun memory =>
      Streams.outcome_threw (Lib.Reader.bind_of_error hheader) htame
    rw [Determined.iff_of_const herror]
    exact ⟨fun _ => trivial, fun _ h => by cases h⟩
  | ok header =>
    obtain ⟨⟨uncompressedSize, compression, size⟩, rest⟩ := header
    simp only [outcome_read hheader, outcome_readBody]
    by_cases hzlib : compression = compressZlib
    · simp only [if_pos hzlib]
      by_cases hsize : size < 2
      · simp only [hsize, if_true, true_or, iff_true]
        exact ⟨.threw, nofun, fun _ => rfl⟩
      · simp only [hsize, if_false, false_or]
        by_cases hdeclared : uncompressedSize < 2
        · simp only [hdeclared, if_true]
          refine (Determined.iff_of_const fun _ => rfl).trans ⟨fun h => absurd rfl h, fun h => ?_⟩
          exact absurd hdeclared (UInt32.not_lt.2 h.declared)
        · simp only [hdeclared, if_false]
          exact determined_inflated (UInt32.le_iff_toNat_le.1 (UInt32.not_lt.1 hsize))
            (UInt32.not_lt.1 hdeclared)
    · simp only [if_neg hzlib]
      refine ⟨fun h => ?_, fun h => ?_⟩
      · have hfill : ∀ memory memory' : Nat → UInt8,
            filled memory size.toNat (rest.take size.toNat) =
              filled memory' size.toNat (rest.take size.toNat) := by
          intro memory memory'
          have hsame := h.same ⟨memory, memory⟩ ⟨memory', memory'⟩
          exact congrArg NetMsgStream.stream (congrArg Prod.fst (Outcome.value.inj hsame))
        have hle := Lib.le_of_filled (show (0 : UInt8) ≠ 1 by decide) hfill
        rw [List.length_take] at hle
        omega
      · have hset : size.toNat ≤ (rest.take size.toNat).length := by
          rw [List.length_take]
          omega
        refine ⟨.value (⟨compression, rest.take size.toNat⟩, rest.drop size.toNat),
          nofun, fun memory => ?_⟩
        show Outcome.value _ = _
        rw [Lib.filled_eq hset]

/-! ## What is read of what was written -/

theorem reads_header (uncompressedSize : UInt32) (compression : UInt8) (size : UInt32) :
    Reads readHeader (writeU32 uncompressedSize ++ (writeU8 compression ++ writeU32 size))
      (uncompressedSize, compression, size) :=
  (reads_u32 _).bind ((reads_u8 _).bind ((reads_u32 _).andThen (.pure _)))

/-- A stream that was read has the length that fits into its header. -/
theorem yields_read (memory : Memory) :
    Yields (read Z memory) fun r => ∀ s, r = some s → s.stream.length < 2 ^ 32 := by
  have hset : ∀ (n : Nat) (bytes : List UInt8), (bytes.take n).length ≤ n :=
    fun n bytes => List.length_take_le n bytes
  refine (Yields.any readHeader).bind fun header _ => ?_
  obtain ⟨uncompressedSize, compression, size⟩ := header
  have harray : Yields (readArray memory.buffer size.toNat) fun buffer =>
      buffer.length = size.toNat := by
    intro bytes buffer rest h
    cases h
    exact Lib.length_filled (hset _ _) _
  refine harray.bind fun buffer hbuffer => ?_
  split
  · split
    · exact .fail
    · show Yields (if _ < _ then _ else _) _
      split
      · exact .pure fun s h => by cases h
      · rename_i hsize hroom
        cases hanswer : Z.uncompress (uncompressedSize - 2).toNat (buffer.drop 2) with
        | none => exact .fail
        | some bytes =>
          refine .pure fun s h => ?_
          obtain rfl := Option.some.inj h
          obtain ⟨hinflate, hlen⟩ := Zlib.uncompress_eq_some.1 hanswer
          have hwrites : Z.uncompressWrites (uncompressedSize - 2).toNat (buffer.drop 2) =
              bytes.length := by
            rw [Zlib.uncompressWrites, hinflate]
            exact Nat.min_eq_left hlen
          rw [hwrites] at hroom
          have hfit : (buffer.take 2 ++ bytes).length ≤ uncompressedSize.toNat := by
            rw [List.length_append, List.length_take]
            omega
          show (filled memory.zbuf uncompressedSize.toNat (buffer.take 2 ++ bytes)).length < 2 ^ 32
          rw [Lib.length_filled hfit]
          exact uncompressedSize.toNat_lt
  · refine .pure fun s h => ?_
    obtain rfl := Option.some.inj h
    show buffer.length < 2 ^ 32
    rw [hbuffer]
    exact size.toNat_lt

/-- What `write` puts of a stream that it compresses. -/
theorem write_compressed (hZ : Z.Correct) {s : NetMsgStream} {out : List UInt8}
    (hzlib : s.compression = compressZlib) (hstream : s.stream.length < 2 ^ 32)
    (h : write Z s = .ok out) :
    2 ≤ s.stream.length ∧
      out = (writeU32 (UInt32.ofNat s.stream.length) ++ (writeU8 s.compression ++
        writeU32 (UInt32.ofNat ((Z.deflate (s.stream.drop 2)).length + 2)))) ++
          (s.stream.take 2 ++ Z.deflate (s.stream.drop 2)) := by
  have hsize : (UInt32.ofNat s.stream.length).toNat = s.stream.length :=
    UInt32.toNat_ofNat_of_lt' hstream
  rw [write, if_pos hzlib] at h
  by_cases hshort : UInt32.ofNat s.stream.length < 2
  · rw [if_pos hshort] at h
    cases h
  · rw [if_neg hshort] at h
    have hle := UInt32.not_lt.1 hshort
    have htwo : 2 ≤ s.stream.length := by
      rw [← hsize]
      exact UInt32.le_iff_toNat_le.1 hle
    have hzlength : (UInt32.ofNat s.stream.length - 2).toNat = s.stream.length - 2 := by
      rw [UInt32.toNat_sub_of_le _ _ hle, hsize]
      rfl
    have htext : (s.stream.drop 2).length = s.stream.length - 2 := List.length_drop
    have hall : (s.stream.drop 2).take (s.stream.length - 2) = s.stream.drop 2 :=
      List.take_of_length_le htext.le
    have hbound := hZ.bound (s.stream.drop 2)
    rw [htext] at hbound
    rw [hzlength, hall, Zlib.compress, if_pos hbound] at h
    exact ⟨htwo, (Except.ok.inj h).symm⟩

/-- What `write` puts is read again, if the lengths fit. -/
theorem reads_written (hZ : Z.Correct) {s : NetMsgStream} {out : List UInt8}
    (h : write Z s = .ok out) (hfits : Fits Z s) (memory : Memory) :
    Reads (read Z memory) out (some s) := by
  have hsize : (UInt32.ofNat s.stream.length).toNat = s.stream.length :=
    UInt32.toNat_ofNat_of_lt' hfits.stream
  by_cases hzlib : s.compression = compressZlib
  · obtain ⟨htwo, rfl⟩ := write_compressed hZ hzlib hfits.stream h
    have hzlength : (UInt32.ofNat s.stream.length - 2).toNat = s.stream.length - 2 := by
      rw [UInt32.toNat_sub_of_le _ _ (UInt32.le_iff_toNat_le.2 (by rw [hsize]; exact htwo)), hsize]
      rfl
    have htext : (s.stream.drop 2).length = s.stream.length - 2 := List.length_drop
    have htake : (s.stream.take 2).length = 2 := by
      rw [List.length_take, Nat.min_eq_left htwo]
    have hcount : (UInt32.ofNat ((Z.deflate (s.stream.drop 2)).length + 2)).toNat =
        (s.stream.take 2 ++ Z.deflate (s.stream.drop 2)).length := by
      rw [UInt32.toNat_ofNat_of_lt' (hfits.compressed hzlib), List.length_append, htake,
        Nat.add_comm]
    refine (reads_header _ _ _).bind ((reads_array memory.buffer hcount.symm).andThen ?_)
    have hdrop : (s.stream.take 2 ++ Z.deflate (s.stream.drop 2)).drop 2 =
        Z.deflate (s.stream.drop 2) := List.drop_left' htake
    have hhead : (s.stream.take 2 ++ Z.deflate (s.stream.drop 2)).take 2 = s.stream.take 2 :=
      List.take_left' htake
    have hcompressed : ¬ UInt32.ofNat ((Z.deflate (s.stream.drop 2)).length + 2) < 2 := by
      rw [UInt32.lt_iff_toNat_lt, hcount, List.length_append, htake]
      show ¬ 2 + _ < 2
      omega
    have hinflate : Z.uncompress (s.stream.length - 2) (Z.deflate (s.stream.drop 2)) =
        some (s.stream.drop 2) := Zlib.uncompress_eq_some.2 ⟨hZ.inflate _, htext.le⟩
    have hwrites : Z.uncompressWrites (s.stream.length - 2) (Z.deflate (s.stream.drop 2)) =
        s.stream.length - 2 := by
      rw [Zlib.uncompressWrites, hZ.inflate, htext, Nat.min_self]
    rw [if_pos hzlib, if_neg hcompressed]
    show Reads (if _ < _ then _ else _) _ _
    rw [hdrop, hhead, hzlength, hwrites, hsize, if_neg (by omega), hinflate]
    have hwhole : filled memory.zbuf s.stream.length (s.stream.take 2 ++ s.stream.drop 2) =
        s.stream := by
      rw [List.take_append_drop]
      exact Lib.filled_eq le_rfl memory.zbuf
    show Reads (pure (some (⟨_, filled memory.zbuf s.stream.length _⟩ : NetMsgStream))) _ _
    rw [hwhole]
    exact .pure _
  · rw [write, if_neg hzlib, hsize, List.take_length] at h
    obtain rfl := Except.ok.inj h
    refine (reads_header _ _ _).bind ((reads_array memory.buffer hsize.symm).andThen ?_)
    rw [if_neg hzlib]
    exact .pure _

/-- What is left after a stream is what follows as many bytes as its header says. -/
theorem outcome_left {memory : Memory} {uncompressedSize size : UInt32} {compression : UInt8}
    {rest left : List UInt8} {s : NetMsgStream}
    (h : Streams.outcome (readBody Z memory uncompressedSize compression size) rest =
      .value (s, left)) : left = rest.drop size.toNat := by
  rw [outcome_readBody] at h
  split at h
  · split at h
    · cases h
    · split at h
      · cases h
      · split at h
        · cases h
        · exact (congrArg Prod.snd (Outcome.value.inj h)).symm
  · exact (congrArg Prod.snd (Outcome.value.inj h)).symm

/-- **The streams that are read as they were written** are those whose lengths fit. -/
theorem reads_iff (hZ : Z.Correct) {s : NetMsgStream} {out : List UInt8}
    (h : write Z s = .ok out) :
    (∀ memory, Reads (read Z memory) out (some s)) ↔ Fits Z s := by
  refine ⟨fun hreads => ?_, fun hfits memory => reads_written hZ h hfits memory⟩
  have hback := hreads default []
  rw [List.append_nil] at hback
  have hstream : s.stream.length < 2 ^ 32 := yields_read default _ _ _ hback s rfl
  refine ⟨hstream, fun hzlib => ?_⟩
  have hvalue : Streams.outcome (read Z default) out = .value (s, []) := by
    rw [Streams.outcome, hback]
  obtain ⟨htwo, rfl⟩ := write_compressed hZ hzlib hstream h
  -- with fewer bits in the header, bytes of the stream are left
  rw [outcome_read (reads_header _ _ _ _)] at hvalue
  have hnone := List.drop_eq_nil_iff.1 (outcome_left hvalue).symm
  have htake : (s.stream.take 2).length = 2 := by
    rw [List.length_take, Nat.min_eq_left htwo]
  rw [List.length_append, htake] at hnone
  have hlt := (UInt32.ofNat ((Z.deflate (s.stream.drop 2)).length + 2)).toNat_lt
  omega

/-- **Streams are read in one way where they are whole**, and as they were written where their
lengths fit. -/
theorem streams_iff (hZ : Z.Correct) :
    (∀ bytes, Determined (fun memory => Streams.outcome (read Z memory) bytes) ↔ Whole Z bytes) ∧
      ∀ s out, write Z s = .ok out →
        ((∀ memory, Reads (read Z memory) out (some s)) ↔ Fits Z s) :=
  ⟨determined_iff, fun _ _ h => reads_iff hZ h⟩

/-- A stream of two bytes, with nothing to compress after them. -/
theorem twoBytes_read : Reads (read Zlib.stored default)
    [2, 0, 0, 0, 2, 10, 0, 0, 0, 7, 9, 0x78, 0x9C, 3, 0, 0, 0, 0, 1] (some ⟨2, [7, 9]⟩) :=
  ((streams_iff Zlib.stored_correct).2 ⟨2, [7, 9]⟩ _ rfl).2 ⟨by decide, fun _ => by decide⟩ default

/-- A byte that is missing is what was in the memory, and two bytes are put where there is no room
for any. -/
theorem missing_byte_not_determined :
    ¬ Determined (fun memory =>
      Streams.outcome (read Zlib.stored memory) [1, 0, 0, 0, 0, 1, 0, 0, 0]) ∧
    ¬ Determined (fun memory =>
      Streams.outcome (read Zlib.stored memory) [0, 0, 0, 0, 2, 2, 0, 0, 0, 7, 9]) := by
  refine ⟨fun h => ?_, fun h => ?_⟩
  · have hsame := h.same ⟨fun _ => 0, fun _ => 0⟩ ⟨fun _ => 1, fun _ => 0⟩
    exact absurd hsame (by decide)
  · exact h.inside default (by decide)

end NetMsgStream

end Dirtsand
