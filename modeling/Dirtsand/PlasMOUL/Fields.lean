import Dirtsand.AuthServ.VaultCodec
import Dirtsand.Lib.Codec
import Dirtsand.PlasMOUL.CreatableList
import Dirtsand.PlasMOUL.Key
import Dirtsand.PlasMOUL.NetMsgStream
import Dirtsand.Streams.Strings
import Dirtsand.Types.BitVector
import Dirtsand.Types.Values

/-!
# Fields of messages

The codecs of what messages are made of: `read<T>` and `write<T>` (streams.h) for
numbers, the three kinds of strings, keys, times, vectors, matrices, bit vectors
and streams inside of a stream.

A bit vector and an array are what the memory held where the bytes end too early.
`Memory` has what is in the memory, by what is left on the stream at that point.

* `utf8`, `utf16` — safe strings that were read come back if they are short: a
  string that was not well formed may have grown.
* `bits` — every bit vector that was read is written as it was, whatever it is.
-/

namespace Dirtsand.MOUL

open Lib (Codec)
open Lib.Reader (Reads Yields)
open Streams
open Strings

structure Memory where
  words : List UInt8 → Nat → UInt32
  bytes : List UInt8 → Nat → UInt8
  stream : List UInt8 → NetMsgStream.Memory
  list : List UInt8 → CreatableList.Memory
  /-- The variable `zBufSz` of `CreatableList::write`. -/
  zBufSz : UInt64

instance : Inhabited Memory := ⟨⟨fun _ _ => 0, fun _ _ => 0, fun _ => default, fun _ => default, 0⟩⟩

abbrev Field (α : Type) := Codec Memory StreamError α

/-! ## Numbers -/

abbrev u8 : Field UInt8 := .of readU8 writeU8 reads_u8

abbrev u16 : Field UInt16 := .of readU16 writeU16 reads_u16

abbrev u32 : Field UInt32 := .of readU32 writeU32 reads_u32

abbrev i32 : Field Int32 :=
  u32.iso ⟨UInt32.toInt32, Int32.toUInt32, UInt32.toUInt32_toInt32, Int32.toInt32_toUInt32⟩

abbrev float : Field FloatBits := u32

abbrev double : Field DoubleBits := .of readU64 writeU64 reads_u64

abbrev bool : Field Bool := .of readBool writeBool reads_bool

/-- `read<bool, uint32_t>`. -/
def readBool32 : Read Bool := do
  let v ← readU32
  pure (decide (v ≠ 0))

/-- `write<bool, uint32_t>`. -/
def writeBool32 (b : Bool) : List UInt8 := writeU32 (if b then 1 else 0)

theorem reads_bool32 (b : Bool) : Reads readBool32 (writeBool32 b) b := by
  refine (reads_u32 _).andThen ?_
  cases b
  · exact .pure false
  · exact .pure true

abbrev bool32 : Field Bool := .of readBool32 writeBool32 reads_bool32

/-- The number of members of a `std::vector`, in so many bytes. -/
abbrev length (width : Nat) : Field Nat := .count .eof width

/-! ## Values -/

abbrev vector3 : Field Vector3 := .of Vector3.read Vector3.write Vector3.reads

abbrev time : Field UnifiedTime := .of UnifiedTime.read UnifiedTime.write UnifiedTime.reads

/-- `Uuid::read` leaves what it has no bytes for as it was, null. -/
abbrev uuid : Field Uuid := .of (Vault.readUuid Uuid.null) Vault.writeUuid (Vault.reads_uuid _)

/-- `DS::ColorRgba`, in the order of its members. -/
abbrev color : Field ColorRgba := .of ColorRgba.readRgba ColorRgba.writeRgba ColorRgba.reads_rgba

abbrev Row := FloatBits × FloatBits × FloatBits × FloatBits

/-- `DS::Matrix44`, null where it is the identity. -/
abbrev Matrix44 := Option (Row × Row × Row × Row)

abbrev row : Field Row := float.seq <| float.seq <| float.seq float

abbrev matrix44 : Field Matrix44 := .optional bool <| row.seq <| row.seq <| row.seq row

abbrev location : Field Location := .of Location.read Location.write Location.reads

abbrev uoid : Field Uoid :=
  .only Uoid.read Uoid.write (fun u => Safe u.name) (fun _ h => Uoid.reads h) Uoid.yields_read

/-- `MOUL::Key`, null or with its data. -/
abbrev Key := Option Uoid

abbrev key : Field Key := .optional bool uoid

/-! ## Strings -/

/-- A safe string without an argument. -/
abbrev text : Field String :=
  .only Streams.readSafeString Streams.writeSafeString Safe (fun _ h => reads_safeString h)
    yields_readSafeString

/-- The strings that `PString`s of 16 bits have room for. -/
structure Latin (s : String) : Prop where
  chars : ∀ c ∈ s.toList, c.toNat < 256
  short : s.toList.length < 2 ^ 16

theorem latin_fromLatin1 {bytes : List UInt8} (h : bytes.length < 2 ^ 16) :
    Latin (fromLatin1 bytes) := by
  refine ⟨fromLatin1_latin bytes, ?_⟩
  rw [fromLatin1, String.toList_ofList, List.length_map]
  exact h

section

variable (D : Decoders)

theorem yields_readPString (format : StringType) : Yields (readPString D 2 format) Latin := by
  have hnat : Yields (Lib.Reader.nat StreamError.eof 2) fun n => n < 2 ^ 16 := by
    refine (Lib.Reader.yields_take _ 2).bind fun bytes hbytes => .pure ?_
    have hlt := Lib.Reader.leValue_lt bytes
    rwa [hbytes] at hlt
  refine hnat.bind fun n hn => (Lib.Reader.yields_take _ n).bind fun bytes hbytes => .pure ?_
  exact latin_fromLatin1 (hbytes.symm ▸ hn)

theorem reads_pstring {s : String} (h : Latin s) :
    Reads (readPString D 2 .raw8) (writePString 2 s .raw8) s := by
  have hfits : size .raw8 s < 256 ^ 2 := by
    show (toLatin1 s).length < 256 ^ 2
    rw [toLatin1, List.length_map]
    exact h.short
  exact (pstring_round_trips D hfits).2 h.chars

/-- `readPString<uint16_t>()`. -/
abbrev pstring : Field String :=
  .only (readPString D 2 .raw8) (writePString 2 · .raw8) Latin (fun _ => reads_pstring D)
    (yields_readPString D .raw8)

/-- `readPString<uint16_t>(DS::e_StringUTF8)`, which reads Latin-1. -/
def pstringUtf8 : Field String where
  read _ := readPString D 2 .utf8
  write _ s := .ok (writePString 2 s .utf8)
  Kept s := (∀ c ∈ s.toList, c.toNat < 128) ∧ s.toList.length < 2 ^ 16
  Came := Latin
  back _ s h := by
    have hfits : size .utf8 s < 256 ^ 2 := by
      show (toUtf8 s).length < 256 ^ 2
      rw [toUtf8_ascii h.1, toLatin1, List.length_map]
      exact h.2
    exact ⟨_, rfl, fun _ => (pstring_round_trips D hfits).2 h.1⟩
  came _ := yields_readPString D .utf8

/-- What is decoded of units without a first top bit is encoded without one. -/
theorem head_decoded {υ : Type} {high : υ → Bool} {flip : υ → υ} {units : Char → List υ}
    {decode : List υ → List Char} (h : Units high flip units decode) {us : List υ}
    (hlow : us.head?.any high = false) : ((decode us).flatMap units).head?.any high = false := by
  cases us with
  | nil =>
    rw [h.decodes.nil]
    rfl
  | cons u us =>
    obtain ⟨c, hc⟩ := h.low u hlow
    have hwhole := h.decodes.whole c us
    rw [hc, List.singleton_append] at hwhole
    rw [hwhole, List.flatMap_cons, hc]
    exact hlow

theorem head_unmask {υ : Type} {high : υ → Bool} {flip : υ → υ}
    (hflip : ∀ u, high (flip u) = !high u) (us : List υ) :
    (unmask high flip us).head?.any high = false := by
  rw [unmask]
  split
  · rename_i hhigh
    cases us with
    | nil => rfl
    | cons u us =>
      have hu : high u = true := hhigh
      show high (flip u) = false
      rw [hflip, hu]
      rfl
  · rename_i hlow
    exact Bool.not_eq_true _ ▸ hlow

/-- The reader of bytes inverts them where `unmask` does. -/
theorem unmask_bytes (D : Decoders) (format : StringType) (us : List UInt8) :
    (if us.headD 0 &&& 0x80 ≠ 0 then pure (D.fromBytes format (us.map (~~~ ·)))
      else pure (D.fromBytes format us) : Read String) =
    pure (D.fromBytes format (unmask highByte (~~~ ·) us)) := by
  rw [unmask, headD_high highByte (by decide)]
  by_cases hhead : highByte (us.headD 0) = true
  · rw [if_pos ((highByte_iff _).2 hhead), if_pos hhead]
  · rw [if_neg (mt (highByte_iff _).1 hhead), if_neg hhead]

theorem unmask_units (D : Decoders) (us : List UInt16) :
    (if us.headD 0 &&& 0x8000 ≠ 0 then pure (D.fromUtf16 (us.map (~~~ ·)))
      else pure (D.fromUtf16 us) : Read String) =
    pure (D.fromUtf16 (unmask highUnit (~~~ ·) us)) := by
  have hhead : us.head?.any highUnit = highUnit (us.headD 0) := by
    cases us with
    | nil => rfl
    | cons u us => rfl
  rw [unmask, hhead]
  by_cases hhigh : highUnit (us.headD 0) = true
  · rw [if_pos ((highUnit_iff _).2 hhigh), if_pos hhigh]
  · rw [if_neg (mt (highUnit_iff _).1 hhigh), if_neg hhigh]

/-- **Every safe string that was read starts without the top bit**, also where it was not well
formed. -/
theorem yields_topBit : ∀ format, format ≠ .raw8 →
    Yields (readSafeString D format) fun s => topBit format s = false
  | .utf8, _ => by
    have hresult : ∀ length : UInt16, Yields (do
        let length := length &&& 0x0FFF
        let result ← Lib.Reader.take StreamError.eof length.toNat
        if result.headD 0 &&& 0x80 ≠ 0 then pure (D.fromBytes .utf8 (result.map (~~~ ·)))
        else pure (D.fromBytes .utf8 result)) fun s => topBit .utf8 s = false := by
      intro length
      refine (Yields.any _).bind fun result _ => ?_
      rw [unmask_bytes]
      refine .pure ?_
      show (toUtf8 (String.ofList _)).head?.any highByte = false
      rw [toUtf8, String.toList_ofList]
      exact head_decoded (units_utf8 D) (head_unmask highByte_not result)
    refine (Yields.any _).bind fun length _ => ?_
    by_cases hlong : length &&& 0xF000 = 0
    · rw [if_pos hlong]
      exact (Yields.any _).bind fun _ _ => hresult length
    · rw [if_neg hlong]
      exact hresult length
  | .utf16, _ => by
    have hresult : ∀ length : UInt16, Yields (do
        let length := length &&& 0x0FFF
        let result ← readUnits length.toNat
        let _ ← readU16
        if result.headD 0 &&& 0x8000 ≠ 0 then pure (D.fromUtf16 (result.map (~~~ ·)))
        else pure (D.fromUtf16 result)) fun s => topBit .utf16 s = false := by
      intro length
      refine (Yields.any _).bind fun result _ => (Yields.any _).bind fun _ _ => ?_
      rw [unmask_units]
      refine .pure ?_
      show (Vault.toUtf16 (String.ofList _)).head?.any highUnit = false
      rw [Vault.toUtf16, String.toList_ofList]
      exact head_decoded (units_utf16 D) (head_unmask highUnit_not result)
    refine (Yields.any _).bind fun length _ => ?_
    by_cases hlong : length &&& 0xF000 = 0
    · rw [if_pos hlong]
      exact (Yields.any _).bind fun _ _ => hresult length
    · rw [if_neg hlong]
      exact hresult length
  | .raw8, h => absurd rfl h

/-- A safe string that fits into its length. -/
def Short (format : StringType) (s : String) : Prop := size format s < 4096

/-- A safe string in UTF-8 or UTF-16. -/
def safe (format : StringType) (h : format ≠ .raw8) : Field String where
  read _ := readSafeString D format
  write _ s := .ok (writeSafeString s format)
  Kept s := Short format s ∧ topBit format s = false
  Came s := topBit format s = false
  back _ s hs := ⟨_, rfl, fun _ => ((safe_round_trips D format s).2 ⟨hs.1, fun _ => hs.2⟩).1 hs.1
    fun hraw => absurd hraw h⟩
  came _ := yields_topBit D format h

abbrev utf8 : Field String := safe D .utf8 (by decide)

abbrev utf16 : Field String := safe D .utf16 (by decide)

end

/-! ## Bit vectors and arrays -/

/-- `BitVector::read`. -/
def readBits (memory : Memory) : Read BitVector := fun bytes =>
  (BitVector.read (memory.words bytes) bytes).map fun b => (b, bytes.drop (4 + 4 * b.words))

theorem reads_bits (memory : Memory) {ws : List UInt32} (h : ws.length < 2 ^ 32) :
    Reads (readBits memory) (writeU32 (UInt32.ofNat ws.length) ++ ws.flatMap writeU32)
      ⟨ws, ws.length⟩ := by
  intro rest
  have hwords : (UInt32.ofNat ws.length).toNat = ws.length := UInt32.toNat_ofNat_of_lt' h
  have hlen := BitVector.length_words ws
  have hbits : ∀ garbage : Nat → UInt32, ((List.range ws.length).map fun k =>
      BitVector.mixWord ((ws.flatMap writeU32 ++ rest).length - 4 * k)
        (BitVector.wordAt (ws.flatMap writeU32 ++ rest) k) (garbage k)) = ws := by
    intro garbage
    refine List.ext_getElem (by rw [List.length_map, List.length_range]) fun k hk hk' => ?_
    have hword : BitVector.wordAt (ws.flatMap writeU32 ++ rest) k = ws[k] := by
      rw [← BitVector.wordAt_words hk', BitVector.wordAt, BitVector.wordAt,
        List.drop_append_of_le_length (by omega),
        List.take_append_of_le_length (by rw [List.length_drop]; omega)]
    rw [List.getElem_map, List.getElem_range, BitVector.mixWord, if_pos ?_, hword]
    rw [List.length_append]
    omega
  have hread : ∀ garbage, BitVector.read garbage
      (writeU32 (UInt32.ofNat ws.length) ++ ws.flatMap writeU32 ++ rest) =
        .ok ⟨ws, ws.length⟩ := by
    intro garbage
    rw [List.append_assoc, BitVector.read, Streams.reads_u32]
    show Except.ok _ = _
    rw [hwords, hbits]
  have hdrop : (writeU32 (UInt32.ofNat ws.length) ++ ws.flatMap writeU32 ++ rest).drop
      (4 + 4 * ws.length) = rest := by
    refine List.drop_left' ?_
    rw [List.length_append, hlen, writeU32, Lib.Reader.length_leBytes]
  rw [readBits, hread]
  show Except.ok (_, List.drop (4 + 4 * ws.length) _) = _
  rw [hdrop]

/-- A vector with all of its words. -/
structure BitVector.Whole (b : BitVector) : Prop where
  all : b.bits.length = b.words
  short : b.words < 2 ^ 32

theorem yields_bits (memory : Memory) : Yields (readBits memory) BitVector.Whole := by
  intro bytes b rest h
  rw [readBits, BitVector.read] at h
  cases hwords : readU32 bytes with
  | error e =>
    rw [hwords] at h
    cases h
  | ok r =>
    rw [hwords] at h
    obtain ⟨rfl, -⟩ := Prod.mk.inj (Except.ok.inj h)
    refine ⟨?_, r.1.toNat_lt⟩
    show (List.map _ _).length = _
    rw [List.length_map, List.length_range]

/-- `BitVector`, where it has its words. -/
def bits : Field BitVector where
  read := readBits
  write _ b := match b.write with
    | some bytes => .ok bytes
    | none => .error .crash
  Kept := BitVector.Whole
  Came := BitVector.Whole
  back _ b h := by
    obtain ⟨ws, words⟩ := b
    obtain ⟨rfl, hshort⟩ : ws.length = words ∧ words < 2 ^ 32 := ⟨h.all, h.short⟩
    refine ⟨_, ?_, fun m' => reads_bits m' hshort⟩
    rw [BitVector.write, if_pos le_rfl, List.take_length]
  came := yields_bits

instance : Codec.Plain bits := ⟨fun _ h => h⟩

/-- An array of bytes behind its length, of which nobody looks at how many there are. -/
def readData (memory : Memory) : Read (List UInt8) := do
  let length ← readU16
  fun bytes => readArray (memory.bytes bytes) length.toNat bytes

def data : Field (List UInt8) where
  read := readData
  write _ bytes := .ok (writeU16 (UInt16.ofNat bytes.length) ++ bytes)
  Kept bytes := bytes.length < 2 ^ 16
  Came bytes := bytes.length < 2 ^ 16
  back _ bytes h := by
    refine ⟨_, rfl, fun m' => (reads_u16 _).bind fun rest => ?_⟩
    exact reads_array _ (UInt16.toNat_ofNat_of_lt' h).symm rest
  came m := by
    refine (Yields.any _).bind fun length _ => ?_
    intro bytes a rest h
    cases h
    rw [Lib.length_filled (List.length_take_le _ _)]
    exact length.toNat_lt

instance : Codec.Plain data := ⟨fun _ h => h⟩

/-! ## Streams in a stream -/

section

variable (Z : Zlib)

/-- A stream that zlib takes, and whose lengths fit. -/
structure Packs (x : UInt8 × List UInt8) : Prop where
  correct : Z.Correct
  fits : NetMsgStream.Fits Z ⟨x.1, x.2⟩
  two : x.1 = NetMsgStream.compressZlib → 2 ≤ x.2.length

theorem Packs.written {Z : Zlib} {x : UInt8 × List UInt8} (h : Packs Z x) :
    ∃ out, NetMsgStream.write Z ⟨x.1, x.2⟩ = .ok out := by
  rw [NetMsgStream.write]
  by_cases hzlib : x.1 = NetMsgStream.compressZlib
  · have hsize : (UInt32.ofNat x.2.length).toNat = x.2.length :=
      UInt32.toNat_ofNat_of_lt' h.fits.stream
    have hle : (2 : UInt32) ≤ UInt32.ofNat x.2.length := by
      rw [UInt32.le_iff_toNat_le, hsize]
      exact h.two hzlib
    have hzlength : (UInt32.ofNat x.2.length - 2).toNat = x.2.length - 2 := by
      rw [UInt32.toNat_sub_of_le _ _ hle, hsize]
      rfl
    have htext : (x.2.drop 2).length = x.2.length - 2 := List.length_drop
    have hbound := h.correct.bound (x.2.drop 2)
    rw [htext] at hbound
    rw [if_pos hzlib, if_neg (UInt32.not_lt.2 hle)]
    dsimp only
    rw [hzlength, List.take_of_length_le htext.le, Zlib.compress, if_pos hbound]
    exact ⟨_, rfl⟩
  · rw [if_neg hzlib]
    exact ⟨_, rfl⟩

def readStream (memory : Memory) : Read (UInt8 × List UInt8) := fun bytes => (do
  match ← NetMsgStream.read Z (memory.stream bytes) with
  | some s => pure (s.compression, s.stream)
  | none => Lib.Reader.fail .crash) bytes

/-- `NetMsgStream`, with its compression. -/
def stream : Field (UInt8 × List UInt8) where
  read := readStream Z
  write _ x := NetMsgStream.write Z ⟨x.1, x.2⟩
  Kept := Packs Z
  Came x := x.2.length < 2 ^ 32
  back _ x h := by
    obtain ⟨out, hout⟩ := h.written
    refine ⟨out, hout, fun m' rest => ?_⟩
    have hreads := NetMsgStream.reads_written h.correct hout h.fits (m'.stream (out ++ rest))
    exact (hreads.andThen (.pure x)) rest
  came m := by
    intro bytes x rest h
    obtain ⟨r, mid, hr, hx⟩ := Lib.Reader.bind_eq_ok.1 h
    cases r with
    | none => cases hx
    | some s =>
      cases hx
      exact NetMsgStream.yields_read _ bytes _ _ hr s rfl

end

end Dirtsand.MOUL
