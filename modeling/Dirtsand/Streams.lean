import Dirtsand.Lib.Reader

/-!
# Streams

`DS::Stream` on a blob (streams.h, streams.cpp).  What reads is a reader of the
bytes that are left, what writes is the bytes it puts.

* `reads_safeString` — a safe string is read as it was written, if it is `Safe`.
* `yields_readSafeString` — every safe string that was read is.
-/

namespace Dirtsand

/-- How reading ends other than with a value: `DS::EofException`,
`DS::MalformedData`, `ST::unicode_error`, `MOUL::FactoryException`, or the end of
the process (an assertion that fails, or a stack that overflows). -/
inductive StreamError where
  | eof
  | malformedData
  | unicode
  | factory
  | crash
deriving DecidableEq, Repr

abbrev Read (α : Type) := Lib.Reader StreamError α

open Lib.Reader (Reads Throws Yields leBytes)

namespace Streams

/-! ## Numbers -/

def readU8 : Read UInt8 := do
  let v ← Lib.Reader.nat .eof 1
  pure (UInt8.ofNat v)

def readU16 : Read UInt16 := do
  let v ← Lib.Reader.nat .eof 2
  pure (UInt16.ofNat v)

def readU32 : Read UInt32 := do
  let v ← Lib.Reader.nat .eof 4
  pure (UInt32.ofNat v)

def readU64 : Read UInt64 := do
  let v ← Lib.Reader.nat .eof 8
  pure (UInt64.ofNat v)

def writeU8 (v : UInt8) : List UInt8 := leBytes 1 v.toNat

def writeU16 (v : UInt16) : List UInt8 := leBytes 2 v.toNat

def writeU32 (v : UInt32) : List UInt8 := leBytes 4 v.toNat

def writeU64 (v : UInt64) : List UInt8 := leBytes 8 v.toNat

/-- `read<int16_t>`. -/
def readInt16 : Read Int := do
  let v ← readU16
  pure v.toInt16.toInt

/-- `write<int16_t>` of an `int`. -/
def writeInt16 (v : Int) : List UInt8 := writeU16 (Int16.ofInt v).toUInt16

/-- What is left of an `int` in 16 bits. -/
def wrap16 (v : Int) : Int := (Int16.ofInt v).toInt

def readBool : Read Bool := do
  let v ← readU8
  pure (decide (v ≠ 0))

def writeBool (b : Bool) : List UInt8 := writeU8 (if b then 1 else 0)

theorem reads_u8 (v : UInt8) : Reads readU8 (writeU8 v) v := by
  refine (Lib.Reader.reads_nat StreamError.eof v.toNat_lt).andThen ?_
  rw [UInt8.ofNat_toNat]
  exact .pure v

theorem reads_u16 (v : UInt16) : Reads readU16 (writeU16 v) v := by
  refine (Lib.Reader.reads_nat StreamError.eof v.toNat_lt).andThen ?_
  rw [UInt16.ofNat_toNat]
  exact .pure v

theorem reads_u32 (v : UInt32) : Reads readU32 (writeU32 v) v := by
  refine (Lib.Reader.reads_nat StreamError.eof v.toNat_lt).andThen ?_
  rw [UInt32.ofNat_toNat]
  exact .pure v

theorem reads_u64 (v : UInt64) : Reads readU64 (writeU64 v) v := by
  refine (Lib.Reader.reads_nat StreamError.eof v.toNat_lt).andThen ?_
  rw [UInt64.ofNat_toNat]
  exact .pure v

theorem reads_int16 (v : Int) : Reads readInt16 (writeInt16 v) (wrap16 v) := by
  refine (reads_u16 _).andThen ?_
  rw [Int16.toInt16_toUInt16]
  exact .pure _

theorem reads_bool (b : Bool) : Reads readBool (writeBool b) b := by
  refine (reads_u8 _).andThen ?_
  cases b
  · exact .pure false
  · exact .pure true

/-- A reader that does what is defined, or fails. -/
abbrev Tame {α : Type} (r : Read α) : Prop := Throws r (· ≠ .crash)

theorem tame_u8 : Tame readU8 :=
  (Lib.Reader.throws_nat (by decide) 1).bind fun _ => .pure _

theorem tame_u32 : Tame readU32 :=
  (Lib.Reader.throws_nat (by decide) 4).bind fun _ => .pure _

/-! ## Safe strings -/

/-- `ST::string::from_latin_1`. -/
def fromLatin1 (bytes : List UInt8) : String :=
  String.ofList (bytes.map fun b => Char.ofNat b.toNat)

/-- `ST::string::to_latin_1`, with a question mark for what is not Latin-1. -/
def toLatin1 (s : String) : List UInt8 :=
  s.toList.map fun c => if c.toNat < 256 then UInt8.ofNat c.toNat else 63

/-- `DS::Stream::readSafeString`. -/
def readSafeString : Read String := do
  let length ← readU16
  if length &&& 0xF000 = 0 then
    let _ ← readU16
  let length := length &&& 0x0FFF
  let result ← Lib.Reader.take .eof length.toNat
  if result.headD 0 &&& 0x80 ≠ 0 then pure (fromLatin1 (result.map (~~~ ·)))
  else pure (fromLatin1 result)

/-- `DS::Stream::writeSafeString`. -/
def writeSafeString (value : String) : List UInt8 :=
  let buffer := toLatin1 value
  let length := UInt16.ofNat buffer.length &&& 0x0FFF
  writeU16 (length ||| 0xF000) ++ (buffer.take length.toNat).map (~~~ ·)

/-- What `readSafeString` can return: Latin-1 that starts in ASCII. -/
structure Safe (s : String) : Prop where
  short : s.toList.length < 4096
  latin : ∀ c ∈ s.toList, c.toNat < 256
  ascii : ∀ c ∈ s.toList.head?, c.toNat < 128

theorem forall_byte {P : UInt8 → Prop} (h : ∀ n < 256, P (UInt8.ofNat n)) (b : UInt8) : P b := by
  have hb := h b.toNat b.toNat_lt
  rwa [UInt8.ofNat_toNat] at hb

theorem highBit_iff (b : UInt8) : b &&& 0x80 ≠ 0 ↔ 128 ≤ b.toNat := by
  revert b
  refine forall_byte ?_
  decide +kernel

theorem toNat_complement (b : UInt8) : (~~~b).toNat = 255 - b.toNat := by
  revert b
  refine forall_byte ?_
  decide +kernel

theorem toNat_latin1 (b : UInt8) : (Char.ofNat b.toNat).toNat = b.toNat := by
  revert b
  refine forall_byte ?_
  decide +kernel

theorem toLatin1_fromLatin1 (bytes : List UInt8) : toLatin1 (fromLatin1 bytes) = bytes := by
  rw [toLatin1, fromLatin1, String.toList_ofList, List.map_map]
  refine List.map_id'' (fun b => ?_) bytes
  show (if (Char.ofNat b.toNat).toNat < 256 then UInt8.ofNat (Char.ofNat b.toNat).toNat else 63) = b
  rw [toNat_latin1, if_pos b.toNat_lt, UInt8.ofNat_toNat]

theorem fromLatin1_toLatin1 {s : String} (h : ∀ c ∈ s.toList, c.toNat < 256) :
    fromLatin1 (toLatin1 s) = s := by
  rw [fromLatin1, toLatin1, List.map_map]
  have hid : s.toList.map ((fun b => Char.ofNat b.toNat) ∘
      fun c => if c.toNat < 256 then UInt8.ofNat c.toNat else 63) = s.toList := by
    conv_rhs => rw [← List.map_id s.toList]
    refine List.map_congr_left fun c hc => ?_
    have hc' := h c hc
    rw [Function.comp, if_pos hc', UInt8.toNat_ofNat_of_lt' hc']
    exact Char.ofNat_toNat c
  rw [hid, String.ofList_toList]

theorem flags_set (v : UInt16) : (v ||| 0xF000) &&& 0xF000 = 0xF000 := by
  rw [← UInt16.toBitVec_inj]
  ext i hi
  simp only [UInt16.toBitVec_and, UInt16.toBitVec_or, BitVec.getElem_and, BitVec.getElem_or,
    Bool.and_eq_right_iff_imp, Bool.or_eq_true]
  exact fun hbit => .inr hbit

/-- The length field of `writeSafeString`, taken apart. -/
theorem safeLength {n : Nat} (hn : n < 4096) : UInt16.ofNat n &&& 0x0FFF = UInt16.ofNat n ∧
    (UInt16.ofNat n ||| 0xF000) &&& 0xF000 ≠ 0 ∧
    (UInt16.ofNat n ||| 0xF000) &&& 0x0FFF = UInt16.ofNat n := by
  have hsmall : (UInt16.ofNat n).toNat = n := UInt16.toNat_ofNat_of_lt (lt_trans hn (by decide))
  have hlow : ∀ v : UInt16, (v &&& 0x0FFF).toNat = v.toNat % 4096 :=
    fun v => Nat.and_two_pow_sub_one_eq_mod v.toNat 12
  have hhigh : (UInt16.ofNat n ||| 0xF000).toNat = 15 <<< 12 + n := by
    rw [UInt16.toNat_or, hsmall, Nat.or_comm]
    exact (Nat.shiftLeft_add_eq_or_of_lt (show n < 2 ^ 12 from hn) 15).symm
  refine ⟨?_, ?_, ?_⟩
  · rw [← UInt16.toNat_inj, hlow, hsmall]
    exact Nat.mod_eq_of_lt hn
  · rw [flags_set]
    decide
  · rw [← UInt16.toNat_inj, hlow, hhigh, hsmall]
    omega

/-- **A safe string is read as it was written.** -/
theorem reads_safeString {s : String} (h : Safe s) :
    Reads readSafeString (writeSafeString s) s := by
  have hlen : (toLatin1 s).length = s.toList.length := List.length_map _
  have hshort : (UInt16.ofNat s.toList.length).toNat = s.toList.length :=
    UInt16.toNat_ofNat_of_lt (lt_trans h.short (by decide))
  obtain ⟨hmask, hflag, hback⟩ := safeLength h.short
  have htake : (toLatin1 s).take (UInt16.ofNat s.toList.length).toNat = toLatin1 s := by
    rw [hshort, ← hlen]
    exact List.take_length
  rw [writeSafeString, hlen, hmask, htake]
  refine (reads_u16 _).bind ?_
  rw [if_neg hflag, hback]
  refine (Lib.Reader.reads_take StreamError.eof ?_).andThen ?_
  · rw [List.length_map, hlen, hshort]
  · -- The first byte is put with its high bit set, unless there is none.
    rw [List.map_map]
    cases hs : toLatin1 s with
    | nil =>
      rw [← fromLatin1_toLatin1 h.latin, hs]
      exact .pure _
    | cons b bytes =>
      have hb : b.toNat < 128 := by
        have hhead : s.toList.head? = some (Char.ofNat b.toNat) := by
          have hback := congrArg String.toList (fromLatin1_toLatin1 h.latin)
          rw [hs, fromLatin1, String.toList_ofList] at hback
          rw [← hback]
          rfl
        have hascii := h.ascii _ hhead
        rwa [toNat_latin1] at hascii
      have hset : ~~~b &&& 0x80 ≠ 0 := by
        rw [highBit_iff, toNat_complement]
        omega
      rw [List.map_cons, List.headD_cons, if_pos hset]
      have hid : (b :: bytes).map ((~~~ ·) ∘ (~~~ ·)) = b :: bytes :=
        List.map_id'' (fun v => UInt8.not_not) _
      rw [hid, ← hs, fromLatin1_toLatin1 h.latin]
      exact .pure s

/-- **Every safe string that was read is one.** -/
theorem yields_readSafeString : Yields readSafeString Safe := by
  have hsafe : ∀ bytes : List UInt8, bytes.length < 4096 → bytes.headD 0 &&& 0x80 = 0 →
      Safe (fromLatin1 bytes) := by
    intro bytes hlen hhead
    have hlist : (fromLatin1 bytes).toList = bytes.map fun b => Char.ofNat b.toNat :=
      String.toList_ofList
    refine ⟨?_, fun c hc => ?_, fun c hc => ?_⟩
    · rw [hlist, List.length_map]
      exact hlen
    · rw [hlist] at hc
      obtain ⟨b, -, rfl⟩ := List.mem_map.1 hc
      rw [toNat_latin1]
      exact b.toNat_lt
    · rw [hlist] at hc
      cases bytes with
      | nil => cases hc
      | cons b bytes =>
        obtain rfl := Option.some.inj hc
        rw [toNat_latin1]
        by_contra hhigh
        exact (highBit_iff b).2 (by omega) hhead
  have hflip : ∀ bytes : List UInt8, bytes.headD 0 &&& 0x80 ≠ 0 →
      (bytes.map (~~~ ·)).headD 0 &&& 0x80 = 0 := by
    intro bytes hhead
    cases bytes with
    | nil => exact absurd rfl hhead
    | cons b bytes =>
      by_contra hhigh
      have hb := (highBit_iff b).1 hhead
      have hb' := (highBit_iff (~~~b)).1 hhigh
      rw [toNat_complement] at hb'
      omega
  have hresult : ∀ length : UInt16, Yields (do
      let length := length &&& 0x0FFF
      let result ← Lib.Reader.take StreamError.eof length.toNat
      if result.headD 0 &&& 0x80 ≠ 0 then pure (fromLatin1 (result.map (~~~ ·)))
      else pure (fromLatin1 result)) Safe := by
    intro length
    refine (Lib.Reader.yields_take _ _).bind fun result hlen => ?_
    have hshort : result.length < 4096 := by
      rw [hlen, UInt16.toNat_and]
      exact lt_of_le_of_lt Nat.and_le_right (by decide)
    split
    · rename_i hhead
      refine .pure (hsafe _ ?_ (hflip result hhead))
      rw [List.length_map]
      exact hshort
    · rename_i hhead
      exact .pure (hsafe result hshort (not_not.1 hhead))
  refine (Yields.any _).bind fun length _ => ?_
  split
  · exact (Yields.any _).bind fun _ _ => hresult length
  · exact hresult length

end Streams

end Dirtsand
