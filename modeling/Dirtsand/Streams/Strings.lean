import Dirtsand.Lib.Encoding
import Dirtsand.Types.Utf16

/-!
# Strings in streams

`readString`, `readSafeString`, `readPString` and their writers of `DS::Stream`
(streams.h, streams.cpp), for each `DS::StringType`.  `readSafeString` without an
argument is the one of `Streams`.

A safe string is written with all of its bits inverted, and the reader looks at the
top bit of the first unit to see whether it is.  `readPString` forgets the encoding.

* `safe_round_trips` — when a safe string is read as it was written.
* `pstring_round_trips` — when a string behind its length is.
-/

namespace Dirtsand.Strings

open Lib.Reader (Reads leBytes)
open Streams (fromLatin1 toLatin1 readU16 writeU16)
open Vault (bytesOfUnits toUtf16 unitsOfBytes utf16Units)

/-! ## Encodings -/

/-- `DS::StringType`. -/
inductive StringType where
  | raw8
  | utf8
  | utf16
deriving DecidableEq, Repr

/-- `ST::string::to_utf8`. -/
def toUtf8 (s : String) : List UInt8 := s.toList.flatMap String.utf8EncodeChar

/-- `ST::string::from_utf8` and `ST::string::from_utf16` with `ST::substitute_invalid`,
in characters. -/
structure Decoders where
  decodeUtf8 : List UInt8 → List Char
  decodeUtf16 : List UInt16 → List Char
  utf8 : Lib.Decodes String.utf8EncodeChar decodeUtf8
  utf16 : Lib.Decodes utf16Units decodeUtf16

/-- The bytes of a string that is not UTF-16. -/
def toBytes (format : StringType) (s : String) : List UInt8 :=
  if format = .utf8 then toUtf8 s else toLatin1 s

def Decoders.fromBytes (D : Decoders) (format : StringType) (bytes : List UInt8) : String :=
  if format = .utf8 then String.ofList (D.decodeUtf8 bytes) else fromLatin1 bytes

def Decoders.fromUtf16 (D : Decoders) (units : List UInt16) : String :=
  String.ofList (D.decodeUtf16 units)

/-! ## Reading and writing -/

section

variable (D : Decoders)

/-- A buffer of `char16_t`. -/
def readUnits (length : Nat) : Read (List UInt16) := do
  let bytes ← Lib.Reader.take .eof (length * 2)
  pure (unitsOfBytes bytes)

/-- `DS::Stream::readString`. -/
def readString (length : Nat) (format : StringType) : Read String := do
  if format = .utf16 then
    let result ← readUnits length
    pure (D.fromUtf16 result)
  else
    let result ← Lib.Reader.take .eof length
    pure (D.fromBytes format result)

/-- `DS::Stream::readSafeString`. -/
def readSafeString (format : StringType) : Read String := do
  let length ← readU16
  if length &&& 0xF000 = 0 then
    let _ ← readU16
  let length := length &&& 0x0FFF
  if format = .utf16 then
    let result ← readUnits length.toNat
    let _ ← readU16
    if result.headD 0 &&& 0x8000 ≠ 0 then pure (D.fromUtf16 (result.map (~~~ ·)))
    else pure (D.fromUtf16 result)
  else
    let result ← Lib.Reader.take .eof length.toNat
    if result.headD 0 &&& 0x80 ≠ 0 then pure (D.fromBytes format (result.map (~~~ ·)))
    else pure (D.fromBytes format result)

/-- `DS::Stream::writeSafeString`. -/
def writeSafeString (value : String) (format : StringType) : List UInt8 :=
  if format = .utf16 then
    let buffer := toUtf16 value
    let length := UInt16.ofNat buffer.length &&& 0x0FFF
    writeU16 (length ||| 0xF000) ++
      (bytesOfUnits ((buffer.take length.toNat).map (~~~ ·)) ++ writeU16 0)
  else
    let buffer := toBytes format value
    let length := UInt16.ofNat buffer.length &&& 0x0FFF
    writeU16 (length ||| 0xF000) ++ (buffer.take length.toNat).map (~~~ ·)

/-- `DS::Stream::readPString`, for a length of so many bytes.  The format is not
handed on. -/
def readPString (width : Nat) (_format : StringType) : Read String := do
  let length ← Lib.Reader.nat .eof width
  readString D length .raw8

/-- `DS::Stream::writePString`. -/
def writePString (width : Nat) (value : String) (format : StringType) : List UInt8 :=
  if format = .utf16 then
    let buffer := toUtf16 value
    leBytes width buffer.length ++ bytesOfUnits buffer
  else
    let buffer := toBytes format value
    leBytes width buffer.length ++ buffer

end

/-! ## Units -/

/-- The number of units of a string. -/
def size (format : StringType) (s : String) : Nat :=
  if format = .utf16 then (toUtf16 s).length else (toBytes format s).length

/-- A string that the encoding has: Latin-1 does not have all. -/
def Representable (format : StringType) (s : String) : Prop :=
  format = .raw8 → ∀ c ∈ s.toList, c.toNat < 256

/-- The top bit of the first unit is set. -/
def topBit (format : StringType) (s : String) : Bool :=
  if format = .utf16 then (toUtf16 s).head?.any fun u => 0x8000 ≤ u.toNat
  else (toBytes format s).head?.any fun b => 128 ≤ b.toNat

/-! ## Inverted units -/

section Inverted

variable {υ : Type} (high : υ → Bool) (flip : υ → υ)

/-- What the reader makes of units: it inverts them if the top bit of the first is set. -/
def unmask (us : List υ) : List υ := if us.head?.any high then us.map flip else us

/-- What is known of the units of an encoding. -/
structure Units (units : Char → List υ) (decode : List υ → List Char) : Prop where
  decodes : Lib.Decodes units decode
  width : ∀ c, (units c).length ≤ 4
  flip_flip : ∀ u, flip (flip u) = u
  high_flip : ∀ u, high (flip u) = !high u
  /-- A unit without the top bit is a character of its own. -/
  low : ∀ u, high u = false → ∃ c, units c = [u]

variable {high flip}

theorem unmask_low (hflip : ∀ u, flip (flip u) = u) (hhigh : ∀ u, high (flip u) = !high u)
    {us : List υ} (h : us.head?.any high = false) : unmask high flip (us.map flip) = us := by
  cases us with
  | nil => rfl
  | cons u us =>
    have hu : high (flip u) = true := by
      rw [hhigh]
      simpa using h
    rw [unmask, if_pos (by simpa using hu), List.map_map]
    exact List.map_id'' hflip _

theorem unmask_high (hhigh : ∀ u, high (flip u) = !high u) {us : List υ}
    (h : us.head?.any high = true) : unmask high flip (us.map flip) = us.map flip := by
  cases us with
  | nil => rfl
  | cons u us =>
    have hu : high u = true := by simpa using h
    rw [unmask, if_neg]
    simp [hhigh, hu]

/-- **A text comes back from its inverted units, cut to 12 bits of their number, exactly if there
are no more and the first has not the top bit.** -/
theorem Units.back_iff {units : Char → List υ} {decode : List υ → List Char}
    (h : Units high flip units decode) (cs : List Char) :
    decode (unmask high flip (((cs.flatMap units).take ((cs.flatMap units).length % 4096)).map flip)) =
        cs ↔ (cs.flatMap units).length < 4096 ∧ (cs.flatMap units).head?.any high = false := by
  constructor
  · intro hback
    have hlow : (cs.flatMap units).head?.any high = false := by
      by_contra hhigh
      rw [Bool.not_eq_false] at hhigh
      cases hus : cs.flatMap units with
      | nil => simp [hus] at hhigh
      | cons u us =>
        have hu : high u = true := by simpa [hus] using hhigh
        rw [hus] at hback
        cases hk : (u :: us).length % 4096 with
        | zero =>
          rw [hk] at hback
          have hcs : cs = [] := by
            rw [← hback]
            exact h.decodes.nil
          simp [hcs] at hus
        | succ k =>
          -- The first unit is read inverted, as another character.
          have hfirst : ((u :: us).take (k + 1)).head?.any high = true := by simpa using hu
          rw [hk, unmask_high h.high_flip hfirst, List.take_succ_cons, List.map_cons] at hback
          obtain ⟨c, hc⟩ := h.low (flip u) (by rw [h.high_flip, hu]; rfl)
          obtain ⟨cs', rfl⟩ := h.decodes.first_unit hc hback
          rw [List.flatMap_cons, hc, List.singleton_append, List.cons.injEq] at hus
          have hflip := h.high_flip u
          rw [hus.1, hu] at hflip
          exact absurd hflip (by decide)
    refine ⟨?_, hlow⟩
    by_contra hlong
    have hfew := Nat.mod_lt (cs.flatMap units).length (show 0 < 4096 by omega)
    have hmod := Nat.div_add_mod (cs.flatMap units).length 4096
    have hlow' : ((cs.flatMap units).take ((cs.flatMap units).length % 4096)).head?.any high = false := by
      rw [List.head?_take]
      split
      · rfl
      · exact hlow
    rw [unmask_low h.flip_flip h.high_flip hlow'] at hback
    exact h.decodes.cut_ne (by omega) h.width (by omega) hback
  · rintro ⟨hshort, hlow⟩
    rw [Nat.mod_eq_of_lt hshort, List.take_length, unmask_low h.flip_flip h.high_flip hlow]
    exact h.decodes.encode cs

end Inverted

def highByte (b : UInt8) : Bool := 128 ≤ b.toNat

def highUnit (u : UInt16) : Bool := 0x8000 ≤ u.toNat

theorem highByte_iff (b : UInt8) : b &&& 0x80 ≠ 0 ↔ highByte b = true := by
  rw [Streams.highBit_iff, highByte, decide_eq_true_iff]

theorem highUnit_iff (u : UInt16) : u &&& 0x8000 ≠ 0 ↔ highUnit u = true := by
  have hand : (u &&& 0x8000).toNat = (u.toNat.testBit 15).toNat * 2 ^ 15 := by
    rw [UInt16.toNat_and]
    exact Nat.and_two_pow _ 15
  have hu := u.toNat_lt
  have hbit : u.toNat.testBit 15 = decide (0x8000 ≤ u.toNat) := by
    rw [Nat.testBit_eq_decide_div_mod_eq, decide_eq_decide]
    omega
  rw [ne_eq, ← UInt16.toNat_inj, hand, hbit, highUnit, decide_eq_true_iff]
  by_cases h : 0x8000 ≤ u.toNat
  · simp [h]
  · simp [h]

theorem highByte_not (b : UInt8) : highByte (~~~b) = !highByte b := by
  have hb := b.toNat_lt
  rw [highByte, highByte, Streams.toNat_complement, ← decide_not, decide_eq_decide]
  omega

theorem highUnit_not (u : UInt16) : highUnit (~~~u) = !highUnit u := by
  have hu := u.toNat_lt
  have hnot : (~~~u).toNat = 65535 - u.toNat := by
    rw [UInt16.toNat_not]
    rfl
  rw [highUnit, highUnit, hnot, ← decide_not, decide_eq_decide]
  omega

theorem utf8_low {n : Nat} (h : n < 128) :
    String.utf8EncodeChar (Char.ofNat n) = [UInt8.ofNat n] := by
  revert n
  decide

theorem units_utf8 (D : Decoders) :
    Units highByte (~~~ ·) String.utf8EncodeChar D.decodeUtf8 where
  decodes := D.utf8
  width c := by
    rw [String.length_utf8EncodeChar]
    exact c.utf8Size_le_four
  flip_flip _ := UInt8.not_not
  high_flip := highByte_not
  low b hb := by
    have hlt : b.toNat < 128 := by simpa [highByte] using hb
    exact ⟨Char.ofNat b.toNat, by rw [utf8_low hlt, UInt8.ofNat_toNat]⟩

theorem units_utf16 (D : Decoders) : Units highUnit (~~~ ·) utf16Units D.decodeUtf16 where
  decodes := D.utf16
  width c := (Vault.length_utf16Units_le c).trans (by omega)
  flip_flip _ := UInt16.not_not
  high_flip := highUnit_not
  low u hu := by
    have hlt : u.toNat < 0x8000 := by simpa [highUnit] using hu
    have hvalid : u.toNat.isValidChar := .inl (by omega)
    have hchar : (Char.ofNat u.toNat).toNat = u.toNat := by
      rw [Char.toNat_ofNat, if_pos hvalid]
    refine ⟨Char.ofNat u.toNat, ?_⟩
    rw [utf16Units, hchar, if_pos (by omega), UInt16.ofNat_toNat]

/-! ## Safe strings -/

/-- The length field of `writeSafeString`, for a buffer of any size. -/
theorem lengthField (n : Nat) : UInt16.ofNat n &&& 0x0FFF = UInt16.ofNat (n % 4096) := by
  have hlow : (UInt16.ofNat n &&& 0x0FFF).toNat = (UInt16.ofNat n).toNat % 4096 :=
    Nat.and_two_pow_sub_one_eq_mod _ 12
  have hn : (UInt16.ofNat n).toNat = n % 65536 := rfl
  have hsmall : (UInt16.ofNat (n % 4096)).toNat = n % 4096 % 65536 := rfl
  rw [← UInt16.toNat_inj, hlow, hn, hsmall]
  omega

theorem reads_units (us : List UInt16) : Reads (readUnits us.length) (bytesOfUnits us) us := by
  refine (Lib.Reader.reads_take StreamError.eof (Vault.length_bytesOfUnits us)).andThen ?_
  rw [Vault.unitsOfBytes_bytesOfUnits]
  exact .pure us

theorem headD_high (high : UInt8 → Bool) (h0 : high 0 = false) (us : List UInt8) :
    us.head?.any high = high (us.headD 0) := by
  cases us with
  | nil => exact h0.symm
  | cons u us => rfl

/-- **What is read of a safe string of bytes**: as many as the length field says, inverted again
if the first has the top bit. -/
theorem reads_safeBytes (D : Decoders) {format : StringType} (h : format ≠ .utf16) (s : String) :
    Reads (readSafeString D format) (writeSafeString s format)
      (D.fromBytes format (unmask highByte (~~~ ·)
        (((toBytes format s).take ((toBytes format s).length % 4096)).map (~~~ ·)))) := by
  set bytes := toBytes format s with hbytes
  have hfew : bytes.length % 4096 < 4096 := Nat.mod_lt _ (by omega)
  have hle : bytes.length % 4096 ≤ bytes.length := Nat.mod_le _ _
  obtain ⟨-, hflag, hback⟩ := Streams.safeLength hfew
  have hsmall : (UInt16.ofNat (bytes.length % 4096)).toNat = bytes.length % 4096 :=
    UInt16.toNat_ofNat_of_lt (lt_trans hfew (by decide))
  rw [writeSafeString, if_neg h]
  dsimp only
  rw [← hbytes, lengthField, hsmall]
  refine (Streams.reads_u16 _).bind ?_
  rw [if_neg hflag, hback, if_neg h]
  refine (Lib.Reader.reads_take StreamError.eof ?_).andThen ?_
  · rw [List.length_map, List.length_take, hsmall]
    omega
  · set us := (bytes.take (bytes.length % 4096)).map (~~~ ·)
    rw [unmask, headD_high highByte (by decide)]
    by_cases hhead : highByte (us.headD 0) = true
    · rw [if_pos ((highByte_iff _).2 hhead), if_pos hhead]
      exact .pure _
    · rw [if_neg (mt (highByte_iff _).1 hhead), if_neg hhead]
      exact .pure _

theorem reads_safeUnits (D : Decoders) (s : String) :
    Reads (readSafeString D .utf16) (writeSafeString s .utf16)
      (D.fromUtf16 (unmask highUnit (~~~ ·)
        (((toUtf16 s).take ((toUtf16 s).length % 4096)).map (~~~ ·)))) := by
  set units := toUtf16 s with hunits
  have hfew : units.length % 4096 < 4096 := Nat.mod_lt _ (by omega)
  have hle : units.length % 4096 ≤ units.length := Nat.mod_le _ _
  obtain ⟨-, hflag, hback⟩ := Streams.safeLength hfew
  have hsmall : (UInt16.ofNat (units.length % 4096)).toNat = units.length % 4096 :=
    UInt16.toNat_ofNat_of_lt (lt_trans hfew (by decide))
  rw [writeSafeString, if_pos rfl]
  dsimp only
  rw [← hunits, lengthField, hsmall]
  refine (Streams.reads_u16 _).bind ?_
  rw [if_neg hflag, hback, if_pos rfl]
  set us := (units.take (units.length % 4096)).map (~~~ ·) with hus
  have hlen : us.length = (UInt16.ofNat (units.length % 4096)).toNat := by
    rw [hus, List.length_map, List.length_take, hsmall]
    omega
  rw [← hlen]
  refine (reads_units us).bind ?_
  refine (Streams.reads_u16 0).andThen ?_
  have hhead : us.head?.any highUnit = highUnit (us.headD 0) := by
    cases us with
    | nil => rfl
    | cons u us => rfl
  rw [unmask, hhead]
  by_cases hhigh : highUnit (us.headD 0) = true
  · rw [if_pos ((highUnit_iff _).2 hhigh), if_pos hhigh]
    exact .pure _
  · rw [if_neg (mt (highUnit_iff _).1 hhigh), if_neg hhigh]
    exact .pure _

/-- The string that is read of what was written of another. -/
def back (D : Decoders) (format : StringType) (s : String) : String :=
  if format = .utf16 then
    D.fromUtf16 (unmask highUnit (~~~ ·)
      (((toUtf16 s).take ((toUtf16 s).length % 4096)).map (~~~ ·)))
  else
    D.fromBytes format (unmask highByte (~~~ ·)
      (((toBytes format s).take ((toBytes format s).length % 4096)).map (~~~ ·)))

theorem reads_back (D : Decoders) (format : StringType) (s : String) :
    Reads (readSafeString D format) (writeSafeString s format) (back D format s) := by
  by_cases h : format = .utf16
  · subst h
    exact reads_safeUnits D s
  · rw [back, if_neg h]
    exact reads_safeBytes D h s

theorem ofList_eq_iff {cs : List Char} {s : String} : String.ofList cs = s ↔ cs = s.toList := by
  constructor
  · rintro rfl
    exact String.toList_ofList.symm
  · rintro rfl
    exact String.ofList_toList

theorem raw8_back_iff {s : String} (hlatin : ∀ c ∈ s.toList, c.toNat < 256) :
    fromLatin1 (unmask highByte (~~~ ·)
        (((toLatin1 s).take ((toLatin1 s).length % 4096)).map (~~~ ·))) = s ↔
      (toLatin1 s).length < 4096 ∧ (toLatin1 s).head?.any highByte = false := by
  set bytes := toLatin1 s with hbytes
  have hs : fromLatin1 bytes = s := Streams.fromLatin1_toLatin1 hlatin
  constructor
  · intro hback
    have hsame := congrArg toLatin1 hback
    rw [Streams.toLatin1_fromLatin1, ← hbytes] at hsame
    have hlen := congrArg List.length hsame
    have hfew := Nat.mod_lt bytes.length (show 0 < 4096 by omega)
    have hshort : bytes.length < 4096 := by
      unfold unmask at hlen
      split at hlen
      · simp only [List.length_map, List.length_take] at hlen
        omega
      · simp only [List.length_map, List.length_take] at hlen
        omega
    refine ⟨hshort, ?_⟩
    by_contra hhigh
    rw [Bool.not_eq_false] at hhigh
    rw [Nat.mod_eq_of_lt hshort, List.take_length, unmask_high highByte_not hhigh] at hsame
    cases hcons : bytes with
    | nil => simp [hcons] at hhigh
    | cons b bs =>
      rw [hcons, List.map_cons, List.cons.injEq] at hsame
      have hnot := highByte_not b
      rw [hsame.1] at hnot
      cases hb : highByte b with
      | true => simp [hb] at hnot
      | false => simp [hb] at hnot
  · rintro ⟨hshort, hlow⟩
    rw [Nat.mod_eq_of_lt hshort, List.take_length,
      unmask_low (fun _ => UInt8.not_not) highByte_not hlow]
    exact hs

theorem back_eq_iff (D : Decoders) {format : StringType} {s : String}
    (h : Representable format s) :
    back D format s = s ↔ size format s < 4096 ∧ topBit format s = false := by
  cases format with
  | raw8 => exact raw8_back_iff (h rfl)
  | utf8 => exact ofList_eq_iff.trans ((units_utf8 D).back_iff s.toList)
  | utf16 => exact ofList_eq_iff.trans ((units_utf16 D).back_iff s.toList)

/-- Latin-1 has a byte for each character. -/
theorem length_back_raw8 (D : Decoders) (s : String) :
    (back D .raw8 s).toList.length = s.toList.length % 4096 := by
  have hsize : (toLatin1 s).length = s.toList.length := List.length_map _
  have hle := Nat.mod_le s.toList.length 4096
  show (fromLatin1 (unmask _ _ _)).toList.length = _
  rw [fromLatin1, String.toList_ofList, List.length_map]
  unfold unmask
  split
  · rw [List.length_map, List.length_map]
    rw [show toBytes .raw8 s = toLatin1 s from rfl, List.length_take, hsize]
    omega
  · rw [List.length_map]
    rw [show toBytes .raw8 s = toLatin1 s from rfl, List.length_take, hsize]
    omega

theorem back_ne_of_long (D : Decoders) {format : StringType} {s : String}
    (h : 4096 ≤ size format s) : back D format s ≠ s := by
  intro heq
  by_cases hraw : format = .raw8
  · subst hraw
    have hlen := length_back_raw8 D s
    have hsize : size .raw8 s = s.toList.length := List.length_map _
    have hfew := Nat.mod_lt s.toList.length (show 0 < 4096 by omega)
    rw [heq] at hlen
    omega
  · have hshort := ((back_eq_iff D fun hformat => absurd hformat hraw).1 heq).1
    omega

/-- What a safe string promises: of fewer than 4096 units, it is read as it was written, and
reading takes what was written; of more, another string is not read in its place. -/
def SafeLaw (D : Decoders) (format : StringType) (s : String) : Prop :=
  (size format s < 4096 → Representable format s →
    Reads (readSafeString D format) (writeSafeString s format) s) ∧
  (4096 ≤ size format s → ∀ t rest rest',
    readSafeString D format (writeSafeString s format ++ rest) = .ok (t, rest') → t = s)

theorem SafeLaw.size_lt {D : Decoders} {format : StringType} {s : String}
    (h : SafeLaw D format s) : size format s < 4096 := by
  by_contra hbig
  have hback := h.2 (by omega) _ [] [] (reads_back D format s [])
  exact back_ne_of_long D (by omega) hback

theorem SafeLaw.topBit {D : Decoders} {format : StringType} {s : String}
    (h : SafeLaw D format s) (hrep : Representable format s) : topBit format s = false := by
  have hs := h.1 h.size_lt hrep []
  rw [reads_back D format s []] at hs
  obtain ⟨heq, -⟩ := Prod.mk.inj (Except.ok.inj hs)
  exact ((back_eq_iff D hrep).1 heq).2

/-- **Safe strings round-trip** exactly if they have fewer than 4096 units and the top bit of the
first, if there is one, is not set. -/
theorem safe_round_trips (D : Decoders) (format : StringType) (s : String) :
    SafeLaw D format s ↔
      size format s < 4096 ∧ (Representable format s → topBit format s = false) := by
  constructor
  · intro h
    exact ⟨h.size_lt, h.topBit⟩
  · rintro ⟨hsize, hlow⟩
    refine ⟨fun _ hrep => ?_, fun hbig => by omega⟩
    have hread := reads_back D format s
    have heq := (back_eq_iff D hrep).2 ⟨hsize, hlow hrep⟩
    rwa [heq] at hread

/-! ### Decoders -/

/-- UTF-8, with one `U+FFFD` for each byte that belongs to no character. -/
def decodeUtf8 : List UInt8 → List Char
  | [] => []
  | b :: bytes =>
    match (b :: bytes).toByteArray.utf8DecodeChar? 0 with
    | some c => c :: decodeUtf8 (bytes.drop (c.utf8Size - 1))
    | none => '\uFFFD' :: decodeUtf8 bytes
termination_by bytes => bytes.length

theorem decodes_decodeUtf8 : Lib.Decodes String.utf8EncodeChar decodeUtf8 where
  whole c us := by
    have hlen := String.length_utf8EncodeChar c
    have hpos := c.utf8Size_pos
    cases hc : String.utf8EncodeChar c with
    | nil =>
      rw [hc, List.length_nil] at hlen
      omega
    | cons b bs =>
      have hchar : (b :: (bs ++ us)).toByteArray.utf8DecodeChar? 0 = some c := by
        rw [← List.cons_append, ← hc, List.toByteArray_append]
        exact ByteArray.utf8DecodeChar?_utf8EncodeChar_append
      have hdrop : (bs ++ us).drop (c.utf8Size - 1) = us := by
        rw [← hlen, hc, List.length_cons, Nat.add_sub_cancel, List.drop_left]
      rw [List.cons_append, decodeUtf8, hchar]
      show c :: decodeUtf8 ((bs ++ us).drop (c.utf8Size - 1)) = _
      rw [hdrop]
  length_le us := by
    induction us using decodeUtf8.induct with
    | case1 => simp [decodeUtf8]
    | case2 b bytes c hc ih =>
      rw [decodeUtf8, hc, List.length_cons, List.length_cons]
      rw [List.length_drop] at ih
      omega
    | case3 b bytes hc ih =>
      rw [decodeUtf8, hc, List.length_cons, List.length_cons]
      omega

theorem decodes_decodeUnits : Lib.Decodes utf16Units Vault.decodeUnits where
  whole := Vault.decodeUnits_utf16Units
  length_le us := by
    induction us using Vault.decodeUnits.induct with
    | case1 => simp [Vault.decodeUnits]
    | case2 u => simp [Vault.decodeUnits]
    | case3 u v units hpair ih =>
      rw [Vault.decodeUnits, if_pos hpair, List.length_cons, List.length_cons, List.length_cons]
      omega
    | case4 u v units hpair ih =>
      rw [Vault.decodeUnits, if_neg hpair, List.length_cons, List.length_cons]
      omega

def decoders : Decoders where
  decodeUtf8 := decodeUtf8
  decodeUtf16 := Vault.decodeUnits
  utf8 := decodes_decodeUtf8
  utf16 := decodes_decodeUnits

theorem size_replicate (n : Nat) : size .raw8 (String.ofList (List.replicate n 'a')) = n := by
  show ((String.ofList (List.replicate n 'a')).toList.map _).length = n
  rw [String.toList_ofList, List.length_map, List.length_replicate]

/-- A name that begins with an accent, and one that is too long. -/
theorem safe_strings_lost : ¬ SafeLaw decoders .utf8 "Étoile" ∧
    ¬ SafeLaw decoders .raw8 (String.ofList (List.replicate 4096 'a')) := by
  constructor
  · intro h
    have htop := h.topBit fun hformat => absurd hformat (by decide)
    exact absurd htop (by decide)
  · intro h
    have hsize := h.size_lt
    rw [size_replicate] at hsize
    exact absurd hsize (by decide)

/-! ## Strings behind a length -/

/-- A string comes back from behind its length, and reading takes what was written. -/
def PStringBack (D : Decoders) (width : Nat) (format : StringType) (s : String) : Prop :=
  Reads (readPString D width format) (writePString width s format) s

/-- The strings that do: all characters of one byte, and the empty string. -/
def PStringKept : StringType → String → Prop
  | .raw8, s => ∀ c ∈ s.toList, c.toNat < 256
  | .utf8, s => ∀ c ∈ s.toList, c.toNat < 128
  | .utf16, s => s = ""

/-- `readPString` takes as many bytes as the writer counted units. -/
theorem reads_pbytes (D : Decoders) {width : Nat} {format : StringType} {s : String}
    (h : format ≠ .utf16) (hfits : size format s < 256 ^ width) :
    Reads (readPString D width format) (writePString width s format)
      (fromLatin1 (toBytes format s)) := by
  rw [size, if_neg h] at hfits
  rw [writePString, if_neg h]
  refine (Lib.Reader.reads_nat StreamError.eof hfits).bind ?_
  refine (Lib.Reader.reads_take StreamError.eof rfl).andThen ?_
  exact .pure _

/-- Half of the units of a string stay unread. -/
theorem readPString_utf16 (D : Decoders) {width : Nat} {s : String}
    (hfits : size .utf16 s < 256 ^ width) (rest : List UInt8) :
    readPString D width .utf16 (writePString width s .utf16 ++ rest) =
      .ok (fromLatin1 ((bytesOfUnits (toUtf16 s)).take (toUtf16 s).length),
        (bytesOfUnits (toUtf16 s)).drop (toUtf16 s).length ++ rest) := by
  set bytes := bytesOfUnits (toUtf16 s) with hbytes
  have htake : Reads (Lib.Reader.take StreamError.eof (toUtf16 s).length)
      (bytes.take (toUtf16 s).length) (bytes.take (toUtf16 s).length) := by
    refine Lib.Reader.reads_take StreamError.eof ?_
    rw [List.length_take, hbytes, Vault.length_bytesOfUnits]
    omega
  have hreads : Reads (readPString D width .utf16)
      (leBytes width (toUtf16 s).length ++ bytes.take (toUtf16 s).length)
      (fromLatin1 (bytes.take (toUtf16 s).length)) :=
    (Lib.Reader.reads_nat StreamError.eof hfits).bind (htake.andThen (.pure _))
  have hread := hreads (bytes.drop (toUtf16 s).length ++ rest)
  rw [List.append_assoc, ← List.append_assoc (bytes.take _), List.take_append_drop,
    ← List.append_assoc] at hread
  exact hread

theorem fromLatin1_latin (bytes : List UInt8) :
    ∀ c ∈ (fromLatin1 bytes).toList, c.toNat < 256 := by
  intro c hc
  rw [fromLatin1, String.toList_ofList, List.mem_map] at hc
  obtain ⟨b, -, rfl⟩ := hc
  rw [Streams.toNat_latin1]
  exact b.toNat_lt

theorem utf8_ascii {c : Char} (h : c.toNat < 128) :
    String.utf8EncodeChar c = [UInt8.ofNat c.toNat] := by
  have hlow := utf8_low h
  rwa [Char.ofNat_toNat] at hlow

/-- In ASCII the encodings of one byte agree. -/
theorem toUtf8_ascii {s : String} (h : ∀ c ∈ s.toList, c.toNat < 128) : toUtf8 s = toLatin1 s := by
  rw [toUtf8, toLatin1]
  generalize s.toList = cs at h
  induction cs with
  | nil => rfl
  | cons c cs ih =>
    have hc := h c List.mem_cons_self
    rw [List.flatMap_cons, List.map_cons, utf8_ascii hc,
      ih fun d hd => h d (List.mem_cons_of_mem c hd), if_pos (by omega), List.singleton_append]

/-- A character of one byte is ASCII. -/
theorem ascii_of_length {cs : List Char}
    (h : (cs.flatMap String.utf8EncodeChar).length = cs.length) : ∀ c ∈ cs, c.toNat < 128 := by
  induction cs with
  | nil => simp
  | cons c cs ih =>
    have hpos := c.utf8Size_pos
    have hmore : cs.length ≤ (cs.flatMap String.utf8EncodeChar).length := by
      rw [List.length_flatMap]
      refine List.length_le_sum_of_one_le _ ?_ |>.trans' (by rw [List.length_map])
      intro n hn
      rw [List.mem_map] at hn
      obtain ⟨d, -, rfl⟩ := hn
      rw [String.length_utf8EncodeChar]
      exact d.utf8Size_pos
    rw [List.flatMap_cons, List.length_append, String.length_utf8EncodeChar,
      List.length_cons] at h
    have hone : c.utf8Size = 1 := by omega
    rw [List.forall_mem_cons]
    refine ⟨?_, ih (by omega)⟩
    have hval := Char.utf8Size_eq_one_iff.1 hone
    have hnat : c.toNat ≤ 127 := hval
    omega

theorem PStringBack.bytes_eq {D : Decoders} {width : Nat} {format : StringType} {s : String}
    (h : PStringBack D width format s) (hformat : format ≠ .utf16)
    (hfits : size format s < 256 ^ width) : fromLatin1 (toBytes format s) = s := by
  have hread := h []
  rw [reads_pbytes D hformat hfits []] at hread
  exact (Prod.mk.inj (Except.ok.inj hread)).1

theorem PStringBack.kept {D : Decoders} {width : Nat} {format : StringType} {s : String}
    (h : PStringBack D width format s) (hfits : size format s < 256 ^ width) :
    PStringKept format s := by
  cases format with
  | raw8 =>
    have hs := h.bytes_eq (by decide) hfits
    show ∀ c ∈ s.toList, c.toNat < 256
    rw [← hs]
    exact fromLatin1_latin _
  | utf8 =>
    have hs : fromLatin1 (toUtf8 s) = s := h.bytes_eq (by decide) hfits
    show ∀ c ∈ s.toList, c.toNat < 128
    refine ascii_of_length ?_
    have hlen := congrArg (fun t => t.toList.length) hs
    rwa [fromLatin1, String.toList_ofList, List.length_map] at hlen
  | utf16 =>
    have hread := h []
    rw [readPString_utf16 D hfits []] at hread
    obtain ⟨-, hrest⟩ := Prod.mk.inj (Except.ok.inj hread)
    rw [List.append_nil, List.drop_eq_nil_iff, Vault.length_bytesOfUnits] at hrest
    have hnil : toUtf16 s = [] := List.eq_nil_of_length_eq_zero (by omega)
    have hs : D.decodeUtf16 (toUtf16 s) = s.toList := D.utf16.encode s.toList
    rw [hnil, D.utf16.nil] at hs
    exact String.toList_eq_nil_iff.1 hs.symm

theorem PStringKept.back {D : Decoders} {width : Nat} {format : StringType} {s : String}
    (h : PStringKept format s) (hfits : size format s < 256 ^ width) :
    PStringBack D width format s := by
  cases format with
  | raw8 =>
    have hread := reads_pbytes D (show StringType.raw8 ≠ .utf16 by decide) hfits
    have hs : fromLatin1 (toBytes .raw8 s) = s := Streams.fromLatin1_toLatin1 h
    rwa [hs] at hread
  | utf8 =>
    have hread := reads_pbytes D (show StringType.utf8 ≠ .utf16 by decide) hfits
    have hlatin : ∀ c ∈ s.toList, c.toNat < 256 := by
      intro c hc
      have hc := h c hc
      omega
    have hs : fromLatin1 (toBytes .utf8 s) = s := by
      show fromLatin1 (toUtf8 s) = s
      rw [toUtf8_ascii h, Streams.fromLatin1_toLatin1 hlatin]
    rwa [hs] at hread
  | utf16 =>
    intro rest
    rw [show s = "" from h] at hfits ⊢
    exact readPString_utf16 D hfits rest

/-- **Strings behind a length round-trip** exactly if the encoding has one byte for each of
their characters. -/
theorem pstring_round_trips (D : Decoders) {width : Nat} {format : StringType} {s : String}
    (hfits : size format s < 256 ^ width) : PStringBack D width format s ↔ PStringKept format s :=
  ⟨fun h => h.kept hfits, fun h => h.back hfits⟩

theorem pstring_round_trips_relto :
    PStringBack decoders 2 .utf8 "Relto" ↔ PStringKept .utf8 "Relto" :=
  pstring_round_trips decoders (by decide)

/-- The name of a shared state with an accent, and any name in UTF-16. -/
theorem pstrings_lost : ¬ PStringBack decoders 2 .utf8 "Étoile" ∧
    ¬ PStringBack decoders 2 .utf16 "Relto" := by
  constructor
  · intro h
    have hkept : ∀ c ∈ "Étoile".toList, c.toNat < 128 := h.kept (by decide)
    exact absurd (hkept 'É' (by decide)) (by decide)
  · intro h
    have hkept : "Relto" = "" := h.kept (by decide)
    exact absurd hkept (by decide)

end Dirtsand.Strings
