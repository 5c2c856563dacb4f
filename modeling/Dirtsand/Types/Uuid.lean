/-!
# Numbers in text, UUIDs and password hashes

`strtoul` and `strtol`, and the fields and the text constructors of `DS::Uuid` and
`DS::ShaHash` (Types/Uuid.cpp, Types/ShaHash.cpp).
-/

namespace Dirtsand

/-! ## Numbers -/

def isSpace (c : Char) : Bool :=
  c = ' ' || (9 ≤ c.toNat && c.toNat ≤ 13)

/-- The value of a digit in some base up to 36. -/
def digitValue (base : Nat) (c : Char) : Option Nat :=
  let v :=
    if '0' ≤ c ∧ c ≤ '9' then c.toNat - 48
    else if 'a' ≤ c ∧ c ≤ 'z' then c.toNat - 87
    else if 'A' ≤ c ∧ c ≤ 'Z' then c.toNat - 55
    else base
  if v < base then some v else none

/-- The number at the front of a text. -/
def leadingNumber (base acc : Nat) : List Char → Nat
  | [] => acc
  | c :: cs =>
    match digitValue base c with
    | some d => leadingNumber base (acc * base + d) cs
    | none => acc

/-- A `0x` before a hexadecimal digit is skipped in base 16. -/
def skipHexPrefix (base : Nat) : List Char → List Char
  | '0' :: x :: d :: cs =>
    if base = 16 ∧ (x = 'x' ∨ x = 'X') ∧ (digitValue 16 d).isSome then d :: cs
    else '0' :: x :: d :: cs
  | cs => cs

/-- The sign and the digits of a number in a text. -/
def parseNumber (base : Nat) (text : List Char) : Bool × Nat :=
  match text.dropWhile isSpace with
  | '-' :: cs => (true, leadingNumber base 0 (skipHexPrefix base cs))
  | '+' :: cs => (false, leadingNumber base 0 (skipHexPrefix base cs))
  | cs => (false, leadingNumber base 0 (skipHexPrefix base cs))

/-- `strtoul(text, nullptr, base)`: a negative number is taken modulo the size of
`unsigned long`, and one that does not fit is `ULONG_MAX`. -/
def strtoul (base : Nat) (text : List Char) : UInt64 :=
  let (negative, v) := parseNumber base text
  if UInt64.size ≤ v then UInt64.ofNat (UInt64.size - 1)
  else if negative then -UInt64.ofNat v else UInt64.ofNat v

/-- `strtol(text, nullptr, base)`. -/
def strtol (base : Nat) (text : List Char) : Int :=
  let (negative, v) := parseNumber base text
  if negative then max (-9223372036854775808) (-v) else min 9223372036854775807 v

/-- The conversion to `int32_t`. -/
def toInt32 (v : Int) : Int := v.bmod UInt32.size

example : strtoul 10 " 42x".toList = 42 ∧ (strtoul 10 "-1".toList).toUInt32 = 0xFFFFFFFF := by
  decide

/-! ## UUIDs -/

/-- `DS::Uuid`. -/
structure Uuid where
  data1 : UInt32
  data2 : UInt16
  data3 : UInt16
  data4 : Vector UInt8 8
deriving DecidableEq, Repr

namespace Uuid

/-- What `clear` leaves behind. -/
def null : Uuid := ⟨0, 0, 0, Vector.replicate 8 0⟩

def isNull (u : Uuid) : Bool := u == null

/-- `Uuid(const char*)`, which throws where the text has not the shape of a
UUID.  What stands between the dashes is not checked. -/
def ofText (text : List Char) : Option Uuid :=
  let hex (start len : Nat) : UInt64 := strtoul 16 ((text.drop start).take len)
  if text.length ≠ 36 ∨ text[8]? ≠ some '-' ∨ text[13]? ≠ some '-' ∨ text[18]? ≠ some '-' ∨
      text[23]? ≠ some '-' then none
  else some
    { data1 := (hex 0 8).toUInt32
      data2 := (hex 9 4).toUInt16
      data3 := (hex 14 4).toUInt16
      data4 := #v[(hex 19 2).toUInt8, (hex 21 2).toUInt8, (hex 24 2).toUInt8, (hex 26 2).toUInt8,
        (hex 28 2).toUInt8, (hex 30 2).toUInt8, (hex 32 2).toUInt8, (hex 34 2).toUInt8] }

end Uuid

/-! ## Password hashes -/

/-- `DS::ShaHash`: five words. -/
structure ShaHash where
  data : Vector UInt32 5
deriving DecidableEq, Repr

/-- `__builtin_bswap32`. -/
def bswap32 (x : UInt32) : UInt32 :=
  let mask : UInt32 := 0xFF00
  (x <<< 24) ||| ((x &&& mask) <<< 8) ||| ((x >>> 8) &&& mask) ||| (x >>> 24)

/-- `ShaHash::swapBytes`. -/
def ShaHash.swapBytes (h : ShaHash) : ShaHash := ⟨h.data.map bswap32⟩

/-- `ShaHash(const char*)`: eight digits a word, with the bytes swapped. -/
def ShaHash.ofText (text : List Char) : ShaHash :=
  ⟨Vector.ofFn fun i : Fin 5 => bswap32 (strtoul 16 ((text.drop (i * 8)).take 8)).toUInt32⟩

end Dirtsand
