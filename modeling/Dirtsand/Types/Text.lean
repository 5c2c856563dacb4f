import Dirtsand.Types.Uuid
import Mathlib.Data.List.TakeWhile
import Mathlib.Tactic

/-!
# Numbers and UUIDs as text

`ST::string::from_uint` and `ST::string::from_int` are Lean's decimals.  What
they and `DS::Uuid::toString` write, `strtoul`, `strtol` and the constructor of
`DS::Uuid` read back.

* `strtoul_fromUint`, `strtol_fromInt`, `strtoul_fromInt` — numbers.
* `Uuid.ofText_toText` — UUIDs.
-/

namespace Dirtsand

/-! ## Digits -/

def AllDigits (base : Nat) (cs : List Char) : Prop := ∀ c ∈ cs, (digitValue base c).isSome = true

theorem le_of_digit {base : Nat} {c : Char} (h : (digitValue base c).isSome = true) :
    48 ≤ c.toNat := by
  by_contra hlow
  have hdigit : ¬ ('0' ≤ c ∧ c ≤ '9') := by
    rintro ⟨h0, -⟩
    exact hlow h0
  have hlower : ¬ ('a' ≤ c ∧ c ≤ 'z') := by
    rintro ⟨h0, -⟩
    exact hlow (le_trans (by decide) (show 97 ≤ c.toNat from h0))
  have hupper : ¬ ('A' ≤ c ∧ c ≤ 'Z') := by
    rintro ⟨h0, -⟩
    exact hlow (le_trans (by decide) (show 65 ≤ c.toNat from h0))
  rw [digitValue, if_neg hdigit, if_neg hlower, if_neg hupper, if_neg (lt_irrefl base)] at h
  cases h

/-- Digits hold no `0x`. -/
theorem skipHexPrefix_of_digits {base : Nat} (hbase : base ≤ 16) {cs : List Char}
    (h : AllDigits base cs) : skipHexPrefix base cs = cs := by
  unfold skipHexPrefix
  split
  · rename_i x d cs'
    split
    · rename_i hx
      have hx' := h x (List.mem_cons_of_mem _ List.mem_cons_self)
      obtain ⟨rfl, rfl | rfl, -⟩ := hx
      · exact absurd hx' (by decide)
      · exact absurd hx' (by decide)
    · rfl
  · rfl

/-- Digits are neither blanks nor signs. -/
theorem parseNumber_of_digits {base : Nat} (hbase : base ≤ 16) {cs : List Char}
    (h : AllDigits base cs) : parseNumber base cs = (false, leadingNumber base 0 cs) := by
  have hskip := skipHexPrefix_of_digits hbase h
  cases cs with
  | nil => rfl
  | cons c cs =>
    have hc := le_of_digit (h c List.mem_cons_self)
    have hspace : isSpace c = false := by
      have hne : c ≠ ' ' := by
        rintro rfl
        exact absurd hc (by decide)
      have hctrl : ¬ c.toNat ≤ 13 := by omega
      rw [isSpace, decide_eq_false hne, decide_eq_false hctrl, Bool.and_false]
      rfl
    rw [parseNumber, List.dropWhile_cons_of_neg (by rw [hspace]; decide)]
    split
    · rename_i heq
      obtain ⟨rfl, -⟩ := List.cons.inj heq
      exact absurd hc (by decide)
    · rename_i heq
      obtain ⟨rfl, -⟩ := List.cons.inj heq
      exact absurd hc (by decide)
    · rw [hskip]

theorem leadingNumber_append {base : Nat} {cs : List Char} (h : AllDigits base cs) (acc : Nat)
    (ds : List Char) :
    leadingNumber base acc (cs ++ ds) = leadingNumber base (leadingNumber base acc cs) ds := by
  induction cs generalizing acc with
  | nil => rfl
  | cons c cs ih =>
    obtain ⟨d, hd⟩ := Option.isSome_iff_exists.1 (h c List.mem_cons_self)
    have hstep : ∀ es, leadingNumber base acc (c :: es) = leadingNumber base (acc * base + d) es := by
      intro es
      rw [leadingNumber, hd]
    rw [List.cons_append, hstep, hstep]
    exact ih (fun e he => h e (List.mem_cons_of_mem c he)) _

theorem leadingNumber_singleton {base d : Nat} {c : Char} (h : digitValue base c = some d)
    (acc : Nat) : leadingNumber base acc [c] = acc * base + d := by
  rw [leadingNumber, h]
  rfl

theorem digitValue_ten {d : Nat} (h : d < 10) : digitValue 10 d.digitChar = some d := by
  revert d
  decide

theorem digitValue_sixteen {d : Nat} (h : d < 16) : digitValue 16 d.digitChar = some d := by
  revert d
  decide

/-! ## C strings -/

/-- The text that a `const char*` has of a string. -/
def cstr (s : String) : String := String.ofList (s.toList.takeWhile (· ≠ '\x00'))

theorem nul_not_mem_cstr (s : String) : '\x00' ∉ (cstr s).toList := by
  rw [cstr, String.toList_ofList]
  exact fun hmem => absurd (List.mem_takeWhile_imp hmem) (by decide)

theorem cstr_of_not_mem {s : String} (h : '\x00' ∉ s.toList) : cstr s = s := by
  have hall : s.toList.takeWhile (· ≠ '\x00') = s.toList := by
    apply List.takeWhile_eq_self_iff.2
    intro c hc
    rw [decide_eq_true_iff]
    rintro rfl
    exact h hc
  rw [cstr, hall, String.ofList_toList]

/-! ## Decimals -/

/-- `ST::string::from_uint`. -/
def fromUint (n : Nat) : String := toString n

/-- `ST::string::from_int`. -/
def fromInt (v : Int) : String := toString v

theorem toList_fromUint (n : Nat) : (fromUint n).toList = Nat.toDigits 10 n := by
  rw [fromUint, Nat.toString_eq_repr, Nat.toList_repr]

theorem decimal (n : Nat) :
    AllDigits 10 (Nat.toDigits 10 n) ∧ leadingNumber 10 0 (Nat.toDigits 10 n) = n := by
  induction n using Nat.strongRecOn with
  | ind n ih =>
    by_cases hn : n < 10
    · rw [Nat.toDigits_of_lt_base hn, leadingNumber_singleton (digitValue_ten hn)]
      refine ⟨fun c hc => ?_, by omega⟩
      rw [List.mem_singleton.1 hc, digitValue_ten hn]
      rfl
    · obtain ⟨hdigits, hvalue⟩ := ih (n / 10) (by omega)
      have hlast := digitValue_ten (Nat.mod_lt n (show 0 < 10 by decide))
      rw [Nat.toDigits_of_base_le (by decide) (by omega), leadingNumber_append hdigits, hvalue,
        leadingNumber_singleton hlast]
      refine ⟨fun c hc => ?_, by omega⟩
      obtain hc | hc := List.mem_append.1 hc
      · exact hdigits c hc
      · rw [List.mem_singleton.1 hc, hlast]
        rfl

theorem parseNumber_fromUint (n : Nat) : parseNumber 10 (fromUint n).toList = (false, n) := by
  obtain ⟨hdigits, hvalue⟩ := decimal n
  rw [toList_fromUint, parseNumber_of_digits (by decide) hdigits, hvalue]

/-- **What `from_uint` writes, `strtoul` reads.** -/
theorem strtoul_fromUint {n : Nat} (h : n < UInt64.size) :
    strtoul 10 (fromUint n).toList = UInt64.ofNat n := by
  rw [strtoul, parseNumber_fromUint]
  exact if_neg (not_le.2 h)

theorem toList_fromInt_negSucc (n : Nat) :
    (fromInt (Int.negSucc n)).toList = '-' :: (fromUint (n + 1)).toList := by
  show ("-" ++ (n + 1).repr).toList = _
  rw [String.toList_append]
  rfl

theorem parseNumber_fromInt (v : Int) :
    parseNumber 10 (fromInt v).toList = (decide (v < 0), v.natAbs) := by
  cases v with
  | ofNat n => exact parseNumber_fromUint n
  | negSucc n =>
    obtain ⟨hdigits, hvalue⟩ := decimal (n + 1)
    have hminus : parseNumber 10 ('-' :: (fromUint (n + 1)).toList) =
        (true, leadingNumber 10 0 (skipHexPrefix 10 (fromUint (n + 1)).toList)) := rfl
    rw [toList_fromInt_negSucc, hminus, toList_fromUint, skipHexPrefix_of_digits (by decide) hdigits, hvalue,
      decide_eq_true (Int.negSucc_lt_zero n)]
    rfl

theorem strtol_fromInt_clamped (v : Int) : strtol 10 (fromInt v).toList =
    max (-9223372036854775808) (min 9223372036854775807 v) := by
  rw [strtol, parseNumber_fromInt]
  show (if decide (v < 0) = true then _ else _) = _
  split
  · rename_i hneg
    have hneg' := of_decide_eq_true hneg
    omega
  · rename_i hpos
    have hpos' := of_decide_eq_false (Bool.eq_false_of_not_eq_true hpos)
    omega

/-- **What `from_int` writes, `strtol` reads.** -/
theorem strtol_fromInt {v : Int} (hlow : -9223372036854775808 ≤ v)
    (hhigh : v ≤ 9223372036854775807) : strtol 10 (fromInt v).toList = v := by
  rw [strtol_fromInt_clamped]
  omega

theorem toInt_eq (v : Int32) : v.toInt = if 2 * v.toUInt32.toNat < 2 ^ 32 then
    (v.toUInt32.toNat : Int) else v.toUInt32.toNat - 2 ^ 32 :=
  BitVec.toInt_eq_toNat_cond v.toBitVec

/-- `strtoul` too, around the end of `unsigned long`. -/
theorem strtoul_fromInt (v : Int32) :
    (strtoul 10 (fromInt v.toInt).toList).toUInt32.toInt32 = v := by
  have hlow := v.le_toInt
  have hhigh := v.toInt_lt
  have hsigned : ∀ u : UInt64, u.toUInt32.toInt32.toInt = Int.bmod (u.toNat % 2 ^ 32) (2 ^ 32) :=
    fun u => BitVec.toInt_eq_toNat_bmod _
  have hsmall : ¬ UInt64.size ≤ v.toInt.natAbs := by
    rw [show UInt64.size = 18446744073709551616 from rfl]
    omega
  have hnat : (UInt64.ofNat v.toInt.natAbs).toNat = v.toInt.natAbs :=
    UInt64.toNat_ofNat_of_lt' (not_le.1 hsmall)
  rw [strtoul, parseNumber_fromInt]
  show (if UInt64.size ≤ v.toInt.natAbs then _ else _ : UInt64).toUInt32.toInt32 = v
  rw [if_neg hsmall, ← Int32.toInt_inj, hsigned]
  split
  · rename_i hneg
    have hneg' := of_decide_eq_true hneg
    have hwrap : (-UInt64.ofNat v.toInt.natAbs).toNat = 2 ^ 64 - v.toInt.natAbs := by
      rw [UInt64.toNat_neg, hnat]
      exact Nat.mod_eq_of_lt (by rw [show UInt64.size = 2 ^ 64 from rfl]; omega)
    rw [hwrap, Int.bmod_def]
    split
    · omega
    · omega
  · rename_i hpos
    have hpos' := of_decide_eq_false (Bool.eq_false_of_not_eq_true hpos)
    rw [hnat, Int.bmod_def]
    split
    · omega
    · omega

/-! ## UUIDs -/

/-- `{0wx}` of `ST::format`, for a number that has no more digits. -/
def hexText : Nat → Nat → List Char
  | 0, _ => []
  | w + 1, n => hexText w (n / 16) ++ [(n % 16).digitChar]

theorem hexText_spec (w : Nat) {n : Nat} (h : n < 16 ^ w) :
    AllDigits 16 (hexText w n) ∧ leadingNumber 16 0 (hexText w n) = n := by
  induction w generalizing n with
  | zero =>
    refine ⟨fun c hc => absurd hc List.not_mem_nil, ?_⟩
    show 0 = n
    omega
  | succ w ih =>
    rw [pow_succ] at h
    obtain ⟨hdigits, hvalue⟩ := ih (show n / 16 < 16 ^ w by omega)
    have hlast := digitValue_sixteen (Nat.mod_lt n (show 0 < 16 by decide))
    rw [hexText, leadingNumber_append hdigits, hvalue, leadingNumber_singleton hlast]
    refine ⟨fun c hc => ?_, by omega⟩
    obtain hc | hc := List.mem_append.1 hc
    · exact hdigits c hc
    · rw [List.mem_singleton.1 hc, hlast]
      rfl

theorem strtoul_hexText {w n : Nat} (hw : w ≤ 8) (h : n < 16 ^ w) :
    strtoul 16 (hexText w n) = UInt64.ofNat n := by
  obtain ⟨hdigits, hvalue⟩ := hexText_spec w h
  have hle : 16 ^ w ≤ 16 ^ 8 := Nat.pow_le_pow_right (by decide) hw
  have hsmall : ¬ UInt64.size ≤ n := by
    rw [show UInt64.size = 16 ^ 16 from rfl]
    omega
  rw [strtoul, parseNumber_of_digits (by decide) hdigits, hvalue]
  exact if_neg hsmall

theorem length_hexText (w n : Nat) : (hexText w n).length = w := by
  induction w generalizing n with
  | zero => rfl
  | succ w ih => rw [hexText, List.length_append, ih, List.length_singleton]

theorem toUInt8_ofNat (v : UInt8) : (UInt64.ofNat v.toNat).toUInt8 = v := by
  have hv := v.toNat_lt
  rw [← UInt8.toNat_inj, UInt64.toNat_toUInt8, UInt64.toNat_ofNat_of_lt' (show _ < 2 ^ 64 by omega)]
  exact Nat.mod_eq_of_lt hv

theorem toUInt16_ofNat (v : UInt16) : (UInt64.ofNat v.toNat).toUInt16 = v := by
  have hv := v.toNat_lt
  rw [← UInt16.toNat_inj, UInt64.toNat_toUInt16, UInt64.toNat_ofNat_of_lt' (show _ < 2 ^ 64 by omega)]
  exact Nat.mod_eq_of_lt hv

theorem toUInt32_ofNat (v : UInt32) : (UInt64.ofNat v.toNat).toUInt32 = v := by
  have hv := v.toNat_lt
  rw [← UInt32.toNat_inj, UInt64.toNat_toUInt32, UInt64.toNat_ofNat_of_lt' (show _ < 2 ^ 64 by omega)]
  exact Nat.mod_eq_of_lt hv

namespace Uuid

def hexByte (u : Uuid) (i : Fin 8) : List Char := hexText 2 (u.data4.get i).toNat

/-- `Uuid::toString`. -/
def toText (u : Uuid) : List Char :=
  hexText 8 u.data1.toNat ++ ('-' :: (hexText 4 u.data2.toNat ++ ('-' :: (hexText 4 u.data3.toNat ++
    ('-' :: (u.hexByte 0 ++ (u.hexByte 1 ++ ('-' :: (u.hexByte 2 ++ (u.hexByte 3 ++ (u.hexByte 4 ++
      (u.hexByte 5 ++ (u.hexByte 6 ++ u.hexByte 7)))))))))))))

theorem length_hexByte (u : Uuid) (i : Fin 8) : (u.hexByte i).length = 2 := length_hexText 2 _

/-- What `memcpy` cuts out of a text. -/
def window (text : List Char) (start len : Nat) : List Char := (text.drop start).take len

/-- Where the dashes stand. -/
def dashes : List Nat := [8, 13, 18, 23]

/-- What the constructor checks. -/
def Dashed (text : List Char) : Prop := text.length = 36 ∧ ∀ i ∈ dashes, text[i]? = some '-'

/-- What the constructor reads. -/
def fields (text : List Char) : Uuid where
  data1 := (strtoul 16 (window text 0 8)).toUInt32
  data2 := (strtoul 16 (window text 9 4)).toUInt16
  data3 := (strtoul 16 (window text 14 4)).toUInt16
  data4 := #v[(strtoul 16 (window text 19 2)).toUInt8, (strtoul 16 (window text 21 2)).toUInt8,
    (strtoul 16 (window text 24 2)).toUInt8, (strtoul 16 (window text 26 2)).toUInt8,
    (strtoul 16 (window text 28 2)).toUInt8, (strtoul 16 (window text 30 2)).toUInt8,
    (strtoul 16 (window text 32 2)).toUInt8, (strtoul 16 (window text 34 2)).toUInt8]

theorem ofText_of_dashed {text : List Char} (h : Dashed text) : ofText text = some (fields text) := by
  obtain ⟨hlen, hdash⟩ := h
  have hshape : ¬ (text.length ≠ 36 ∨ text[8]? ≠ some '-' ∨ text[13]? ≠ some '-' ∨
      text[18]? ≠ some '-' ∨ text[23]? ≠ some '-') := by
    rintro (hbad | hbad | hbad | hbad | hbad)
    · exact hbad hlen
    · exact hbad (hdash 8 (by decide))
    · exact hbad (hdash 13 (by decide))
    · exact hbad (hdash 18 (by decide))
    · exact hbad (hdash 23 (by decide))
  unfold ofText
  exact if_neg hshape

/-- Where the last eight bytes stand. -/
def byteStart (i : Fin 8) : Nat := if i.val < 2 then 19 + 2 * i.val else 20 + 2 * i.val

theorem fields_get (text : List Char) (i : Fin 8) :
    (fields text).data4.get i = (strtoul 16 (window text (byteStart i) 2)).toUInt8 := by
  match i with
  | 0 | 1 | 2 | 3 | 4 | 5 | 6 | 7 => rfl

theorem ext_get {u v : Uuid} (h1 : u.data1 = v.data1) (h2 : u.data2 = v.data2)
    (h3 : u.data3 = v.data3) (h4 : ∀ i, u.data4.get i = v.data4.get i) : u = v := by
  obtain ⟨a, b, c, d⟩ := u
  obtain rfl : a = v.data1 := h1
  obtain rfl : b = v.data2 := h2
  obtain rfl : c = v.data3 := h3
  obtain rfl : d = v.data4 := Vector.ext fun i hi => h4 ⟨i, hi⟩
  rfl

/-- **What `toString` writes, the constructor reads.** -/
theorem ofText_toText (u : Uuid) : ofText u.toText = some u := by
  have hshape : Dashed u.toText := by
    simp [Dashed, dashes, toText, length_hexText, length_hexByte]
  have hslices : window u.toText 0 8 = hexText 8 u.data1.toNat ∧
      window u.toText 9 4 = hexText 4 u.data2.toNat ∧
      window u.toText 14 4 = hexText 4 u.data3.toNat := by
    simp [window, toText, List.drop_append, length_hexText, List.drop_eq_nil_of_le]
  have hbytes : ∀ i, window u.toText (byteStart i) 2 = u.hexByte i := by
    intro i
    match i with
    | 0 | 1 | 2 | 3 | 4 | 5 | 6 | 7 =>
      simp [window, byteStart, toText, List.drop_append, length_hexText, length_hexByte,
        List.drop_eq_nil_of_le, List.take_of_length_le]
  obtain ⟨s1, s2, s3⟩ := hslices
  rw [ofText_of_dashed hshape]
  refine congrArg some (ext_get ?_ ?_ ?_ fun i => ?_)
  · show (strtoul 16 (window u.toText 0 8)).toUInt32 = u.data1
    rw [s1, strtoul_hexText (by decide) u.data1.toNat_lt, toUInt32_ofNat]
  · show (strtoul 16 (window u.toText 9 4)).toUInt16 = u.data2
    rw [s2, strtoul_hexText (by decide) u.data2.toNat_lt, toUInt16_ofNat]
  · show (strtoul 16 (window u.toText 14 4)).toUInt16 = u.data3
    rw [s3, strtoul_hexText (by decide) u.data3.toNat_lt, toUInt16_ofNat]
  · rw [fields_get, hbytes, hexByte, strtoul_hexText (by decide) (u.data4.get i).toNat_lt,
      toUInt8_ofNat]

end Uuid

end Dirtsand
