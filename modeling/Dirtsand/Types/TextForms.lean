import Dirtsand.Types.ShaHash
import Dirtsand.Types.Text

/-!
# The text forms of UUIDs and hashes

What the constructors from a `const char*` accept, and what `toString` makes of
it (Types/Uuid.cpp, Types/ShaHash.cpp).  A window of hexadecimal digits is printed
as it was, in small letters.  What stands in a window is not looked at, and
`strtoul` reads a number from any text.

* `hexText_leadingNumber` — a window.
* `Uuid.toText_of_ofText` — a UUID is printed as it was read.
* `ShaHash.ofCString_isSome` — a hash is read from forty bytes.
* `textForms` — both constructors.
-/

namespace Dirtsand

/-! ## Windows -/

theorem digit_toLower {c : Char} {d : Nat} (h : digitValue 16 c = some d) :
    d < 16 ∧ d.digitChar = c.toLower := by
  have hascii : c.toNat < 128 := by
    by_contra hlarge
    have hdigit : ¬ ('0' ≤ c ∧ c ≤ '9') := by
      rintro ⟨-, h9⟩
      exact hlarge (lt_of_le_of_lt (show c.toNat ≤ 57 from h9) (by decide))
    have hlower : ¬ ('a' ≤ c ∧ c ≤ 'z') := by
      rintro ⟨-, hz⟩
      exact hlarge (lt_of_le_of_lt (show c.toNat ≤ 122 from hz) (by decide))
    have hupper : ¬ ('A' ≤ c ∧ c ≤ 'Z') := by
      rintro ⟨-, hz⟩
      exact hlarge (lt_of_le_of_lt (show c.toNat ≤ 90 from hz) (by decide))
    rw [digitValue, if_neg hdigit, if_neg hlower, if_neg hupper, if_neg (lt_irrefl 16)] at h
    cases h
  have htable : ∀ n, n < 128 → ∀ d ∈ digitValue 16 (Char.ofNat n),
      d < 16 ∧ d.digitChar = (Char.ofNat n).toLower := by decide
  have hc := htable c.toNat hascii
  rw [Char.ofNat_toNat] at hc
  exact hc d h

theorem leadingNumber_snoc {cs : List Char} (h : AllDigits 16 cs) {c : Char} {d : Nat}
    (hc : digitValue 16 c = some d) :
    leadingNumber 16 0 (cs ++ [c]) = leadingNumber 16 0 cs * 16 + d := by
  rw [leadingNumber_append h, leadingNumber_singleton hc]

/-- **A number is printed as it was read**, in small letters. -/
theorem hexText_leadingNumber {cs : List Char} (h : AllDigits 16 cs) :
    hexText cs.length (leadingNumber 16 0 cs) = cs.map Char.toLower ∧
      leadingNumber 16 0 cs < 16 ^ cs.length := by
  induction cs using List.reverseRecOn with
  | nil => exact ⟨rfl, by decide⟩
  | append_singleton cs c ih =>
    have hcs : AllDigits 16 cs := fun c hc => h c (List.mem_append_left _ hc)
    obtain ⟨htext, hlt⟩ := ih hcs
    obtain ⟨d, hd⟩ := Option.isSome_iff_exists.1 (h c (List.mem_append_right _ List.mem_cons_self))
    obtain ⟨hd16, hchar⟩ := digit_toLower hd
    have hdiv : (leadingNumber 16 0 cs * 16 + d) / 16 = leadingNumber 16 0 cs := by omega
    have hmod : (leadingNumber 16 0 cs * 16 + d) % 16 = d := by omega
    rw [leadingNumber_snoc hcs hd, List.length_append, List.length_singleton, pow_succ]
    refine ⟨?_, by omega⟩
    rw [hexText, hdiv, hmod, htext, hchar, List.map_append, List.map_singleton]

/-- What `strtoul` makes of a window. -/
theorem strtoul_window {cs : List Char} (h : AllDigits 16 cs) {w : Nat} (hlen : cs.length = w)
    (hw : w ≤ 8) : (strtoul 16 cs).toNat < 16 ^ w ∧
      hexText w (strtoul 16 cs).toNat = cs.map Char.toLower := by
  subst hlen
  obtain ⟨htext, hlt⟩ := hexText_leadingNumber h
  have hpow : 16 ^ cs.length ≤ 16 ^ 8 := Nat.pow_le_pow_right (by decide) hw
  have hsmall : leadingNumber 16 0 cs < UInt64.size := by
    rw [show UInt64.size = 16 ^ 16 from rfl]
    omega
  have hvalue : strtoul 16 cs = UInt64.ofNat (leadingNumber 16 0 cs) := by
    rw [strtoul, parseNumber_of_digits (by decide) h]
    exact if_neg (not_le.2 hsmall)
  rw [hvalue, UInt64.toNat_ofNat_of_lt' hsmall]
  exact ⟨hlt, htext⟩

theorem hexText_toUInt32 {cs : List Char} (h : AllDigits 16 cs) (hlen : cs.length = 8) :
    hexText 8 (strtoul 16 cs).toUInt32.toNat = cs.map Char.toLower := by
  obtain ⟨hlt, htext⟩ := strtoul_window h hlen le_rfl
  rw [UInt64.toNat_toUInt32, Nat.mod_eq_of_lt (lt_of_lt_of_le hlt (by decide)), htext]

theorem hexText_toUInt16 {cs : List Char} (h : AllDigits 16 cs) (hlen : cs.length = 4) :
    hexText 4 (strtoul 16 cs).toUInt16.toNat = cs.map Char.toLower := by
  obtain ⟨hlt, htext⟩ := strtoul_window h hlen (by decide)
  rw [UInt64.toNat_toUInt16, Nat.mod_eq_of_lt (lt_of_lt_of_le hlt (by decide)), htext]

theorem hexText_toUInt8 {cs : List Char} (h : AllDigits 16 cs) (hlen : cs.length = 2) :
    hexText 2 (strtoul 16 cs).toUInt8.toNat = cs.map Char.toLower := by
  obtain ⟨hlt, htext⟩ := strtoul_window h hlen (by decide)
  rw [UInt64.toNat_toUInt8, Nat.mod_eq_of_lt (lt_of_lt_of_le hlt (by decide)), htext]

namespace Uuid

/-! ## UUIDs -/

theorem drop_window (text : List Char) (start len : Nat) :
    text.drop start = window text start len ++ text.drop (start + len) := by
  rw [window, ← List.drop_drop, List.take_append_drop]

theorem window_append (text : List Char) (start m n : Nat) :
    window text start (m + n) = window text start m ++ window text (start + m) n := by
  rw [window, List.take_add, List.drop_drop]
  rfl

/-- A window with a dash behind it. -/
theorem drop_group {text : List Char} {start len : Nat} (h : text[start + len]? = some '-') :
    text.drop start = window text start len ++ '-' :: text.drop (start + len + 1) := by
  obtain ⟨hi, hdash⟩ := List.getElem?_eq_some_iff.1 h
  rw [← hdash, ← List.drop_eq_getElem_cons hi]
  exact drop_window text start len

/-- Hexadecimal digits between the dashes. -/
def DigitsBetween (text : List Char) : Prop :=
  ∀ i c, i ∉ dashes → text[i]? = some c → (digitValue 16 c).isSome = true

/-- 8-4-4-4-12 hexadecimal digits. -/
def IsUuidText (text : List Char) : Prop :=
  ∃ a b c d e : List Char, (a.length = 8 ∧ b.length = 4 ∧ c.length = 4 ∧ d.length = 4 ∧ e.length = 12) ∧
    AllDigits 16 (a ++ b ++ c ++ d ++ e) ∧
    text = a ++ '-' :: (b ++ '-' :: (c ++ '-' :: (d ++ '-' :: e)))

/-- The constructor throws, or it has read all of a text of the right form. -/
def Faithful (text : List Char) : Prop :=
  ofText text = none ∨
    ∃ u, ofText text = some u ∧ IsUuidText text ∧ u.toText = text.map Char.toLower

/-! ### A text that is read as it stands -/

theorem window_digits {text : List Char} (h : DigitsBetween text) {start len : Nat}
    (hno : ∀ j, j < len → start + j ∉ dashes) : AllDigits 16 (window text start len) := by
  intro c hc
  obtain ⟨j, hj, hget⟩ := List.getElem_of_mem hc
  have hlen : j < len := lt_of_lt_of_le hj (List.length_take_le _ _)
  refine h (start + j) c (hno j hlen) ?_
  rw [← List.getElem?_drop, ← List.getElem?_take_of_lt hlen, ← hget]
  exact List.getElem?_eq_getElem hj

theorem length_window {text : List Char} (h : text.length = 36) {start len : Nat}
    (hend : start + len ≤ 36) : (window text start len).length = len := by
  rw [window, List.length_take, List.length_drop]
  omega

/-- The five groups of a text. -/
theorem groups {text : List Char} (h : Dashed text) :
    text = window text 0 8 ++ '-' :: (window text 9 4 ++ '-' :: (window text 14 4 ++
      '-' :: (window text 19 4 ++ '-' :: window text 24 12))) := by
  obtain ⟨hlen, hdash⟩ := h
  have hlast : window text 24 12 = text.drop 24 := by
    apply List.take_of_length_le
    rw [List.length_drop]
    omega
  rw [hlast, ← @drop_group text 19 4 (hdash 23 (by decide)),
    ← @drop_group text 14 4 (hdash 18 (by decide)), ← @drop_group text 9 4 (hdash 13 (by decide)),
    ← @drop_group text 0 8 (hdash 8 (by decide)), List.drop_zero]

theorem hexByte_fields {text : List Char} (hlen : text.length = 36) (h : DigitsBetween text)
    (i : Fin 8) : (fields text).hexByte i = (window text (byteStart i) 2).map Char.toLower := by
  have hplace : byteStart i + 2 ≤ 36 ∧ ∀ j, j < 2 → byteStart i + j ∉ dashes := by
    revert i
    decide
  rw [hexByte, fields_get]
  exact hexText_toUInt8 (window_digits h hplace.2) (length_window hlen hplace.1)

/-- **A UUID is printed as it was read**, in small letters. -/
theorem toText_fields {text : List Char} (h : Dashed text) (hdigits : DigitsBetween text) :
    (fields text).toText = text.map Char.toLower := by
  have hlen := h.1
  have h1 : hexText 8 (fields text).data1.toNat = (window text 0 8).map Char.toLower :=
    hexText_toUInt32 (window_digits hdigits (by decide)) (length_window hlen (by decide))
  have h2 : hexText 4 (fields text).data2.toNat = (window text 9 4).map Char.toLower :=
    hexText_toUInt16 (window_digits hdigits (by decide)) (length_window hlen (by decide))
  have h3 : hexText 4 (fields text).data3.toNat = (window text 14 4).map Char.toLower :=
    hexText_toUInt16 (window_digits hdigits (by decide)) (length_window hlen (by decide))
  have hfourth : window text 19 4 = window text 19 2 ++ window text 21 2 :=
    window_append text 19 2 2
  have hfifth : window text 24 12 = window text 24 2 ++ (window text 26 2 ++ (window text 28 2 ++
      (window text 30 2 ++ (window text 32 2 ++ window text 34 2)))) := by
    rw [← window_append text 32 2 2, ← window_append text 30 2 4, ← window_append text 28 2 6,
      ← window_append text 26 2 8, ← window_append text 24 2 10]
  have hdash : Char.toLower '-' = '-' := by decide
  conv_rhs => rw [groups h]
  rw [toText, h1, h2, h3]
  simp only [hexByte_fields hlen hdigits, hfourth, hfifth, List.map_append, List.map_cons, hdash,
    List.append_assoc]
  rfl

theorem isUuidText_of_digits {text : List Char} (h : Dashed text) (hdigits : DigitsBetween text) :
    IsUuidText text := by
  have hlen := h.1
  refine ⟨window text 0 8, window text 9 4, window text 14 4, window text 19 4, window text 24 12,
    ⟨length_window hlen (by decide), length_window hlen (by decide), length_window hlen (by decide),
      length_window hlen (by decide), length_window hlen (by decide)⟩, fun c hc => ?_, groups h⟩
  simp only [List.mem_append, or_assoc] at hc
  obtain hc | hc | hc | hc | hc := hc
  · exact @window_digits text hdigits 0 8 (by decide) c hc
  · exact @window_digits text hdigits 9 4 (by decide) c hc
  · exact @window_digits text hdigits 14 4 (by decide) c hc
  · exact @window_digits text hdigits 19 4 (by decide) c hc
  · exact @window_digits text hdigits 24 12 (by decide) c hc

/-! ### What the constructor accepts -/

theorem getElem?_group {a rest : List Char} {i : Nat} (hi : i ≠ a.length) {c : Char}
    (h : (a ++ '-' :: rest)[i]? = some c) :
    c ∈ a ∨ a.length < i ∧ rest[i - (a.length + 1)]? = some c := by
  by_cases hlt : i < a.length
  · rw [List.getElem?_append_left hlt] at h
    exact Or.inl (List.mem_of_getElem? h)
  · obtain ⟨k, rfl⟩ : ∃ k, i = a.length + (k + 1) := ⟨i - (a.length + 1), by omega⟩
    rw [List.getElem?_append_right (Nat.le_add_right _ _), Nat.add_sub_cancel_left,
      List.getElem?_cons_succ] at h
    refine Or.inr ⟨by omega, ?_⟩
    rw [← h]
    congr 1
    omega

theorem digitsBetween_of_isUuidText {text : List Char} (h : IsUuidText text) :
    DigitsBetween text := by
  obtain ⟨a, b, c, d, e, ⟨ha, hb, hc, hd, he⟩, hdigits, rfl⟩ := h
  intro i x hi hx
  simp only [dashes, List.mem_cons, List.not_mem_nil, or_false, not_or] at hi
  apply hdigits
  simp only [List.mem_append, or_assoc]
  obtain hmem | ⟨hlt, hx⟩ := getElem?_group (by omega) hx
  · exact Or.inl hmem
  obtain hmem | ⟨hlt, hx⟩ := getElem?_group (by omega) hx
  · exact Or.inr (Or.inl hmem)
  obtain hmem | ⟨hlt, hx⟩ := getElem?_group (by omega) hx
  · exact Or.inr (Or.inr (Or.inl hmem))
  obtain hmem | ⟨hlt, hx⟩ := getElem?_group (by omega) hx
  · exact Or.inr (Or.inr (Or.inr (Or.inl hmem)))
  · exact Or.inr (Or.inr (Or.inr (Or.inr (List.mem_of_getElem? hx))))

theorem ofText_eq_none {text : List Char} (h : ¬ Dashed text) : ofText text = none := by
  unfold ofText
  apply if_pos
  by_contra hno
  push Not at hno
  obtain ⟨hlen, h8, h13, h18, h23⟩ := hno
  refine h ⟨hlen, fun i hi => ?_⟩
  simp only [dashes, List.mem_cons, List.not_mem_nil, or_false] at hi
  obtain rfl | rfl | rfl | rfl := hi
  · exact h8
  · exact h13
  · exact h18
  · exact h23

/-- **What stands between the dashes is not checked.** -/
theorem faithful_iff (text : List Char) : Faithful text ↔ (Dashed text → DigitsBetween text) := by
  constructor
  · rintro (hnone | ⟨u, -, hform, -⟩) hdashed
    · rw [ofText_of_dashed hdashed] at hnone
      cases hnone
    · exact digitsBetween_of_isUuidText hform
  · intro h
    by_cases hdashed : Dashed text
    · exact Or.inr ⟨fields text, ofText_of_dashed hdashed, isUuidText_of_digits hdashed (h hdashed),
        toText_fields hdashed (h hdashed)⟩
    · exact Or.inl (ofText_eq_none hdashed)

end Uuid

namespace ShaHash

/-! ## Hashes -/

/-- A word of `ShaHash(const char*)`: `memcpy` reads eight bytes of the memory where
the text is. -/
def readWord (memory : List Char) (i : Nat) : Option UInt32 :=
  (Lib.slice memory (i * 8) 8).map fun buffer => bswap32 (strtoul 16 buffer).toUInt32

/-- `ShaHash(const char*)`, where the text ends with its terminator.  It is `none`
where memory behind that is read. -/
def ofCString (text : List Char) : Option ShaHash := do
  let memory := text ++ ['\x00']
  let d0 ← readWord memory 0
  let d1 ← readWord memory 1
  let d2 ← readWord memory 2
  let d3 ← readWord memory 3
  let d4 ← readWord memory 4
  return ⟨#v[d0, d1, d2, d3, d4]⟩

def hexWord (h : ShaHash) (i : Fin 5) : List Char := hexText 8 (bswap32 (h.data.get i)).toNat

/-- `ShaHash::toString`. -/
def toText (h : ShaHash) : List Char :=
  h.hexWord 0 ++ (h.hexWord 1 ++ (h.hexWord 2 ++ (h.hexWord 3 ++ h.hexWord 4)))

theorem bswap32_bswap32 (x : UInt32) : bswap32 (bswap32 x) = x := by
  have hbytes : Lib.Reader.leBytes 4 (bswap32 (bswap32 x)).toNat = Lib.Reader.leBytes 4 x.toNat := by
    rw [word_reverse, word_reverse, List.reverse_reverse]
  have hvalue := congrArg Lib.Reader.leValue hbytes
  rw [Lib.Reader.leValue_leBytes (UInt32.toNat_lt _), Lib.Reader.leValue_leBytes x.toNat_lt] at hvalue
  exact UInt32.toNat_inj.1 hvalue

theorem readWord_isSome (memory : List Char) (i : Nat) :
    (readWord memory i).isSome = true ↔ i * 8 + 8 ≤ memory.length := by
  rw [readWord, Option.isSome_map, Lib.slice]
  split
  · rename_i hshort
    exact ⟨fun h => absurd h (by decide), fun h => absurd hshort (not_lt.2 h)⟩
  · rename_i hlong
    exact ⟨fun _ => not_lt.1 hlong, fun _ => rfl⟩

theorem readWord_eq {memory : List Char} {i : Nat} {w : UInt32}
    (h : Lib.slice memory (i * 8) 8 = some (hexText 8 (bswap32 w).toNat)) :
    readWord memory i = some w := by
  rw [readWord, h, Option.map_some, strtoul_hexText le_rfl (bswap32 w).toNat_lt, toUInt32_ofNat,
    bswap32_bswap32]

theorem ofCString_eq_some {text : List Char} {h : ShaHash} :
    ofCString text = some h ↔ ∀ i : Fin 5, readWord (text ++ ['\x00']) i = some (h.data.get i) := by
  constructor
  · intro hsome
    obtain ⟨d0, h0, hsome⟩ := Option.bind_eq_some_iff.1 hsome
    obtain ⟨d1, h1, hsome⟩ := Option.bind_eq_some_iff.1 hsome
    obtain ⟨d2, h2, hsome⟩ := Option.bind_eq_some_iff.1 hsome
    obtain ⟨d3, h3, hsome⟩ := Option.bind_eq_some_iff.1 hsome
    obtain ⟨d4, h4, hsome⟩ := Option.bind_eq_some_iff.1 hsome
    cases hsome
    intro i
    match i with
    | 0 => exact h0
    | 1 => exact h1
    | 2 => exact h2
    | 3 => exact h3
    | 4 => exact h4
  · intro hread
    have hdata : #v[h.data.get 0, h.data.get 1, h.data.get 2, h.data.get 3, h.data.get 4] = h.data := by
      apply Vector.ext
      intro i hi
      match i, hi with
      | 0, _ | 1, _ | 2, _ | 3, _ | 4, _ => rfl
    have h0 : readWord (text ++ ['\x00']) 0 = _ := hread 0
    have h1 : readWord (text ++ ['\x00']) 1 = _ := hread 1
    have h2 : readWord (text ++ ['\x00']) 2 = _ := hread 2
    have h3 : readWord (text ++ ['\x00']) 3 = _ := hread 3
    have h4 : readWord (text ++ ['\x00']) 4 = _ := hread 4
    simp only [ofCString, h0, h1, h2, h3, h4, hdata, bind, pure, Option.bind_some]

/-- **A text of 39 characters is long enough**, with its terminator. -/
theorem ofCString_isSome (text : List Char) : (ofCString text).isSome = true ↔ 39 ≤ text.length := by
  have hlen : (text ++ ['\x00']).length = text.length + 1 := List.length_append
  constructor
  · intro h
    obtain ⟨hash, hhash⟩ := Option.isSome_iff_exists.1 h
    have hlast := (readWord_isSome _ 4).1 (Option.isSome_iff_exists.2 ⟨_, ofCString_eq_some.1 hhash 4⟩)
    omega
  · intro h
    have hread : ∀ i : Fin 5, (readWord (text ++ ['\x00']) i).isSome = true :=
      fun i => (readWord_isSome _ i).2 (by omega)
    refine Option.isSome_iff_exists.2 ⟨⟨Vector.ofFn fun i => (readWord _ i).get (hread i)⟩, ?_⟩
    refine ofCString_eq_some.2 fun i => ?_
    rw [show (Vector.ofFn _).get i = _ from Vector.getElem_ofFn i.isLt]
    exact (Option.some_get (hread i)).symm

/-- Of a text of forty characters, the terminator is not read. -/
theorem ofCString_eq_ofText {text : List Char} (h : 40 ≤ text.length) :
    ofCString text = some (ofText text) := by
  refine ofCString_eq_some.2 fun i => ?_
  have hi := i.isLt
  have hdrop : (text ++ ['\x00']).drop (i * 8) = text.drop (i * 8) ++ ['\x00'] :=
    List.drop_append_of_le_length (by omega)
  have hword : Lib.slice (text ++ ['\x00']) (i * 8) 8 = some ((text.drop (i * 8)).take 8) := by
    rw [Lib.slice, if_neg, hdrop, List.take_append_of_le_length]
    · rw [List.length_drop]
      omega
    · rw [List.length_append]
      omega
  rw [readWord, hword, Option.map_some, ofText]
  show _ = some ((Vector.ofFn _)[i.val])
  rw [Vector.getElem_ofFn]

/-- **What `toString` writes, the constructor reads.** -/
theorem ofCString_toText (h : ShaHash) : ofCString h.toText = some h := by
  refine ofCString_eq_some.2 fun i => readWord_eq ?_
  match i with
  | 0 | 1 | 2 | 3 | 4 =>
    simp [Lib.slice, toText, hexWord, List.drop_append, length_hexText, List.drop_eq_nil_of_le]

end ShaHash

/-! ## Both constructors -/

/-- **The text forms are faithful where the constructors are given what they expect**: what
`toString` writes is read back, a text with the dashes of a UUID has to have digits between them,
and a hash at least 39 characters. -/
theorem textForms (u : Uuid) (h : ShaHash) (text : List Char) :
    Uuid.ofText u.toText = some u ∧ ShaHash.ofCString h.toText = some h ∧
      (Uuid.Faithful text ↔ (Uuid.Dashed text → Uuid.DigitsBetween text)) ∧
      ((ShaHash.ofCString text).isSome = true ↔ 39 ≤ text.length) :=
  ⟨Uuid.ofText_toText u, ShaHash.ofCString_toText h, Uuid.faithful_iff text,
    ShaHash.ofCString_isSome text⟩

/-- A text without a digit is the null UUID, and an empty one has no hash in it. -/
theorem textForms_fail :
    Uuid.ofText "zzzzzzzz-zzzz-zzzz-zzzz-zzzzzzzzzzzz".toList = some Uuid.null ∧
      ¬ Uuid.Faithful "zzzzzzzz-zzzz-zzzz-zzzz-zzzzzzzzzzzz".toList ∧
      ShaHash.ofCString [] = none := by
  refine ⟨by decide, ?_, by decide⟩
  intro h
  have hdigits := (Uuid.faithful_iff _).1 h ⟨by decide, by decide⟩
  exact absurd (hdigits 0 'z' (by decide) (by decide)) (by decide)

end Dirtsand
