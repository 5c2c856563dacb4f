import Dirtsand.AuthServ.Postgres
import Dirtsand.AuthServ.VaultCodec
import Dirtsand.Lib.Arrays

/-!
# Public ages

What `cb_getPublicAges` (AuthServ/AuthServer.cpp) sends for the ages that the daemon
has found.  Each age is written with one array of units that is on the stack, for
four fields of two widths, and nothing clears it.

* `writeField_eq` — a field: the text, its terminator, and what the array held.
* `writeAge_isRecord` — a record has the stride of the protocol and its texts.
* `getPublicAges_leakless_iff` — when nothing of the stack is sent.
-/

namespace Dirtsand.PublicAges

open Lib (put slice)
open Streams (writeU16 writeU32)
open AuthServ (NetAgeInfo)
open Vault (bytesOfUnits toUtf16 writeUuid)

/-! ## Fields -/

/-- How much of a text is copied into a field of so many units. -/
def copylen (width : Nat) (buf : List UInt16) : Nat :=
  if buf.length < width then buf.length else width - 1

/-- A field is made in `strbuffer` and written: what the array holds then, and the
bytes. -/
def writeField (width : Nat) (text : String) (strbuffer : List UInt16) :
    Option (List UInt16 × List UInt8) := do
  let buf := toUtf16 text
  let strbuffer ← put strbuffer 0 (buf.take (copylen width buf))
  let strbuffer ← put strbuffer (copylen width buf) [0]
  let units ← slice strbuffer 0 width
  return (strbuffer, bytesOfUnits units)

/-- The body of the loop, with what is on the stack where `strbuffer` is. -/
def writeAge (stack : Nat → UInt16) (agename : String) (age : NetAgeInfo) : Option (List UInt8) := do
  let strbuffer := (List.range 2048).map stack
  let (strbuffer, agename) ← writeField 64 agename strbuffer
  let (strbuffer, instancename) ← writeField 64 age.instancename strbuffer
  let (strbuffer, username) ← writeField 64 age.username strbuffer
  let (_, description) ← writeField 1024 age.description strbuffer
  return writeUuid age.instanceId ++ (agename ++ (instancename ++ (username ++ (description ++
    (writeU32 age.sequence ++ (writeU32 age.language ++ (writeU32 age.population ++
      writeU32 age.curPopulation)))))))

/-- The loop: each turn finds something on the stack. -/
def writeAges (stack : Nat → Nat → UInt16) (agename : String) :
    Nat → List NetAgeInfo → Option (List UInt8)
  | _, [] => some []
  | i, age :: ages => do
    let record ← writeAge (stack i) agename age
    let records ← writeAges stack agename (i + 1) ages
    return record ++ records

/-- `e_AuthToCli_PublicAgeList`. -/
def publicAgeList : UInt16 := 40

/-- The front of a reply. -/
def header (transId : UInt32) (code : NetResultCode) (count : UInt32) : List UInt8 :=
  writeU16 publicAgeList ++ (writeU32 transId ++ (writeU32 (UInt32.ofNat code.ctorIdx) ++
    writeU32 count))

/-- What `cb_getPublicAges` sends, with the reply of the daemon. -/
def getPublicAges (stack : Nat → Nat → UInt16) (transId : UInt32) (agename : String)
    (code : NetResultCode) (ages : List NetAgeInfo) : Option (List UInt8) :=
  if code ≠ .success then some (header transId code 0)
  else
    (writeAges stack agename 0 ages).map fun records =>
      header transId code (UInt32.ofNat ages.length) ++ records

/-- `NetAgeInfo::Stride`. -/
def stride : Nat := 0x9A0

/-! ## What a field holds -/

/-- What is in the array once a field is made there. -/
def overlay (width : Nat) (text : String) (old : List UInt16) : List UInt16 :=
  (toUtf16 text).take (copylen width (toUtf16 text)) ++
    0 :: old.drop (copylen width (toUtf16 text) + 1)

theorem copylen_lt {width : Nat} (hwidth : 0 < width) (buf : List UInt16) :
    copylen width buf < width := by
  rw [copylen]
  split
  · assumption
  · omega

theorem copylen_le {width : Nat} (buf : List UInt16) : copylen width buf ≤ buf.length := by
  rw [copylen]
  split
  · exact le_rfl
  · omega

theorem length_taken {width : Nat} (buf : List UInt16) :
    (buf.take (copylen width buf)).length = copylen width buf := by
  rw [List.length_take]
  exact min_eq_left (copylen_le buf)

theorem length_overlay {width : Nat} (hwidth : 0 < width) (text : String) {old : List UInt16}
    (hold : width ≤ old.length) : (overlay width text old).length = old.length := by
  have hlt := copylen_lt hwidth (toUtf16 text)
  rw [overlay, List.length_append, length_taken, List.length_cons, List.length_drop]
  omega

theorem put_front {old vs : List UInt16} (h : vs.length ≤ old.length) :
    put old 0 vs = some (vs ++ old.drop vs.length) := by
  rw [put, if_neg (by omega), Nat.zero_add]
  rfl

/-- **A field**: the text, its terminator, and what the array held. -/
theorem writeField_eq {width : Nat} (hwidth : 0 < width) (text : String) {old : List UInt16}
    (hold : width ≤ old.length) : writeField width text old =
      some (overlay width text old, bytesOfUnits ((overlay width text old).take width)) := by
  have hlt := copylen_lt hwidth (toUtf16 text)
  have htaken := @length_taken width (toUtf16 text)
  have hlen := length_overlay hwidth text hold
  have htext : put old 0 ((toUtf16 text).take (copylen width (toUtf16 text))) =
      some ((toUtf16 text).take (copylen width (toUtf16 text)) ++
        old.drop (copylen width (toUtf16 text))) := by
    rw [put_front (by omega), htaken]
  have hend : put ((toUtf16 text).take (copylen width (toUtf16 text)) ++
      old.drop (copylen width (toUtf16 text))) (copylen width (toUtf16 text)) [0] =
        some (overlay width text old) := by
    have hsplit : old.drop (copylen width (toUtf16 text)) =
        (old.drop (copylen width (toUtf16 text))).take 1 ++
          old.drop (copylen width (toUtf16 text) + 1) := by
      rw [← List.drop_drop, List.take_append_drop]
    have hone : ((old.drop (copylen width (toUtf16 text))).take 1).length = 1 := by
      rw [List.length_take, List.length_drop]
      omega
    have hput : put ((toUtf16 text).take (copylen width (toUtf16 text)) ++
        ((old.drop (copylen width (toUtf16 text))).take 1 ++
          old.drop (copylen width (toUtf16 text) + 1)))
        ((toUtf16 text).take (copylen width (toUtf16 text))).length [0] =
          some ((toUtf16 text).take (copylen width (toUtf16 text)) ++
            ([0] ++ old.drop (copylen width (toUtf16 text) + 1))) := Lib.put_middle _ hone.symm
    rw [htaken, ← hsplit] at hput
    exact hput
  have hslice : slice (overlay width text old) 0 width =
      some ((overlay width text old).take width) := if_neg (by omega)
  rw [writeField]
  simp only [htext, hend, hslice, bind, Option.bind_some, pure]

/-- A field of so many units with a text in it, cut to its width, and a terminator. -/
def IsField (width : Nat) (text : String) (units : List UInt16) : Prop :=
  units.length = width ∧ ∃ fill, units = (toUtf16 text).take (width - 1) ++ 0 :: fill

theorem take_copylen {width : Nat} (buf : List UInt16) :
    buf.take (copylen width buf) = buf.take (width - 1) := by
  rw [copylen]
  split
  · rw [List.take_of_length_le le_rfl, List.take_of_length_le (by omega)]
  · rfl

theorem isField_overlay {width : Nat} (hwidth : 0 < width) (text : String) {old : List UInt16}
    (hold : width ≤ old.length) : IsField width text ((overlay width text old).take width) := by
  have hlt := copylen_lt hwidth (toUtf16 text)
  have htaken := @length_taken width (toUtf16 text)
  constructor
  · rw [List.length_take, length_overlay hwidth text hold]
    exact min_eq_left hold
  · refine ⟨(old.drop (copylen width (toUtf16 text) + 1)).take
      (width - (copylen width (toUtf16 text) + 1)), ?_⟩
    obtain ⟨k, hk⟩ : ∃ k, width - copylen width (toUtf16 text) = k + 1 :=
      ⟨width - (copylen width (toUtf16 text) + 1), by omega⟩
    rw [overlay, List.take_append, htaken, take_copylen, hk, List.take_succ_cons,
      List.take_of_length_le (show ((toUtf16 text).take (width - 1)).length ≤ width by
        rw [List.length_take]
        omega)]
    congr 3
    omega

/-! ## Records -/

/-- `strbuffer` before the first field, and after each of the four. -/
def before (stack : Nat → UInt16) : List UInt16 := (List.range 2048).map stack

def afterName (stack : Nat → UInt16) (agename : String) : List UInt16 :=
  overlay 64 agename (before stack)

def afterInstance (stack : Nat → UInt16) (agename : String) (age : NetAgeInfo) : List UInt16 :=
  overlay 64 age.instancename (afterName stack agename)

def afterUser (stack : Nat → UInt16) (agename : String) (age : NetAgeInfo) : List UInt16 :=
  overlay 64 age.username (afterInstance stack agename age)

def afterDescription (stack : Nat → UInt16) (agename : String) (age : NetAgeInfo) : List UInt16 :=
  overlay 1024 age.description (afterUser stack agename age)

section

variable (stack : Nat → UInt16) (agename : String) (age : NetAgeInfo)

theorem length_before : (before stack).length = 2048 := by
  rw [before, List.length_map, List.length_range]

theorem length_afterName : (afterName stack agename).length = 2048 := by
  have hlen := length_before stack
  rw [afterName, length_overlay (by decide) _ (by omega), hlen]

theorem length_afterInstance : (afterInstance stack agename age).length = 2048 := by
  have hlen := length_afterName stack agename
  rw [afterInstance, length_overlay (by decide) _ (by omega), hlen]

theorem length_afterUser : (afterUser stack agename age).length = 2048 := by
  have hlen := length_afterInstance stack agename age
  rw [afterUser, length_overlay (by decide) _ (by omega), hlen]

theorem length_afterDescription : (afterDescription stack agename age).length = 2048 := by
  have hlen := length_afterUser stack agename age
  rw [afterDescription, length_overlay (by decide) _ (by omega), hlen]

/-- A record of four fields. -/
def record (age : NetAgeInfo) (agename instancename username description : List UInt16) : List UInt8 :=
  writeUuid age.instanceId ++ (bytesOfUnits agename ++ (bytesOfUnits instancename ++
    (bytesOfUnits username ++ (bytesOfUnits description ++ (writeU32 age.sequence ++
      (writeU32 age.language ++ (writeU32 age.population ++ writeU32 age.curPopulation)))))))

theorem writeAge_eq : writeAge stack agename age = some (record age
    ((afterName stack agename).take 64) ((afterInstance stack agename age).take 64)
    ((afterUser stack agename age).take 64) ((afterDescription stack agename age).take 1024)) := by
  have h0 := length_before stack
  have h1 := length_afterName stack agename
  have h2 := length_afterInstance stack agename age
  have h3 := length_afterUser stack agename age
  have hname : writeField 64 agename ((List.range 2048).map stack) = some (afterName stack agename,
      bytesOfUnits ((afterName stack agename).take 64)) :=
    writeField_eq (by decide) agename (show 64 ≤ (before stack).length by omega)
  have hinstance : writeField 64 age.instancename (afterName stack agename) =
      some (afterInstance stack agename age,
        bytesOfUnits ((afterInstance stack agename age).take 64)) :=
    writeField_eq (by decide) age.instancename (by omega)
  have huser : writeField 64 age.username (afterInstance stack agename age) =
      some (afterUser stack agename age, bytesOfUnits ((afterUser stack agename age).take 64)) :=
    writeField_eq (by decide) age.username (by omega)
  have hdescription : writeField 1024 age.description (afterUser stack agename age) =
      some (afterDescription stack agename age,
        bytesOfUnits ((afterDescription stack agename age).take 1024)) :=
    writeField_eq (by decide) age.description (by omega)
  rw [writeAge]
  simp only [hname, hinstance, huser, hdescription, bind, Option.bind_some, pure]
  rfl

/-- A record as the protocol has it. -/
def IsRecord (agename : String) (age : NetAgeInfo) (bytes : List UInt8) : Prop :=
  bytes.length = stride ∧ ∃ f₁ f₂ f₃ f₄, bytes = record age f₁ f₂ f₃ f₄ ∧ IsField 64 agename f₁ ∧
    IsField 64 age.instancename f₂ ∧ IsField 64 age.username f₃ ∧ IsField 1024 age.description f₄

theorem length_writeUuid (uuid : Uuid) : (writeUuid uuid).length = 16 := by
  rw [writeUuid, List.length_append, List.length_append, List.length_append, writeU32, writeU16,
    Lib.Reader.length_leBytes, writeU16, Lib.Reader.length_leBytes, Lib.Reader.length_leBytes,
    Vector.length_toList]

theorem length_record {age : NetAgeInfo} {f₁ f₂ f₃ f₄ : List UInt16} (h₁ : f₁.length = 64)
    (h₂ : f₂.length = 64) (h₃ : f₃.length = 64) (h₄ : f₄.length = 1024) :
    (record age f₁ f₂ f₃ f₄).length = stride := by
  have hword : ∀ w : UInt32, (writeU32 w).length = 4 := fun w => Lib.Reader.length_leBytes 4 _
  simp only [record, List.length_append, length_writeUuid, Vault.length_bytesOfUnits, hword, h₁, h₂,
    h₃, h₄]
  rfl

/-- **A record has its stride and its texts**, whatever the stack held. -/
theorem writeAge_isRecord : ∃ bytes, writeAge stack agename age = some bytes ∧
    IsRecord agename age bytes := by
  have hname := isField_overlay (show 0 < 64 by decide) agename
    (show 64 ≤ (before stack).length by rw [length_before]; decide)
  have hinstance := isField_overlay (show 0 < 64 by decide) age.instancename
    (show 64 ≤ (afterName stack agename).length by rw [length_afterName]; decide)
  have huser := isField_overlay (show 0 < 64 by decide) age.username
    (show 64 ≤ (afterInstance stack agename age).length by rw [length_afterInstance]; decide)
  have hdescription := isField_overlay (show 0 < 1024 by decide) age.description
    (show 1024 ≤ (afterUser stack agename age).length by rw [length_afterUser]; decide)
  refine ⟨_, writeAge_eq stack agename age, ?_, _, _, _, _, rfl, hname, hinstance, huser, hdescription⟩
  exact length_record hname.1 hinstance.1 huser.1 hdescription.1

end

/-! ## What is sent of the stack -/

theorem take_overlay {width n : Nat} (hwidth : 0 < width) (hn : width ≤ n) (text : String)
    (old : List UInt16) : (overlay width text old).take n = overlay width text (old.take n) := by
  have hlt := copylen_lt hwidth (toUtf16 text)
  have htaken := @length_taken width (toUtf16 text)
  obtain ⟨k, hk⟩ : ∃ k, n - copylen width (toUtf16 text) = k + 1 :=
    ⟨n - (copylen width (toUtf16 text) + 1), by omega⟩
  rw [overlay, List.take_append, List.take_of_length_le (by omega), htaken, hk, List.take_succ_cons,
    overlay, List.drop_take]
  congr 3
  omega

/-- A text that fills its field leaves nothing of the array. -/
theorem take_overlay_full {width : Nat} (hwidth : 0 < width) {text : String}
    (htext : width - 1 ≤ (toUtf16 text).length) (old : List UInt16) :
    (overlay width text old).take width = (toUtf16 text).take (width - 1) ++ [0] := by
  have hcopied : copylen width (toUtf16 text) = width - 1 := by
    rw [copylen]
    split
    · omega
    · rfl
  have hlen : ((toUtf16 text).take (width - 1)).length = width - 1 := by
    rw [List.length_take]
    omega
  obtain ⟨k, rfl⟩ : ∃ k, width = k + 1 := ⟨width - 1, by omega⟩
  rw [overlay, hcopied, List.take_append, hlen, List.take_of_length_le (by omega)]
  simp

/-- Behind a text, the array is as it was. -/
theorem overlay_getElem? {width : Nat} {text : String} {j : Nat}
    (hj : (toUtf16 text).length < j ∨ width ≤ j) (hwidth : 0 < width) (old : List UInt16) :
    (overlay width text old)[j]? = old[j]? := by
  have hlt := copylen_lt hwidth (toUtf16 text)
  have hle := @copylen_le width (toUtf16 text)
  have htaken := @length_taken width (toUtf16 text)
  obtain ⟨k, hk⟩ : ∃ k, j - copylen width (toUtf16 text) = k + 1 :=
    ⟨j - (copylen width (toUtf16 text) + 1), by omega⟩
  rw [overlay, List.getElem?_append_right (by omega), htaken, hk, List.getElem?_cons_succ,
    List.getElem?_drop]
  congr 1
  omega

theorem before_getElem? (stack : Nat → UInt16) {j : Nat} (hj : j < 2048) :
    (before stack)[j]? = some (stack j) := by
  rw [before, List.getElem?_map, List.getElem?_range hj]
  rfl

/-- Two records of one age are equal where their fields are. -/
theorem record_inj {age : NetAgeInfo} {f₁ f₂ f₃ f₄ g₁ g₂ g₃ g₄ : List UInt16}
    (h₁ : f₁.length = g₁.length) (h₂ : f₂.length = g₂.length) (h₃ : f₃.length = g₃.length)
    (h₄ : f₄.length = g₄.length) (h : record age f₁ f₂ f₃ f₄ = record age g₁ g₂ g₃ g₄) :
    f₁ = g₁ ∧ f₂ = g₂ ∧ f₃ = g₃ ∧ f₄ = g₄ := by
  have hbytes : ∀ f g : List UInt16, f.length = g.length →
      (bytesOfUnits f).length = (bytesOfUnits g).length := by
    intro f g hfg
    rw [Vault.length_bytesOfUnits, Vault.length_bytesOfUnits, hfg]
  have hinj : ∀ f g : List UInt16, bytesOfUnits f = bytesOfUnits g → f = g := by
    intro f g hfg
    rw [← Vault.unitsOfBytes_bytesOfUnits f, hfg, Vault.unitsOfBytes_bytesOfUnits]
  have hrest := List.append_cancel_left h
  obtain ⟨e₁, hrest⟩ := List.append_inj hrest (hbytes _ _ h₁)
  obtain ⟨e₂, hrest⟩ := List.append_inj hrest (hbytes _ _ h₂)
  obtain ⟨e₃, hrest⟩ := List.append_inj hrest (hbytes _ _ h₃)
  obtain ⟨e₄, -⟩ := List.append_inj hrest (hbytes _ _ h₄)
  exact ⟨hinj _ _ e₁, hinj _ _ e₂, hinj _ _ e₃, hinj _ _ e₄⟩

/-- The texts of a record fill the array as far as it is sent. -/
def Filled (agename : String) (age : NetAgeInfo) : Prop :=
  63 ≤ (toUtf16 agename).length ∧ 1023 ≤ (toUtf16 age.description).length

theorem writeAge_steady {agename : String} {age : NetAgeInfo} (h : Filled agename age)
    (stack stack' : Nat → UInt16) : writeAge stack agename age = writeAge stack' agename age := by
  obtain ⟨hname, hdescription⟩ := h
  have h₁ : (afterName stack agename).take 64 = (afterName stack' agename).take 64 := by
    rw [afterName, afterName, take_overlay_full (by decide) hname, take_overlay_full (by decide) hname]
  have h₂ : (afterInstance stack agename age).take 64 = (afterInstance stack' agename age).take 64 := by
    rw [afterInstance, afterInstance, take_overlay (by decide) le_rfl, h₁,
      ← take_overlay (by decide) le_rfl]
  have h₃ : (afterUser stack agename age).take 64 = (afterUser stack' agename age).take 64 := by
    rw [afterUser, afterUser, take_overlay (by decide) le_rfl, h₂, ← take_overlay (by decide) le_rfl]
  have h₄ : (afterDescription stack agename age).take 1024 =
      (afterDescription stack' agename age).take 1024 := by
    rw [afterDescription, afterDescription, take_overlay_full (by decide) hdescription,
      take_overlay_full (by decide) hdescription]
  rw [writeAge_eq, writeAge_eq, h₁, h₂, h₃, h₄]

/-- **A record that does not fill the array has some of the stack in it.** -/
theorem filled_of_steady {agename : String} {age : NetAgeInfo}
    (h : ∀ stack stack', writeAge stack agename age = writeAge stack' agename age) :
    Filled agename age := by
  have hsame := h (fun _ => 0) (fun _ => 1)
  rw [writeAge_eq, writeAge_eq] at hsame
  obtain ⟨h₁, -, -, h₄⟩ := record_inj (by simp [length_afterName]) (by simp [length_afterInstance])
    (by simp [length_afterUser]) (by simp [length_afterDescription]) (Option.some.inj hsame)
  constructor
  · by_contra hshort
    have hlast := congrArg (fun l : List UInt16 => l[63]?) h₁
    simp only [afterName, List.getElem?_take_of_lt (show 63 < 64 by decide)] at hlast
    rw [overlay_getElem? (.inl (by omega)) (by decide), overlay_getElem? (.inl (by omega)) (by decide),
      before_getElem? _ (by decide), before_getElem? _ (by decide)] at hlast
    exact absurd hlast (by decide)
  · by_contra hshort
    have hlast := congrArg (fun l : List UInt16 => l[1023]?) h₄
    have hunder : ∀ stack : Nat → UInt16, (afterDescription stack agename age)[1023]? =
        some (stack 1023) := by
      intro stack
      rw [afterDescription, overlay_getElem? (.inl (by omega)) (by decide), afterUser,
        overlay_getElem? (.inr (by decide)) (by decide), afterInstance,
        overlay_getElem? (.inr (by decide)) (by decide), afterName,
        overlay_getElem? (.inr (by decide)) (by decide), before_getElem? _ (by decide)]
    simp only [List.getElem?_take_of_lt (show 1023 < 1024 by decide), hunder] at hlast
    exact absurd hlast (by decide)

/-! ## Replies -/

theorem writeAges_cons {stack : Nat → Nat → UInt16} {agename : String} {i : Nat} {age : NetAgeInfo}
    {ages : List NetAgeInfo} {bytes rest : List UInt8} (h : writeAge (stack i) agename age = some bytes)
    (hrest : writeAges stack agename (i + 1) ages = some rest) :
    writeAges stack agename i (age :: ages) = some (bytes ++ rest) := by
  rw [writeAges, h, hrest]
  rfl

/-- **All of the records are written**, one behind the other. -/
theorem writeAges_records (stack : Nat → Nat → UInt16) (agename : String) (i : Nat)
    (ages : List NetAgeInfo) : ∃ records, writeAges stack agename i ages = some records.flatten ∧
      List.Forall₂ (IsRecord agename) ages records := by
  induction ages generalizing i with
  | nil => exact ⟨[], rfl, .nil⟩
  | cons age ages ih =>
    obtain ⟨bytes, hbytes, hrecord⟩ := writeAge_isRecord (stack i) agename age
    obtain ⟨records, hrecords, hall⟩ := ih (i + 1)
    exact ⟨bytes :: records, writeAges_cons hbytes hrecords, .cons hrecord hall⟩

/-- The record of an age, if the array were cleared for it. -/
def clearedRecord (agename : String) (age : NetAgeInfo) : List UInt8 :=
  (writeAge (fun _ => 0) agename age).getD []

theorem writeAge_cleared (agename : String) (age : NetAgeInfo) :
    writeAge (fun _ => 0) agename age = some (clearedRecord agename age) := by
  obtain ⟨bytes, hbytes, -⟩ := writeAge_isRecord (fun _ => 0) agename age
  rw [clearedRecord, hbytes]
  rfl

theorem writeAges_filled {agename : String} {ages : List NetAgeInfo}
    (h : ∀ age ∈ ages, Filled agename age) (stack : Nat → Nat → UInt16) (i : Nat) :
    writeAges stack agename i ages = some (ages.flatMap (clearedRecord agename)) := by
  induction ages generalizing i with
  | nil => rfl
  | cons age ages ih =>
    have hage : writeAge (stack i) agename age = some (clearedRecord agename age) := by
      rw [writeAge_steady (h age List.mem_cons_self) (stack i) fun _ => 0]
      exact writeAge_cleared agename age
    exact writeAges_cons hage (ih (fun a ha => h a (List.mem_cons_of_mem age ha)) (i + 1))

/-- Records have their places. -/
theorem writeAges_inj {stack stack' : Nat → Nat → UInt16} {agename : String} {i : Nat}
    {age : NetAgeInfo} {ages : List NetAgeInfo}
    (h : writeAges stack agename i (age :: ages) = writeAges stack' agename i (age :: ages)) :
    writeAge (stack i) agename age = writeAge (stack' i) agename age ∧
      writeAges stack agename (i + 1) ages = writeAges stack' agename (i + 1) ages := by
  obtain ⟨bytes, hbytes, hrecord⟩ := writeAge_isRecord (stack i) agename age
  obtain ⟨bytes', hbytes', hrecord'⟩ := writeAge_isRecord (stack' i) agename age
  obtain ⟨records, hrecords, -⟩ := writeAges_records stack agename (i + 1) ages
  obtain ⟨records', hrecords', -⟩ := writeAges_records stack' agename (i + 1) ages
  rw [writeAges_cons hbytes hrecords, writeAges_cons hbytes' hrecords'] at h
  obtain ⟨hfirst, hrest⟩ := List.append_inj (Option.some.inj h) (hrecord.1.trans hrecord'.1.symm)
  rw [hbytes, hbytes', hrecords, hrecords', hfirst, hrest]
  exact ⟨rfl, rfl⟩

theorem filled_of_writeAges {agename : String} {ages : List NetAgeInfo} {i : Nat}
    (h : ∀ stack stack', writeAges stack agename i ages = writeAges stack' agename i ages) :
    ∀ age ∈ ages, Filled agename age := by
  induction ages generalizing i with
  | nil => exact fun age hage => absurd hage List.not_mem_nil
  | cons age ages ih =>
    refine List.forall_mem_cons.2 ⟨filled_of_steady fun stack stack' => ?_, ?_⟩
    · exact (writeAges_inj (h (fun _ => stack) fun _ => stack')).1
    · exact ih fun stack stack' => (writeAges_inj (h stack stack')).2

/-- The ages of a reply. -/
def sent (code : NetResultCode) (ages : List NetAgeInfo) : List NetAgeInfo :=
  if code ≠ .success then [] else ages

theorem getPublicAges_eq (stack : Nat → Nat → UInt16) (transId : UInt32) (agename : String)
    (code : NetResultCode) (ages : List NetAgeInfo) :
    getPublicAges stack transId agename code ages =
      (writeAges stack agename 0 (sent code ages)).map fun records =>
        header transId code (UInt32.ofNat (sent code ages).length) ++ records := by
  by_cases hcode : code ≠ .success
  · rw [getPublicAges, sent, if_pos hcode, if_pos hcode]
    show _ = some (header transId code 0 ++ [])
    rw [List.append_nil]
  · rw [getPublicAges, sent, if_neg hcode, if_neg hcode]

/-- Nothing of the stack is sent, nor of another age: the reply is what cleared arrays give. -/
def Leakless (transId : UInt32) (agename : String) (code : NetResultCode) (ages : List NetAgeInfo) :
    Prop :=
  ∀ stack, getPublicAges stack transId agename code ages =
    some (header transId code (UInt32.ofNat (sent code ages).length) ++
      (sent code ages).flatMap (clearedRecord agename))

theorem filled_of_leakless {transId : UInt32} {agename : String} {code : NetResultCode}
    {ages : List NetAgeInfo} (h : Leakless transId agename code ages) :
    ∀ age ∈ sent code ages, Filled agename age := by
  have hrecords : ∀ stack, writeAges stack agename 0 (sent code ages) =
      some ((sent code ages).flatMap (clearedRecord agename)) := by
    intro stack
    have hreply := h stack
    rw [getPublicAges_eq] at hreply
    obtain ⟨records, hrecords, hsame⟩ := Option.map_eq_some_iff.1 hreply
    rw [hrecords, List.append_cancel_left hsame]
  refine filled_of_writeAges (i := 0) fun stack stack' => ?_
  rw [hrecords, hrecords]

/-- **A reply has its records**, each with the stride of the protocol and the texts of its age; and
none of the stack is in it if and only if every record fills the array. -/
theorem getPublicAges_leakless_iff (transId : UInt32) (agename : String) (code : NetResultCode)
    (ages : List NetAgeInfo) :
    (∀ stack, ∃ records, getPublicAges stack transId agename code ages =
        some (header transId code (UInt32.ofNat (sent code ages).length) ++ records.flatten) ∧
      List.Forall₂ (IsRecord agename) (sent code ages) records) ∧
    (Leakless transId agename code ages ↔ ∀ age ∈ sent code ages, Filled agename age) := by
  refine ⟨fun stack => ?_, filled_of_leakless, fun h stack => ?_⟩
  · obtain ⟨records, hrecords, hall⟩ := writeAges_records stack agename 0 (sent code ages)
    refine ⟨records, ?_, hall⟩
    rw [getPublicAges_eq, hrecords]
    rfl
  · rw [getPublicAges_eq, writeAges_filled h]
    rfl

/-- An age without texts. -/
def emptyAge : NetAgeInfo := ⟨.null, "", "", "", 0, 0, 0, 0⟩

/-- The reply for one age with short texts has some of the stack in it. -/
theorem getPublicAges_leaks : ¬ Leakless 1 "city" .success [emptyAge] := by
  intro h
  have hfilled := filled_of_leakless h emptyAge List.mem_cons_self
  exact absurd hfilled.1 (by decide)

end Dirtsand.PublicAges
