import Dirtsand.AuthServ.VaultCodec
import Dirtsand.AuthServ.VaultStore

/-!
# Vault nodes that are cut off

`cb_nodeCreate` and `cb_nodeUpdate` (AuthServ/AuthServer.cpp) read a node from the
bytes of a request, into a `Node` on the stack whose numbers nobody set, and
into buffers from the heap.  A number and a length are read with a check for the
end of the bytes.  The contents of a string, a blob, and the last half of an UUID
are not.

* `NodeData.readFields_error` — the reader throws where a checked read goes over
  the end, or where a string has an odd length.
* `checkedEnd_take` — a cut is noticed if it comes before the last check.
* `NodeData.checkedEnd_write` — where that is in an encoded node.
-/

namespace Dirtsand.Vault

open Lib.Reader (bind_eq_ok bind_of_ok bind_of_error nat_of_le nat_of_lt leValue leBytes
  leValue_leBytes length_leBytes)
open Streams (readU16 readU32 readU64 writeU16 writeU32 writeU64)

/-! ## How long a member is -/

/-- The bytes of a member that are read with a check: the number, the length, or the first
fields of the UUID. -/
def Kind.checked : Kind → Nat
  | .uuid => 8
  | _ => 4

/-- The bytes that are read after them, with no check. -/
def Kind.bulk (k : Kind) (bytes : List UInt8) : Nat :=
  match k with
  | .uint32 | .int32 => 0
  | .uuid => 8
  | .string | .blob => leValue (bytes.take 4)

def Kind.width (k : Kind) (bytes : List UInt8) : Nat := k.checked + k.bulk bytes

/-- The reader throws at this member: the bytes end too early, or are no whole units. -/
def Kind.stops (k : Kind) (bytes : List UInt8) : Bool :=
  bytes.length < k.checked || (k = .string && k.bulk bytes % 2 ≠ 0)

/-- Where the last check is, if these members are read from the bytes and no check fails. -/
def checkedEnd : List Kind → List UInt8 → Option Nat
  | [], _ => some 0
  | k :: ks, bytes =>
    if k.stops bytes then none
    else (checkedEnd ks (bytes.drop (k.width bytes))).map fun e =>
      if ks = [] then k.checked else k.width bytes + e

/-! ## Reading a member -/

theorem readU32_of_le {bytes : List UInt8} (h : 4 ≤ bytes.length) :
    readU32 bytes = .ok (UInt32.ofNat (leValue (bytes.take 4)), bytes.drop 4) :=
  bind_of_ok (nat_of_le _ h)

theorem readU32_of_lt {bytes : List UInt8} (h : bytes.length < 4) :
    readU32 bytes = .error .eof :=
  bind_of_error (nat_of_lt _ h)

theorem readU16_of_le {bytes : List UInt8} (h : 2 ≤ bytes.length) :
    readU16 bytes = .ok (UInt16.ofNat (leValue (bytes.take 2)), bytes.drop 2) :=
  bind_of_ok (nat_of_le _ h)

theorem readU16_of_lt {bytes : List UInt8} (h : bytes.length < 2) :
    readU16 bytes = .error .eof :=
  bind_of_error (nat_of_lt _ h)

theorem readU64_of_le {bytes : List UInt8} (h : 8 ≤ bytes.length) :
    readU64 bytes = .ok (UInt64.ofNat (leValue (bytes.take 8)), bytes.drop 8) :=
  bind_of_ok (nat_of_le _ h)

theorem readU64_of_lt {bytes : List UInt8} (h : bytes.length < 8) :
    readU64 bytes = .error .eof :=
  bind_of_error (nat_of_lt _ h)

/-- A length field, as the number that it is. -/
theorem toNat_length {bytes : List UInt8} (h : 4 ≤ bytes.length) :
    (UInt32.ofNat (leValue (bytes.take 4))).toNat = leValue (bytes.take 4) := by
  have hlt := Lib.Reader.leValue_lt (bytes.take 4)
  rw [List.length_take, min_eq_left h] at hlt
  exact UInt32.toNat_ofNat_of_lt' hlt

theorem readUuid_of_lt (old : Uuid) {bytes : List UInt8} (h : bytes.length < 8) :
    ∃ e, readUuid old bytes = .error e := by
  refine ⟨.eof, ?_⟩
  by_cases h4 : 4 ≤ bytes.length
  · refine (bind_of_ok (readU32_of_le h4)).trans ?_
    by_cases h6 : 2 ≤ (bytes.drop 4).length
    · refine (bind_of_ok (readU16_of_le h6)).trans (bind_of_error (readU16_of_lt ?_))
      rw [List.length_drop, List.length_drop]
      omega
    · exact bind_of_error (readU16_of_lt (not_le.1 h6))
  · exact bind_of_error (readU32_of_lt (not_le.1 h4))

theorem readUuid_of_le (old : Uuid) {bytes : List UInt8} (h : 8 ≤ bytes.length) :
    ∃ uuid, readUuid old bytes = .ok (uuid, bytes.drop 16) := by
  have h6 : 2 ≤ (bytes.drop 4).length := by
    rw [List.length_drop]
    omega
  have h8 : 2 ≤ ((bytes.drop 4).drop 2).length := by
    rw [List.length_drop, List.length_drop]
    omega
  have hdrop : (((bytes.drop 4).drop 2).drop 2).drop 8 = bytes.drop 16 := by
    rw [List.drop_drop, List.drop_drop, List.drop_drop]
  rw [readUuid, bind_of_ok (readU32_of_le (by omega)), bind_of_ok (readU16_of_le h6),
    bind_of_ok (readU16_of_le h8), ← hdrop]
  exact ⟨_, rfl⟩

theorem Kind.stops_of_lt {k : Kind} {bytes : List UInt8} (h : bytes.length < k.checked) :
    k.stops bytes = true := by
  rw [stops, decide_eq_true h, Bool.true_or]

theorem Kind.stops_of_le {k : Kind} {bytes : List UInt8} (h : k.checked ≤ bytes.length) :
    k.stops bytes = (k = .string && k.bulk bytes % 2 ≠ 0) := by
  rw [stops, decide_eq_false (not_lt.2 h), Bool.false_or]

theorem Kind.stops_eq_false {k : Kind} {bytes : List UInt8} (hk : k ≠ .string)
    (h : k.checked ≤ bytes.length) : k.stops bytes = false := by
  rw [stops_of_le h, decide_eq_false hk, Bool.false_and]

/-- What is in a buffer of `n` bytes after `readBytes`. -/
def buffer (memory : Nat → UInt8) (n : Nat) (bytes : List UInt8) : List UInt8 :=
  bytes.take n ++ (List.range' bytes.length (n - bytes.length)).map memory

theorem readBlob_of_le (memory : Nat → UInt8) {bytes : List UInt8} (h : 4 ≤ bytes.length) :
    readBlob memory bytes = .ok (buffer memory (Kind.blob.bulk bytes) (bytes.drop 4),
      bytes.drop (Kind.blob.width bytes)) := by
  rw [readBlob, bind_of_ok (readU32_of_le h), toNat_length h, readBytes, List.drop_drop]
  rfl

section

variable (fromUtf16 : List UInt16 → String)

theorem readVaultString_of_le (memory : Nat → UInt8) {bytes : List UInt8} (h : 4 ≤ bytes.length) :
    readVaultString fromUtf16 memory bytes =
      if Kind.string.bulk bytes % 2 ≠ 0 then .error .malformedData
      else .ok (fromUtf16 (unitsOfBytes (buffer memory (Kind.string.bulk bytes) (bytes.drop 4))),
        bytes.drop (Kind.string.width bytes)) := by
  have hodd : UInt32.ofNat (leValue (bytes.take 4)) % 2 ≠ 0 ↔ Kind.string.bulk bytes % 2 ≠ 0 := by
    rw [ne_eq, ← UInt32.toNat_inj, UInt32.toNat_mod, toNat_length h]
    rfl
  rw [readVaultString, bind_of_ok (readU32_of_le h)]
  by_cases hunits : Kind.string.bulk bytes % 2 ≠ 0
  · rw [if_pos (hodd.2 hunits), if_pos hunits]
    rfl
  · rw [if_neg (mt hodd.1 hunits), if_neg hunits, bind_of_ok rfl, toNat_length h, List.drop_drop]
    rfl

/-- **A member stops the reader, or is read with its width.** -/
theorem Kind.read_spec (memory : Nat → UInt8) (k : Kind) (old : k.Value) (bytes : List UInt8) :
    (k.stops bytes = true ∧ ∃ e, k.read fromUtf16 memory old bytes = .error e) ∨
      (k.stops bytes = false ∧
        ∃ v, k.read fromUtf16 memory old bytes = .ok (v, bytes.drop (k.width bytes))) := by
  by_cases h : k.checked ≤ bytes.length
  · cases k with
    | uint32 => exact .inr ⟨stops_eq_false (by decide) h, _, readU32_of_le h⟩
    | int32 => exact .inr ⟨stops_eq_false (by decide) h, _, bind_of_ok (readU32_of_le h)⟩
    | uuid => exact .inr ⟨stops_eq_false (by decide) h, readUuid_of_le old h⟩
    | blob => exact .inr ⟨stops_eq_false (by decide) h, _, readBlob_of_le memory h⟩
    | string =>
      have hread := readVaultString_of_le fromUtf16 memory h
      rw [stops_of_le h]
      by_cases hunits : Kind.string.bulk bytes % 2 ≠ 0
      · rw [if_pos hunits] at hread
        exact .inl ⟨decide_eq_true hunits, _, hread⟩
      · rw [if_neg hunits] at hread
        exact .inr ⟨decide_eq_false hunits, _, hread⟩
  · rw [not_le] at h
    refine .inl ⟨stops_of_lt h, ?_⟩
    cases k with
    | uint32 => exact ⟨_, readU32_of_lt h⟩
    | uuid => exact readUuid_of_lt old h
    | int32 => exact ⟨_, bind_of_error (readU32_of_lt h)⟩
    | blob => exact ⟨_, bind_of_error (readU32_of_lt h)⟩
    | string => exact ⟨_, bind_of_error (readU32_of_lt h)⟩

/-! ## Reading the members that a node has -/

/-- The members that a node has, in the order in which they are read. -/
def NodeData.kinds (n : NodeData) (fs : List Field) : List Kind := (fs.filter n.has).map Field.kind

theorem NodeData.kinds_cons (n : NodeData) (f : Field) (fs : List Field) :
    n.kinds (f :: fs) = (if n.has f then [f.kind] else []) ++ n.kinds fs := by
  rw [kinds, List.filter_cons]
  split <;> rfl

variable {fromUtf16}

/-- **The reader throws where a check fails**, and reads all the members where none does. -/
theorem NodeData.readFields_error (memory : Field → Nat → UInt8) (fs : List Field) (n : NodeData)
    (bytes : List UInt8) :
    (checkedEnd (n.kinds fs) bytes = none ↔
      ∃ e, readFields fromUtf16 memory fs n bytes = .error e) := by
  induction fs generalizing n bytes with
  | nil =>
    constructor
    · intro h
      cases h
    · rintro ⟨e, h⟩
      cases h
  | cons f fs ih =>
    rw [kinds_cons]
    by_cases hf : n.has f = true
    · rw [if_pos hf, List.singleton_append, checkedEnd, readFields]
      obtain ⟨hstops, e, hread⟩ | ⟨hstops, v, hread⟩ :=
        f.kind.read_spec fromUtf16 (memory f) (n.value f) bytes
      · have hfield : readField fromUtf16 memory f n bytes = .error e := by
          rw [readField, if_pos hf]
          exact bind_of_error hread
        rw [if_pos hstops]
        exact ⟨fun _ => ⟨e, bind_of_error hfield⟩, fun _ => rfl⟩
      · have hfield : readField fromUtf16 memory f n bytes =
            .ok (n.assign f v, bytes.drop (f.kind.width bytes)) := by
          rw [readField, if_pos hf]
          exact (bind_of_ok hread).trans rfl
        rw [if_neg (by rw [hstops]; decide), bind_of_ok hfield, Option.map_eq_none_iff, ← ih]
        rfl
    · have hfield : readField fromUtf16 memory f n bytes = .ok (n, bytes) := by
        rw [readField, if_neg hf]
        rfl
      rw [if_neg hf, List.nil_append, readFields, bind_of_ok hfield]
      exact ih n bytes

/-! ## Where a cut is noticed -/

theorem Kind.checked_pos (k : Kind) : 4 ≤ k.checked := by
  cases k <;> decide

theorem Kind.bulk_take {k : Kind} {bytes : List UInt8} {j : Nat} (h : k.checked ≤ j) :
    k.bulk (bytes.take j) = k.bulk bytes := by
  have hfour := k.checked_pos
  have htake : (bytes.take j).take 4 = bytes.take 4 := by
    rw [List.take_take, min_eq_left (by omega)]
  cases k <;> first | rfl | exact congrArg leValue htake

theorem checkedEnd_pos {ks : List Kind} {bytes : List UInt8} {e : Nat} (hks : ks ≠ [])
    (h : checkedEnd ks bytes = some e) : 0 < e := by
  obtain _ | ⟨k, ks⟩ := ks
  · exact absurd rfl hks
  · rw [checkedEnd] at h
    split at h
    · cases h
    · obtain ⟨e', -, rfl⟩ := Option.map_eq_some_iff.1 h
      have hfour := k.checked_pos
      rw [Kind.width]
      split <;> omega

/-- **The bytes up to `j` are enough for every check where `j` is not before the last one.** -/
theorem checkedEnd_take {ks : List Kind} {bytes : List UInt8} {j : Nat} (hj : j ≤ bytes.length) :
    checkedEnd ks (bytes.take j) = none ↔ ∀ e, checkedEnd ks bytes = some e → j < e := by
  induction ks generalizing bytes j with
  | nil =>
    constructor
    · intro h
      cases h
    · intro h
      exact absurd (h 0 rfl) (Nat.not_lt_zero j)
  | cons k ks ih =>
    rw [checkedEnd, checkedEnd]
    by_cases hchecked : k.checked ≤ j
    · have hlen : (bytes.take j).length = j := by rw [List.length_take, min_eq_left hj]
      have hbulk : k.bulk (bytes.take j) = k.bulk bytes := k.bulk_take hchecked
      have hstops : k.stops (bytes.take j) = k.stops bytes := by
        rw [Kind.stops_of_le (by rw [hlen]; exact hchecked), Kind.stops_of_le (by omega), hbulk]
      have hwidth : k.width (bytes.take j) = k.width bytes := by rw [Kind.width, Kind.width, hbulk]
      rw [hstops, hwidth]
      split
      · constructor
        · intro _ e h
          cases h
        · intro _
          rfl
      · have hdrop : (bytes.take j).drop (k.width bytes) =
            (bytes.drop (k.width bytes)).take (j - k.width bytes) := List.drop_take ..
        have hrest : j - k.width bytes ≤ (bytes.drop (k.width bytes)).length := by
          rw [List.length_drop]
          omega
        rw [Option.map_eq_none_iff, hdrop, ih hrest]
        by_cases hks : ks = []
        · subst hks
          constructor
          · intro h
            exact absurd (h 0 rfl) (Nat.not_lt_zero _)
          · intro h
            exact absurd (h k.checked rfl) (not_lt.2 hchecked)
        · simp only [if_neg hks, Option.map_eq_some_iff, forall_exists_index, and_imp]
          constructor
          · rintro h e e' he' rfl
            have hlt := h e' he'
            omega
          · intro h e' he'
            have hlt := h _ e' he' rfl
            have hpos := checkedEnd_pos hks he'
            omega
    · rw [not_le] at hchecked
      have hshort : k.stops (bytes.take j) = true := by
        apply Kind.stops_of_lt
        rw [List.length_take]
        omega
      rw [if_pos hshort]
      refine ⟨fun _ e h => ?_, fun _ => rfl⟩
      split at h
      · cases h
      · obtain ⟨e', -, rfl⟩ := Option.map_eq_some_iff.1 h
        rw [Kind.width]
        split <;> omega

/-! ## Encoded members -/

/-- The bytes of an encoded member after the last check. -/
def Kind.trailing (k : Kind) (v : k.Value) : Nat := (k.write v).length - k.checked

theorem bulk_of_length (size : UInt32) (bytes : List UInt8) :
    leValue ((writeU32 size ++ bytes).take 4) = size.toNat := by
  rw [writeU32, List.take_left' (length_leBytes 4 size.toNat)]
  exact leValue_leBytes size.toNat_lt

theorem length_writeUuid (uuid : Uuid) : (writeUuid uuid).length = 16 := by
  simp only [writeUuid, writeU32, writeU16, List.length_append, length_leBytes,
    Vector.length_toList]

theorem length_writeVaultString (s : String) :
    (writeVaultString s).length = 4 + ((toUtf16 s).length + 1) * 2 := by
  simp only [writeVaultString, writeU32, writeU16, List.length_append, length_leBytes,
    length_bytesOfUnits]
  omega

/-- A value whose length fits is as wide as its encoding, and does not stop the reader. -/
theorem Kind.width_write {k : Kind} {v : k.Value} (h : k.Fits v) (rest : List UInt8) :
    k.width (k.write v ++ rest) = (k.write v).length ∧ k.stops (k.write v ++ rest) = false := by
  cases k with
  | uint32 =>
    have hlen : (writeU32 v).length = 4 := length_leBytes 4 _
    refine ⟨hlen.symm, stops_eq_false (by decide) ?_⟩
    rw [List.length_append]
    exact Nat.le_add_right_of_le hlen.ge
  | int32 =>
    have hlen : (writeU32 v.toUInt32).length = 4 := length_leBytes 4 _
    refine ⟨hlen.symm, stops_eq_false (by decide) ?_⟩
    rw [List.length_append]
    exact Nat.le_add_right_of_le hlen.ge
  | uuid =>
    have hlen := length_writeUuid v
    refine ⟨hlen.symm, stops_eq_false (by decide) ?_⟩
    rw [List.length_append]
    show 8 ≤ (writeUuid v).length + rest.length
    omega
  | blob =>
    have hsize : (UInt32.ofNat v.length).toNat = v.length := UInt32.toNat_ofNat_of_lt' h
    have hbulk : leValue ((writeBlob v ++ rest).take 4) = v.length := by
      rw [writeBlob, List.append_assoc, bulk_of_length, hsize]
    have hlen : (writeBlob v).length = 4 + v.length := by
      rw [writeBlob, List.length_append, writeU32, length_leBytes]
    refine ⟨?_, stops_eq_false (by decide) ?_⟩
    · show 4 + leValue ((writeBlob v ++ rest).take 4) = (writeBlob v).length
      rw [hbulk, hlen]
    · rw [List.length_append]
      show 4 ≤ (writeBlob v).length + rest.length
      omega
  | string =>
    have hshort : (toUtf16 v).length + 1 < 2 ^ 31 := h
    have hsize : (UInt32.ofNat (((toUtf16 v).length + 1) * 2)).toNat =
        ((toUtf16 v).length + 1) * 2 :=
      UInt32.toNat_ofNat_of_lt' (show _ < 2 ^ 32 by omega)
    have hbulk : leValue ((writeVaultString v ++ rest).take 4) = ((toUtf16 v).length + 1) * 2 := by
      rw [writeVaultString, List.append_assoc, bulk_of_length, hsize]
    have hlen := length_writeVaultString v
    refine ⟨?_, ?_⟩
    · show 4 + leValue ((writeVaultString v ++ rest).take 4) = (writeVaultString v).length
      rw [hbulk, hlen]
    · have hfour : Kind.string.checked ≤ (writeVaultString v ++ rest).length := by
        rw [List.length_append]
        show 4 ≤ (writeVaultString v).length + rest.length
        omega
      show Kind.string.stops (writeVaultString v ++ rest) = false
      rw [stops_of_le hfour]
      show (true && decide (leValue ((writeVaultString v ++ rest).take 4) % 2 ≠ 0)) = false
      rw [hbulk, Bool.true_and, decide_eq_false_iff_not, not_not]
      omega

theorem Kind.checked_le_write (k : Kind) (v : k.Value) : k.checked ≤ (k.write v).length := by
  cases k with
  | uint32 => exact (length_leBytes 4 v.toNat).ge
  | int32 => exact (length_leBytes 4 v.toUInt32.toNat).ge
  | uuid =>
    show 8 ≤ (writeUuid v).length
    rw [length_writeUuid]
    decide
  | string =>
    show 4 ≤ (writeVaultString v).length
    rw [length_writeVaultString]
    omega
  | blob =>
    show 4 ≤ (writeU32 _ ++ v).length
    rw [List.length_append, writeU32, length_leBytes]
    omega

/-- The bytes of an encoded node after the last check: those of its last member. -/
def NodeData.trailing (n : NodeData) (fs : List Field) : Nat :=
  match (fs.filter n.has).getLast? with
  | some f => f.kind.trailing (n.value f)
  | none => 0

theorem NodeData.length_writeFields (n : NodeData) (fs : List Field) :
    n.trailing fs ≤ (fs.flatMap n.writeField).length := by
  induction fs with
  | nil => exact Nat.le_refl 0
  | cons f fs ih =>
    rw [List.flatMap_cons, List.length_append, writeField]
    by_cases hf : n.has f = true
    · rw [if_pos hf]
      cases hfs : fs.filter n.has with
      | nil =>
        have hlast : n.trailing (f :: fs) = f.kind.trailing (n.value f) := by
          rw [trailing, List.filter_cons_of_pos hf, hfs]
          rfl
        rw [hlast, Kind.trailing]
        omega
      | cons g gs =>
        have hlast : n.trailing (f :: fs) = n.trailing fs := by
          rw [trailing, trailing, List.filter_cons_of_pos hf, hfs, List.getLast?_cons_cons]
        rw [hlast]
        omega
    · have hlast : n.trailing (f :: fs) = n.trailing fs := by
        rw [trailing, trailing, List.filter_cons_of_neg hf]
      rw [hlast]
      omega

/-- The last check of an encoded node comes before the bytes that its last member ends with. -/
theorem NodeData.checkedEnd_write {n : NodeData} {fs : List Field}
    (hfits : ∀ f ∈ fs, n.has f = true → f.kind.Fits (n.value f)) :
    checkedEnd (n.kinds fs) (fs.flatMap n.writeField) =
      some ((fs.flatMap n.writeField).length - n.trailing fs) := by
  induction fs with
  | nil => rfl
  | cons f fs ih =>
    have hrest := ih fun g hg => hfits g (List.mem_cons_of_mem f hg)
    rw [kinds_cons, List.flatMap_cons]
    by_cases hf : n.has f = true
    · obtain ⟨hwidth, hstops⟩ := Kind.width_write (hfits f List.mem_cons_self hf)
        (fs.flatMap n.writeField)
      have hle := Kind.checked_le_write f.kind (n.value f)
      rw [if_pos hf, List.singleton_append, checkedEnd, writeField, if_pos hf,
        if_neg (by rw [hstops]; decide), hwidth, List.drop_left, hrest, Option.map_some,
        List.length_append]
      cases hfs : fs.filter n.has with
      | nil =>
        have hkinds : n.kinds fs = [] := by rw [kinds, hfs, List.map_nil]
        have hnone : ∀ g ∈ fs, n.writeField g = [] := by
          intro g hg
          rw [writeField, if_neg]
          intro hhas
          have hmem : g ∈ fs.filter n.has := List.mem_filter.2 ⟨hg, hhas⟩
          rw [hfs] at hmem
          cases hmem
        have hempty : fs.flatMap n.writeField = [] := List.flatMap_eq_nil_iff.2 hnone
        have hlast : n.trailing (f :: fs) = f.kind.trailing (n.value f) := by
          rw [trailing, List.filter_cons_of_pos hf, hfs]
          rfl
        rw [if_pos hkinds, hempty, List.length_nil, hlast, Kind.trailing]
        congr 1
        omega
      | cons g gs =>
        have hkinds : n.kinds fs ≠ [] := by
          rw [kinds, hfs, List.map_cons]
          exact List.cons_ne_nil _ _
        have hlast : n.trailing (f :: fs) = n.trailing fs := by
          rw [trailing, trailing, List.filter_cons_of_pos hf, hfs, List.getLast?_cons_cons]
        have hbound := n.length_writeFields fs
        rw [if_neg hkinds, hlast]
        congr 1
        omega
    · have hlast : n.trailing (f :: fs) = n.trailing fs := by
        rw [trailing, trailing, List.filter_cons_of_neg hf]
      rw [if_neg hf, List.nil_append, writeField, if_neg hf, List.nil_append, hrest, hlast]

end

end Dirtsand.Vault
