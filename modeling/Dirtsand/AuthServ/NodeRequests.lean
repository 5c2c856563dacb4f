import Dirtsand.AuthServ.VaultCuts

/-!
# What a request stores of its memory

`cb_nodeCreate` and `cb_nodeUpdate` (AuthServ/AuthServer.cpp) read into a `Node`
on the stack, whose numbers nobody set, and into buffers from the heap.  What the
daemon makes of the node is a statement.

* `NodeData.readFields_member` — every member is read where the members before it
  end.
* `Kind.read_settled`, `Kind.read_unsettled` — the text of a member is up to its
  bytes if they fill its buffer, or end a string, and only then.
* `cuts_noticed` — which cuts through an encoded node the reader notices, and of
  which bytes the statements depend on nothing else.
-/

namespace Dirtsand.Vault

open Lib.Reader (bind_eq_ok bind_of_ok bind_of_error leValue)
open Streams (readU32 readU64 writeU64)

/-! ## Units that are characters of their own -/

/-- What `ST::string::from_utf16` does with units that are no surrogates: they are
characters wherever they are, and a NUL comes of nothing else. -/
structure Splits (fromUtf16 : List UInt16 → String) : Prop where
  append : ∀ units u units', isSurrogate u = false →
    (fromUtf16 (units ++ u :: units')).toList =
      (fromUtf16 units).toList ++ Char.ofNat u.toNat :: (fromUtf16 units').toList
  nul : ∀ units, '\x00' ∈ (fromUtf16 units).toList → 0 ∈ units

theorem toNat_ofNat_unit {u : UInt16} (hu : isSurrogate u = false) :
    (Char.ofNat u.toNat).toNat = u.toNat := by
  have hvalid : u.toNat.isValidChar := by
    rw [isSurrogate, Bool.and_eq_false_iff, decide_eq_false_iff_not, decide_eq_false_iff_not] at hu
    have hlt := u.toNat_lt
    rw [Nat.isValidChar]
    omega
  rw [Char.toNat_ofNat, if_pos hvalid]

theorem decodeUnits_append {u : UInt16} (hu : isSurrogate u = false) (units units' : List UInt16) :
    decodeUnits (units ++ u :: units') =
      decodeUnits units ++ Char.ofNat u.toNat :: decodeUnits units' := by
  induction units using decodeUnits.induct with
  | case1 => exact decodeUnits_cons hu units'
  | case2 v =>
    have hpair : ¬ (0xD800 ≤ v.toNat ∧ v.toNat < 0xDC00 ∧ 0xDC00 ≤ u.toNat ∧ u.toNat < 0xE000) := by
      rintro ⟨-, -, hlow, hhigh⟩
      rw [isSurrogate, Bool.and_eq_false_iff, decide_eq_false_iff_not, decide_eq_false_iff_not] at hu
      omega
    show decodeUnits (v :: u :: units') = _
    rw [decodeUnits, decodeUnits, if_neg hpair, decodeUnits_cons hu]
    rfl
  | case3 v w units hpair ih =>
    rw [decodeUnits, if_pos hpair]
    show decodeUnits (v :: w :: (units ++ u :: units')) = _
    rw [decodeUnits, if_pos hpair, ih]
    rfl
  | case4 v w units hpair ih =>
    rw [decodeUnits, if_neg hpair]
    show decodeUnits (v :: w :: (units ++ u :: units')) = _
    rw [decodeUnits, if_neg hpair, ← List.cons_append, ih]
    rfl

theorem decodeUnit_nul {u : UInt16}
    (h : (if isSurrogate u then '\uFFFD' else Char.ofNat u.toNat) = '\x00') : u = 0 := by
  cases hu : isSurrogate u with
  | true =>
    rw [hu, if_pos rfl] at h
    exact absurd h (by decide)
  | false =>
    rw [hu] at h
    have hnat := congrArg Char.toNat h
    rw [if_neg (by decide), toNat_ofNat_unit hu] at hnat
    exact UInt16.toNat_inj.1 hnat

theorem decodeUnits_nul {units : List UInt16} (h : '\x00' ∈ decodeUnits units) : 0 ∈ units := by
  induction units using decodeUnits.induct with
  | case1 => cases h
  | case2 u =>
    rw [decodeUnits, List.mem_singleton] at h
    rw [decodeUnit_nul h.symm]
    exact List.mem_singleton_self 0
  | case3 u v units hpair ih =>
    rw [decodeUnits, if_pos hpair, List.mem_cons] at h
    obtain h | h := h
    · have hnat := congrArg Char.toNat h
      have hvalid : (0x10000 + (u.toNat - 0xD800) * 0x400 + (v.toNat - 0xDC00)).isValidChar := by
        rw [Nat.isValidChar]
        omega
      have hzero : '\x00'.toNat = 0 := rfl
      rw [hzero, Char.toNat_ofNat, if_pos hvalid] at hnat
      omega
    · exact List.mem_cons_of_mem u (List.mem_cons_of_mem v (ih h))
  | case4 u v units hpair ih =>
    rw [decodeUnits, if_neg hpair, List.mem_cons] at h
    obtain h | h := h
    · rw [decodeUnit_nul h.symm]
      exact List.mem_cons_self
    · exact List.mem_cons_of_mem u (ih h)

theorem splits_decodeUtf16 : Splits decodeUtf16 where
  append units u units' hu := by
    rw [decodeUtf16, decodeUtf16, decodeUtf16, String.toList_ofList, String.toList_ofList,
      String.toList_ofList, decodeUnits_append hu]
  nul units h := by
    rw [decodeUtf16, String.toList_ofList] at h
    exact decodeUnits_nul h

section

variable {fromUtf16 : List UInt16 → String} (hsplits : Splits fromUtf16)

include hsplits

/-- A text ends at its first NUL. -/
theorem cstr_nul (units : List UInt16) {tail : List UInt16} (h : 0 ∈ units) :
    cstr (fromUtf16 (units ++ tail)) = cstr (fromUtf16 units) := by
  obtain ⟨units, units', rfl⟩ := List.append_of_mem h
  have hzero : isSurrogate 0 = false := rfl
  have hnul : Char.ofNat (0 : UInt16).toNat = '\x00' := rfl
  rw [List.append_assoc, List.cons_append, cstr, cstr, hsplits.append _ _ _ hzero,
    hsplits.append _ _ _ hzero, hnul, List.takeWhile_append, List.takeWhile_append]
  rfl

/-- A text does not end before its first NUL. -/
theorem cstr_ne {units tail tail' : List UInt16} (h : 0 ∉ units) {u u' : UInt16}
    (hu : u.toNat / 256 = 0) (hu' : u'.toNat / 256 = 1) :
    cstr (fromUtf16 (units ++ u :: tail)) ≠ cstr (fromUtf16 (units ++ u' :: tail')) := by
  have hplain : ∀ v : UInt16, v.toNat / 256 ≤ 1 → isSurrogate v = false := by
    intro v hv
    rw [isSurrogate, Bool.and_eq_false_iff, decide_eq_false_iff_not]
    left
    omega
  have hs := hplain u (by omega)
  have hs' := hplain u' (by omega)
  have hall : ∀ c ∈ (fromUtf16 units).toList, decide (c ≠ '\x00') = true := by
    intro c hc
    refine decide_eq_true ?_
    rintro rfl
    exact h (hsplits.nul units hc)
  have hne : Char.ofNat u'.toNat ≠ '\x00' := by
    intro heq
    have hnat := congrArg Char.toNat heq
    rw [toNat_ofNat_unit hs'] at hnat
    have hzero : '\x00'.toNat = 0 := rfl
    omega
  intro heq
  have hlist := congrArg String.toList heq
  rw [cstr, cstr, hsplits.append _ _ _ hs, hsplits.append _ _ _ hs', String.toList_ofList,
    String.toList_ofList, List.takeWhile_append_of_pos hall, List.takeWhile_append_of_pos hall,
    List.append_cancel_left_eq, List.takeWhile_cons, List.takeWhile_cons,
    if_pos (decide_eq_true hne)] at hlist
  by_cases hend : Char.ofNat u.toNat ≠ '\x00'
  · rw [if_pos (decide_eq_true hend)] at hlist
    have hnat := congrArg Char.toNat (List.cons.inj hlist).1
    rw [toNat_ofNat_unit hs, toNat_ofNat_unit hs'] at hnat
    omega
  · rw [if_neg (by rw [decide_eq_false hend]; decide)] at hlist
    cases hlist

end

/-! ## Buffers that are not filled -/

theorem buffer_of_le (memory : Nat → UInt8) {n : Nat} {bytes : List UInt8} (h : n ≤ bytes.length) :
    buffer memory n bytes = bytes.take n := by
  rw [buffer, Nat.sub_eq_zero_of_le h]
  exact List.append_nil _

theorem buffer_const (b : UInt8) {n : Nat} {bytes : List UInt8} (h : bytes.length ≤ n) :
    buffer (fun _ => b) n bytes = bytes ++ List.replicate (n - bytes.length) b := by
  rw [buffer, List.take_of_length_le h, List.map_const', List.length_range']

/-- Whole units come after bytes in a buffer: of the first of them, half is memory. -/
theorem unitsOfBytes_append (bytes : List UInt8) {more : List UInt8} (hmore : more ≠ [])
    (heven : (bytes.length + more.length) % 2 = 0) :
    ∃ u units, unitsOfBytes (bytes ++ more) = unitsOfBytes bytes ++ u :: units ∧
      ∃ b ∈ more, u.toNat / 256 = b.toNat := by
  have hhigh : ∀ a b : UInt8, (UInt16.ofNat (a.toNat + 256 * b.toNat)).toNat / 256 = b.toNat := by
    intro a b
    have ha := a.toNat_lt
    have hb := b.toNat_lt
    rw [UInt16.toNat_ofNat_of_lt' (show _ < 65536 by omega)]
    omega
  induction bytes using unitsOfBytes.induct with
  | case1 a b bytes ih =>
    rw [List.length_cons, List.length_cons] at heven
    obtain ⟨u, units, heq, hb⟩ := ih (by omega)
    refine ⟨u, units, ?_, hb⟩
    show _ :: unitsOfBytes (bytes ++ more) = _
    rw [heq, unitsOfBytes]
    rfl
  | case2 bytes hshort =>
    obtain _ | ⟨x, more⟩ := more
    · exact absurd rfl hmore
    obtain _ | ⟨a, _ | ⟨b, bytes⟩⟩ := bytes
    · obtain _ | ⟨y, more⟩ := more
      · cases heven
      · exact ⟨_, _, rfl, y, List.mem_cons_of_mem x List.mem_cons_self, hhigh x y⟩
    · exact ⟨_, _, rfl, x, List.mem_cons_self, hhigh a x⟩
    · exact absurd rfl (hshort a b bytes)

/-! ## The text of a member -/

/-- The text of a member is up to its bytes alone: they fill its buffer, or have a NUL
for a string to end at. -/
def Kind.settled (k : Kind) (bytes : List UInt8) : Bool :=
  match k with
  | .string => k.width bytes ≤ bytes.length || (unitsOfBytes (bytes.drop 4)).contains 0
  | .blob => k.width bytes ≤ bytes.length
  | .uint32 | .int32 | .uuid => true

/-- The text that is stored of a member. -/
def Kind.stored (texts : Texts) (k : Kind) (v : k.Value) : String := cstr (k.text texts v)

section

variable {fromUtf16 : List UInt16 → String} (hsplits : Splits fromUtf16) {texts : Texts}

theorem readBlob_eq {memory : Nat → UInt8} {bytes rest : List UInt8} {v : Blob}
    (h : readBlob memory bytes = .ok (v, rest)) :
    4 ≤ bytes.length ∧ v = buffer memory (Kind.blob.bulk bytes) (bytes.drop 4) := by
  have hfour : 4 ≤ bytes.length := by
    by_contra hlt
    rw [readBlob, bind_of_error (readU32_of_lt (not_le.1 hlt))] at h
    cases h
  rw [readBlob_of_le memory hfour] at h
  cases h
  exact ⟨hfour, rfl⟩

theorem readVaultString_eq {memory : Nat → UInt8} {bytes rest : List UInt8} {v : String}
    (h : readVaultString fromUtf16 memory bytes = .ok (v, rest)) :
    4 ≤ bytes.length ∧ Kind.string.bulk bytes % 2 = 0 ∧
      v = fromUtf16 (unitsOfBytes (buffer memory (Kind.string.bulk bytes) (bytes.drop 4))) := by
  have hfour : 4 ≤ bytes.length := by
    by_contra hlt
    rw [readVaultString, bind_of_error (readU32_of_lt (not_le.1 hlt))] at h
    cases h
  rw [readVaultString_of_le fromUtf16 memory hfour] at h
  split at h
  · cases h
  · rename_i heven
    cases h
    exact ⟨hfour, not_not.1 heven, rfl⟩

/-- The buffer of a string that is not filled: of the first unit that is not all there,
half is memory. -/
theorem units_unfilled (memory : Nat → UInt8) {n : Nat} {bytes : List UInt8}
    (hlt : bytes.length < n) (heven : n % 2 = 0) :
    ∃ u units, unitsOfBytes (buffer memory n bytes) = unitsOfBytes bytes ++ u :: units ∧
      ∃ i, u.toNat / 256 = (memory i).toNat := by
  have hmore : (List.range' bytes.length (n - bytes.length)).map memory ≠ [] := by
    rw [ne_eq, List.map_eq_nil_iff, List.range'_eq_nil_iff]
    omega
  obtain ⟨u, units, heq, b, hb, hu⟩ := unitsOfBytes_append bytes hmore
    (by rw [List.length_map, List.length_range']; omega)
  obtain ⟨i, -, rfl⟩ := List.mem_map.1 hb
  rw [buffer, List.take_of_length_le hlt.le]
  exact ⟨u, units, heq, i, hu⟩

theorem width_le_iff {k : Kind} {bytes : List UInt8} (hk : k.checked = 4) (h : 4 ≤ bytes.length) :
    k.width bytes ≤ bytes.length ↔ k.bulk bytes ≤ (bytes.drop 4).length := by
  rw [Kind.width, hk, List.length_drop]
  omega

include hsplits

theorem stored_string {memory memory' : Nat → UInt8} {bytes rest rest' : List UInt8} {v v' : String}
    (h : Kind.string.settled bytes = true)
    (hv : readVaultString fromUtf16 memory bytes = .ok (v, rest))
    (hv' : readVaultString fromUtf16 memory' bytes = .ok (v', rest')) : cstr v = cstr v' := by
  obtain ⟨hfour, heven, rfl⟩ := readVaultString_eq hv
  obtain ⟨-, -, rfl⟩ := readVaultString_eq hv'
  rw [Kind.settled, Bool.or_eq_true, decide_eq_true_iff, width_le_iff rfl hfour] at h
  by_cases hfull : Kind.string.bulk bytes ≤ (bytes.drop 4).length
  · rw [buffer_of_le memory hfull, buffer_of_le memory' hfull]
  · have hnul : 0 ∈ unitsOfBytes (bytes.drop 4) :=
      List.contains_iff_mem.1 (h.resolve_left hfull)
    obtain ⟨u, units, heq, -⟩ := units_unfilled memory (not_le.1 hfull) heven
    obtain ⟨u', units', heq', -⟩ := units_unfilled memory' (not_le.1 hfull) heven
    rw [heq, heq', cstr_nul hsplits _ hnul, cstr_nul hsplits _ hnul]

theorem stored_string_ne {bytes rest rest' : List UInt8} {v v' : String}
    (h : Kind.string.settled bytes = false)
    (hv : readVaultString fromUtf16 (fun _ => 0) bytes = .ok (v, rest))
    (hv' : readVaultString fromUtf16 (fun _ => 1) bytes = .ok (v', rest')) : cstr v ≠ cstr v' := by
  obtain ⟨hfour, heven, rfl⟩ := readVaultString_eq hv
  obtain ⟨-, -, rfl⟩ := readVaultString_eq hv'
  rw [Kind.settled, Bool.or_eq_false_iff, decide_eq_false_iff_not, width_le_iff rfl hfour] at h
  obtain ⟨hshort, hnul⟩ := h
  obtain ⟨u, units, heq, i, hu⟩ := units_unfilled (fun _ => 0) (not_le.1 hshort) heven
  obtain ⟨u', units', heq', i', hu'⟩ := units_unfilled (fun _ => 1) (not_le.1 hshort) heven
  rw [heq, heq']
  refine cstr_ne hsplits (fun hmem => ?_) hu hu'
  rw [List.contains_iff_mem.2 hmem] at hnul
  cases hnul

omit hsplits

theorem stored_blob (htexts : texts.Faithful) (blob : Blob) :
    Kind.blob.stored texts blob = texts.base64Encode blob :=
  cstr_of_not_mem (htexts.base64_nul blob)

theorem stored_blob_inj (htexts : texts.Faithful) {blob blob' : Blob}
    (h : Kind.blob.stored texts blob = Kind.blob.stored texts blob') : blob = blob' := by
  rw [stored_blob htexts, stored_blob htexts] at h
  have hdecoded := congrArg texts.base64Decode h
  rw [htexts.base64, htexts.base64] at hdecoded
  exact Option.some.inj hdecoded

theorem stored_blob_ne (htexts : texts.Faithful) {bytes rest rest' : List UInt8} {v v' : Blob}
    (h : Kind.blob.settled bytes = false)
    (hv : readBlob (fun _ => 0) bytes = .ok (v, rest))
    (hv' : readBlob (fun _ => 1) bytes = .ok (v', rest')) :
    Kind.blob.stored texts v ≠ Kind.blob.stored texts v' := by
  obtain ⟨hfour, rfl⟩ := readBlob_eq hv
  obtain ⟨-, rfl⟩ := readBlob_eq hv'
  rw [Kind.settled, decide_eq_false_iff_not, width_le_iff rfl hfour, not_le] at h
  intro heq
  have hbuffers := stored_blob_inj htexts heq
  rw [buffer_const 0 h.le, buffer_const 1 h.le, List.append_cancel_left_eq,
    List.replicate_inj] at hbuffers
  obtain ⟨-, hzero | hbytes⟩ := hbuffers
  · omega
  · cases hbytes

include hsplits

/-- **What is stored of a member is up to its bytes** if they fill its buffer, or end a
string. -/
theorem Kind.read_settled {memory memory' : Nat → UInt8} {k : Kind} {old old' v v' : k.Value}
    {bytes rest rest' : List UInt8} (h : k.settled bytes = true) (hold : k = .uuid → old = old')
    (hv : k.read fromUtf16 memory old bytes = .ok (v, rest))
    (hv' : k.read fromUtf16 memory' old' bytes = .ok (v', rest')) :
    k.stored texts v = k.stored texts v' := by
  cases k with
  | uint32 =>
    cases hv.symm.trans hv'
    rfl
  | int32 =>
    cases hv.symm.trans hv'
    rfl
  | uuid =>
    obtain rfl := hold rfl
    cases hv.symm.trans hv'
    rfl
  | string => exact stored_string hsplits h hv hv'
  | blob =>
    obtain ⟨hfour, rfl⟩ := readBlob_eq hv
    obtain ⟨-, rfl⟩ := readBlob_eq hv'
    rw [settled, decide_eq_true_iff, width_le_iff rfl hfour] at h
    rw [buffer_of_le memory h, buffer_of_le memory' h]

/-- **Otherwise two memories make two texts.** -/
theorem Kind.read_unsettled (htexts : texts.Faithful) {k : Kind} {old old' v v' : k.Value}
    {bytes rest rest' : List UInt8} (h : k.settled bytes = false)
    (hv : k.read fromUtf16 (fun _ => 0) old bytes = .ok (v, rest))
    (hv' : k.read fromUtf16 (fun _ => 1) old' bytes = .ok (v', rest')) :
    k.stored texts v ≠ k.stored texts v' := by
  cases k with
  | string => exact stored_string_ne hsplits h hv hv'
  | blob => exact stored_blob_ne htexts h hv hv'
  | uint32 => cases h
  | int32 => cases h
  | uuid => cases h

omit hsplits

/-! ## Members in the bytes of a node -/

/-- Where a member is in the bytes, after those that come before it. -/
def memberAt (has : Field → Bool) (f : Field) : List Field → List UInt8 → List UInt8
  | [], bytes => bytes
  | g :: fs, bytes =>
    if g = f then bytes
    else memberAt has f fs (if has g then bytes.drop (g.kind.width bytes) else bytes)

theorem Kind.read_rest {memory : Nat → UInt8} {k : Kind} {old v : k.Value}
    {bytes rest : List UInt8} (h : k.read fromUtf16 memory old bytes = .ok (v, rest)) :
    rest = bytes.drop (k.width bytes) := by
  obtain ⟨-, e, herror⟩ | ⟨-, v', hread⟩ := k.read_spec fromUtf16 memory old bytes
  · rw [h] at herror
    cases herror
  · rw [h] at hread
    cases hread
    rfl

/-- **Every member is read where the members before it end.** -/
theorem NodeData.readFields_member {memory : Field → Nat → UInt8} {fs : List Field}
    (hfs : fs.Nodup) {n back : NodeData} {bytes rest : List UInt8}
    (h : readFields fromUtf16 memory fs n bytes = .ok (back, rest)) {f : Field} (hmem : f ∈ fs)
    (hf : n.has f = true) :
    ∃ rest', f.kind.read fromUtf16 (memory f) (n.value f) (memberAt n.has f fs bytes) =
      .ok (back.value f, rest') := by
  induction fs generalizing n bytes with
  | nil => exact absurd hmem List.not_mem_nil
  | cons g fs ih =>
    rw [List.nodup_cons] at hfs
    obtain ⟨mid, bytes', hg, htail⟩ := bind_eq_ok.1 h
    rw [readField] at hg
    rw [memberAt]
    by_cases hgf : g = f
    · subst hgf
      rw [if_pos hf] at hg
      obtain ⟨v, bytes'', hread, hpure⟩ := bind_eq_ok.1 hg
      cases hpure
      have hframe := (readFields_frame htail).2 g hfs.1
      rw [value_assign] at hframe
      rw [if_pos rfl, hframe]
      exact ⟨_, hread⟩
    · have hmem' : f ∈ fs := (List.mem_cons.1 hmem).resolve_left (Ne.symm hgf)
      rw [if_neg hgf]
      by_cases hhas : n.has g = true
      · rw [if_pos hhas] at hg
        obtain ⟨v, bytes'', hread, hpure⟩ := bind_eq_ok.1 hg
        cases hpure
        obtain rfl := Kind.read_rest hread
        have hrest := ih hfs.2 htail hmem' hf
        rw [value_assign_of_ne n (Ne.symm hgf)] at hrest
        rw [if_pos hhas]
        exact hrest
      · rw [if_neg hhas] at hg
        cases hg
        rw [if_neg hhas]
        exact ih hfs.2 htail hmem' hf

/-! ## The memory of a request -/

/-- What is in memory before a request is read: in the numbers of a `Node` on the stack, and in
the buffers that come from the heap. -/
structure Memory where
  stack : Field → UInt32
  heap : Field → Nat → UInt8

/-- The memory that is full of one byte. -/
def Memory.full (byte : UInt8) : Memory where
  stack _ := 0
  heap _ _ := byte

/-- A member of a new `Node`, in memory that holds this word. -/
def Kind.initial (word : UInt32) : (k : Kind) → k.Value
  | .uint32 => word
  | .int32 => word.toInt32
  | .uuid => .null
  | .string => ""
  | .blob => []

/-- `Node()`. -/
def Memory.node (memory : Memory) : NodeData where
  fields := 0
  value f := f.kind.initial (memory.stack f)

end

/-! ## Handlers -/

/-- `NODE_SIZE_MAX`. -/
def nodeSizeMax : Nat := 4 * 1024 * 1024

/-- `m_NodeType`. -/
def NodeData.nodeType (node : NodeData) : Int32 := node.value .nodeType

/-- `m_NodeIdx`. -/
def NodeData.nodeIdx (node : NodeData) : UInt32 := node.value .nodeIdx

/-- `m_NodeIdx = ...`. -/
def NodeData.assignIdx (node : NodeData) (nodeIdx : UInt32) : NodeData :=
  node.assign .nodeIdx nodeIdx

theorem NodeData.nodeIdx_assignIdx (node : NodeData) (nodeIdx : UInt32) :
    (node.assignIdx nodeIdx).nodeIdx = nodeIdx :=
  node.value_assign _ _

theorem NodeData.value_assignIdx_of_ne (node : NodeData) (nodeIdx : UInt32) {f : Field}
    (hf : f ≠ .nodeIdx) : (node.assignIdx nodeIdx).value f = node.value f :=
  node.value_assign_of_ne hf _

theorem NodeData.has_assignIdx (node : NodeData) (nodeIdx : UInt32) :
    (node.assignIdx nodeIdx).has = node.has := rfl

theorem NodeData.nodeType_assignIdx (node : NodeData) (nodeIdx : UInt32) :
    (node.assignIdx nodeIdx).nodeType = node.nodeType :=
  node.value_assign_of_ne (by decide) _

/-- `e_NodeSDL`. -/
def e_NodeSDL : Int32 := Int32.ofInt NodeType.sdl.toInt

section

variable (fromUtf16 : List UInt16 → String)

/-- The node in the bytes that a client sends, `none` where the handler throws. -/
def receiveNode (memory : Memory) (bytes : List UInt8) : Option NodeData :=
  if nodeSizeMax < bytes.length then none
  else
    match memory.node.read fromUtf16 memory.heap bytes with
    | .ok (node, _) => some node
    | .error _ => none

/-- `cb_nodeCreate`: what is put into the daemon's channel. -/
def cbNodeCreate (memory : Memory) (bytes : List UInt8) : Option NodeData :=
  receiveNode fromUtf16 memory bytes

/-- `cb_nodeUpdate`: what is put into the daemon's channel. -/
def cbNodeUpdate (memory : Memory) (nodeId : UInt32) (bytes : List UInt8) : Option NodeData :=
  (receiveNode fromUtf16 memory bytes).map fun node => node.assignIdx nodeId

/-- `Node::copy`, into a new node. -/
def NodeData.copy (node dup : NodeData) : NodeData where
  fields := node.fields
  value f := if node.has f then node.value f else dup.value f

theorem NodeData.has_copy (node dup : NodeData) : (node.copy dup).has = node.has := rfl

theorem NodeData.value_copy {node dup : NodeData} {f : Field} (hf : node.has f = true) :
    (node.copy dup).value f = node.value f :=
  if_pos hf

theorem NodeData.value_copy_of_not {node dup : NodeData} {f : Field} (hf : node.has f = false) :
    (node.copy dup).value f = dup.value f :=
  if_neg (by rw [hf]; decide)

/-- What the daemon learns of the game servers: the server with a SDL node, nothing where the query
fails; and, of a server that runs, what it makes of a state, nothing where it refuses it. -/
structure GameServers where
  server : UInt32 → Option (Option UInt32)
  merge : UInt32 → Option (Blob → Option Blob)

variable (texts : Texts) (now : Int32)

/-- There are no game servers. -/
def noServers : GameServers where
  server _ := some none
  merge _ := none

/-- One game server has every SDL node. -/
def oneServer (merge : Blob → Option Blob) : GameServers where
  server _ := some (some 1)
  merge _ := some merge

/-- `e_VaultUpdateNode`, to the statement of `v_update_node`.  A game server saves its own node,
which is a copy. -/
def vaultUpdateNode (servers : GameServers) (dup : Memory) (node : NodeData) : Option UpdateSql :=
  if node.nodeType = e_NodeSDL then do
    let result ← servers.server node.nodeIdx
    match result.bind servers.merge with
    | none => some (updateSql texts now node)
    | some merge => do
      let sdlNode := node.copy dup.node
      let blob ← merge (sdlNode.value .blob_1)
      some (updateSql texts now (sdlNode.assign .blob_1 blob))
  else some (updateSql texts now node)

/-- The statement that comes of a `VaultNodeCreate`. -/
def nodeCreated (memory : Memory) (bytes : List UInt8) : Option InsertSql :=
  (cbNodeCreate fromUtf16 memory bytes).map (createSql texts now)

/-- The statement that comes of a `VaultNodeSave`. -/
def nodeSaved (servers : GameServers) (memory dup : Memory) (nodeId : UInt32)
    (bytes : List UInt8) : Option UpdateSql :=
  (cbNodeUpdate fromUtf16 memory nodeId bytes).bind (vaultUpdateNode texts now servers dup)

end

/-! ## What the bytes of a node say -/

/-- The members that a node in these bytes has. -/
def hasIn (bytes : List UInt8) : Field → Bool :=
  ({ NodeData.blank with fields := UInt64.ofNat (leValue (bytes.take 8)) } : NodeData).has

/-- Where such a member is. -/
def memberIn (bytes : List UInt8) (f : Field) : List UInt8 :=
  memberAt (hasIn bytes) f NodeData.readOrder (bytes.drop 8)

/-- The type of such a node. -/
def typeIn (bytes : List UInt8) : Int32 :=
  (UInt32.ofNat (leValue ((memberIn bytes .nodeType).take 4))).toInt32

/-- Where the last check is that is made of these bytes, if none fails. -/
def nodeEnd (bytes : List UInt8) : Option Nat :=
  if bytes.length < 8 then none
  else
    (checkedEnd ((NodeData.readOrder.filter (hasIn bytes)).map Field.kind) (bytes.drop 8)).map (8 + ·)

/-- A handler throws at these bytes. -/
def Rejected (bytes : List UInt8) : Prop := nodeSizeMax < bytes.length ∨ nodeEnd bytes = none

/-- The text of every member is up to these bytes alone. -/
def Settled (bytes : List UInt8) : Prop :=
  ∀ f, hasIn bytes f = true → f.kind.settled (memberIn bytes f) = true

section

variable {fromUtf16 : List UInt16 → String}

theorem NodeData.read_of_le {memory : Field → Nat → UInt8} (n : NodeData) {bytes : List UInt8}
    (h : 8 ≤ bytes.length) :
    n.read fromUtf16 memory bytes = readFields fromUtf16 memory readOrder
      { n with fields := UInt64.ofNat (leValue (bytes.take 8)) } (bytes.drop 8) :=
  bind_of_ok (readU64_of_le h)

/-- **The reader throws where no last check is reached.** -/
theorem read_throws (memory : Field → Nat → UInt8) (n : NodeData) (bytes : List UInt8) :
    (∃ e, n.read fromUtf16 memory bytes = .error e) ↔ nodeEnd bytes = none := by
  rw [nodeEnd]
  by_cases h : bytes.length < 8
  · rw [if_pos h]
    exact ⟨fun _ => rfl, fun _ => ⟨_, bind_of_error (readU64_of_lt h)⟩⟩
  · rw [if_neg h, Option.map_eq_none_iff, n.read_of_le (not_lt.1 h)]
    exact (NodeData.readFields_error memory NodeData.readOrder _ _).symm

theorem receiveNode_eq_none (memory : Memory) (bytes : List UInt8) :
    receiveNode fromUtf16 memory bytes = none ↔ Rejected bytes := by
  rw [receiveNode, Rejected, ← @read_throws fromUtf16 memory.heap memory.node bytes]
  split
  · rename_i h
    exact ⟨fun _ => .inl h, fun _ => rfl⟩
  · rename_i h
    cases hread : memory.node.read fromUtf16 memory.heap bytes with
    | ok x =>
      constructor
      · intro hnone
        cases hnone
      · rintro (hlt | ⟨e, he⟩)
        · exact absurd hlt h
        · cases he
    | error e => exact ⟨fun _ => .inr ⟨e, rfl⟩, fun _ => rfl⟩

theorem NodeData.readFields_keeps {memory : Field → Nat → UInt8} {fs : List Field}
    {n back : NodeData} {bytes rest : List UInt8}
    (h : readFields fromUtf16 memory fs n bytes = .ok (back, rest)) {f : Field}
    (hf : n.has f = false) : back.value f = n.value f := by
  induction fs generalizing n bytes with
  | nil =>
    cases h
    rfl
  | cons g fs ih =>
    obtain ⟨mid, bytes', hg, htail⟩ := bind_eq_ok.1 h
    obtain ⟨hfields, hvalue⟩ := readField_frame hg
    have hmid : mid.has f = false := (congrFun (has_of_fields hfields) f).trans hf
    rw [ih htail hmid]
    by_cases hgf : f = g
    · subst hgf
      rw [readField, hf, if_neg Bool.false_ne_true] at hg
      cases hg
      rfl
    · exact hvalue f hgf

/-- **What is received**: the members in the bytes, and what the stack held of the others. -/
theorem receiveNode_eq_some {memory : Memory} {bytes : List UInt8} {node : NodeData}
    (h : receiveNode fromUtf16 memory bytes = some node) :
    node.has = hasIn bytes ∧ ∀ f,
      (hasIn bytes f = true → ∃ rest, f.kind.read fromUtf16 (memory.heap f)
        (f.kind.initial (memory.stack f)) (memberIn bytes f) = .ok (node.value f, rest)) ∧
      (hasIn bytes f = false → node.value f = f.kind.initial (memory.stack f)) := by
  rw [receiveNode] at h
  split at h
  · cases h
  · cases hread : memory.node.read fromUtf16 memory.heap bytes with
    | error e =>
      rw [hread] at h
      cases h
    | ok x =>
      rw [hread] at h
      cases h
      have hlen : 8 ≤ bytes.length := by
        by_contra hlt
        rw [NodeData.read, bind_of_error (readU64_of_lt (not_le.1 hlt))] at hread
        cases hread
      rw [NodeData.read_of_le _ hlen] at hread
      refine ⟨NodeData.has_of_fields (NodeData.readFields_frame hread).1, fun f => ⟨?_, ?_⟩⟩
      · exact NodeData.readFields_member NodeData.nodup_readOrder hread (NodeData.mem_readOrder f)
      · exact NodeData.readFields_keeps hread

/-! ## Statements -/

theorem InsertSql.setField_congr (sql : InsertSql) (name : String) {value value' : String}
    (h : cstr value = cstr value') : sql.setField name value = sql.setField name value' := by
  rw [setField, setField, h]

theorem UpdateSql.setField_congr (sql : UpdateSql) (name : String) {value value' : String}
    (h : cstr value = cstr value') : sql.setField name value = sql.setField name value' := by
  rw [setField, setField, h]

/-- Two nodes with the same members, of which the same is stored. -/
def StoredAlike (texts : Texts) (n m : NodeData) : Prop :=
  n.has = m.has ∧ ∀ f, n.has f = true → f.replaced = false →
    f.kind.stored texts (n.value f) = f.kind.stored texts (m.value f)

variable {texts : Texts} {now : Int32}

theorem replaced_of_mem {f : Field} (h : f ∈ createOrder) : f.replaced = false := by
  by_contra hreplaced
  exact not_mem_createOrder (Bool.eq_true_of_not_eq_false hreplaced) h

theorem createSql_congr {n m : NodeData} (h : StoredAlike texts n m) :
    createSql texts now n = createSql texts now m := by
  rw [createSql, createSql]
  refine List.foldl_ext _ _ _ fun sql f hf => ?_
  rw [← congrFun h.1 f]
  split
  · rename_i hhas
    exact sql.setField_congr _ (h.2 f hhas (replaced_of_mem hf))
  · rfl

theorem updateSql_congr {n m : NodeData} (h : StoredAlike texts n m)
    (hidx : n.nodeIdx = m.nodeIdx) :
    updateSql texts now n = updateSql texts now m := by
  have hfold : ∀ sql : UpdateSql, updateOrder.foldl (fun sql f =>
      if n.has f then sql.setField f.column (f.kind.text texts (n.value f)) else sql) sql =
      updateOrder.foldl (fun sql f =>
      if m.has f then sql.setField f.column (f.kind.text texts (m.value f)) else sql) sql := by
    intro sql
    refine List.foldl_ext _ _ _ fun sql f hf => ?_
    rw [← congrFun h.1 f]
    split
    · rename_i hhas
      exact sql.setField_congr _ (h.2 f hhas (replaced_of_mem hf))
    · rfl
  have hvalue : n.value .nodeIdx = m.value .nodeIdx := hidx
  rw [updateSql, updateSql, hfold, hvalue]

theorem stored_of_supplied {n m : NodeData} (hhas : n.has = m.has)
    (h : (supplied texts n createOrder).map Prod.snd = (supplied texts m createOrder).map Prod.snd) :
    StoredAlike texts n m := by
  refine ⟨hhas, fun f hf hreplaced => ?_⟩
  rw [supplied, supplied, ← hhas, List.map_map, List.map_map, List.map_inj_left] at h
  exact h f (List.mem_filter.2 ⟨mem_createOrder hreplaced, hf⟩)

theorem createSql_inj {n m : NodeData} (hhas : n.has = m.has)
    (h : createSql texts now n = createSql texts now m) : StoredAlike texts n m := by
  have hparms := congrArg InsertSql.parms h
  rw [(createSql_assigns texts now n).1, (createSql_assigns texts now m).1, createPairs,
    createPairs] at hparms
  exact stored_of_supplied hhas (List.cons.inj (List.cons.inj hparms).2).2

theorem updateSql_inj {n m : NodeData} (hhas : n.has = m.has)
    (h : updateSql texts now n = updateSql texts now m) :
    StoredAlike texts n m ∧
      cstr (fromUint n.nodeIdx.toNat) = cstr (fromUint m.nodeIdx.toNat) := by
  have hparms := congrArg UpdateSql.parms h
  rw [(updateSql_assigns texts now n).1, (updateSql_assigns texts now m).1, updatePairs,
    updatePairs] at hparms
  obtain ⟨hidx, hrest⟩ := List.cons.inj hparms
  exact ⟨stored_of_supplied hhas (List.cons.inj hrest).2, hidx⟩

namespace StoredAlike

variable {n m : NodeData}

theorem assign_same (h : StoredAlike texts n m) (f : Field) (v : f.Value) :
    StoredAlike texts (n.assign f v) (m.assign f v) := by
  refine ⟨h.1, fun g hg hreplaced => ?_⟩
  by_cases hne : g = f
  · subst hne
    rw [n.value_assign, m.value_assign]
  · rw [n.value_assign_of_ne hne, m.value_assign_of_ne hne]
    exact h.2 g hg hreplaced

theorem copy (h : StoredAlike texts n m) (dup dup' : NodeData) :
    StoredAlike texts (n.copy dup) (m.copy dup') := by
  refine ⟨h.1, fun f hf hreplaced => ?_⟩
  have hn : n.has f = true := hf
  have hm : m.has f = true := (congrFun h.1 f).symm.trans hn
  rw [NodeData.value_copy hn, NodeData.value_copy hm]
  exact h.2 f hn hreplaced

/-- The blob is the same, if there is one. -/
theorem blob_eq (htexts : texts.Faithful) (h : StoredAlike texts n m)
    (hn : n.has .blob_1 = true) : n.value .blob_1 = m.value .blob_1 :=
  stored_blob_inj htexts (h.2 .blob_1 hn rfl)

end StoredAlike

/-! ## What the statements depend on -/

section

variable (hsplits : Splits fromUtf16) {memory memory' : Memory} {bytes : List UInt8}
  {n n' : NodeData}

include hsplits

theorem alike_of_settled (h : Settled bytes)
    (hn : receiveNode fromUtf16 memory bytes = some n)
    (hn' : receiveNode fromUtf16 memory' bytes = some n') : StoredAlike texts n n' := by
  obtain ⟨hhas, hread⟩ := receiveNode_eq_some hn
  obtain ⟨hhas', hread'⟩ := receiveNode_eq_some hn'
  refine ⟨hhas.trans hhas'.symm, fun f hf _ => ?_⟩
  rw [hhas] at hf
  obtain ⟨rest, hv⟩ := (hread f).1 hf
  obtain ⟨rest', hv'⟩ := (hread' f).1 hf
  refine Kind.read_settled hsplits (h f hf) (fun huuid => ?_) hv hv'
  rw [huuid]
  rfl

/-- Buffers that are all zeros and all ones tell whether the bytes say everything. -/
theorem settled_of_alike (htexts : texts.Faithful)
    (hn : receiveNode fromUtf16 (.full 0) bytes = some n)
    (hn' : receiveNode fromUtf16 (.full 1) bytes = some n')
    (h : StoredAlike texts n n') : Settled bytes := by
  obtain ⟨hhas, hread⟩ := receiveNode_eq_some hn
  obtain ⟨-, hread'⟩ := receiveNode_eq_some hn'
  intro f hf
  by_contra hunsettled
  rw [Bool.not_eq_true] at hunsettled
  obtain ⟨rest, hv⟩ := (hread f).1 hf
  obtain ⟨rest', hv'⟩ := (hread' f).1 hf
  have hreplaced : f.replaced = false := by
    revert hunsettled
    cases f <;> first | exact fun _ => rfl | exact fun h => absurd h Bool.noConfusion
  have hnhas : n.has f = true := by
    rw [hhas]
    exact hf
  exact Kind.read_unsettled hsplits htexts hunsettled hv hv' (h.2 f hnhas hreplaced)

omit hsplits

theorem receiveNode_isSome (h : ¬ Rejected bytes) (memory : Memory) :
    ∃ n, receiveNode fromUtf16 memory bytes = some n :=
  Option.ne_none_iff_exists'.1 (mt (receiveNode_eq_none memory bytes).1 h)

theorem receiveNode_has (hn : receiveNode fromUtf16 memory bytes = some n)
    (hn' : receiveNode fromUtf16 memory' bytes = some n') : n.has = n'.has :=
  (receiveNode_eq_some hn).1.trans (receiveNode_eq_some hn').1.symm

theorem receiveNode_type (hn : receiveNode fromUtf16 memory bytes = some n)
    (htype : hasIn bytes .nodeType = true) : n.nodeType = typeIn bytes := by
  obtain ⟨rest, hv⟩ := ((receiveNode_eq_some hn).2 .nodeType).1 htype
  obtain ⟨word, bytes', hread, hpure⟩ := bind_eq_ok.1 hv
  have hfour : 4 ≤ (memberIn bytes .nodeType).length := by
    by_contra hlt
    rw [readU32_of_lt (not_le.1 hlt)] at hread
    cases hread
  rw [readU32_of_le hfour] at hread
  cases hread
  exact (Prod.mk.inj (Except.ok.inj hpure)).1.symm

include hsplits

/-- **What a `VaultNodeCreate` stores is up to its bytes** if they are rejected, or say
everything, and only then. -/
theorem nodeCreated_settled (htexts : texts.Faithful) (bytes : List UInt8) :
    (∀ memory memory', nodeCreated fromUtf16 texts now memory bytes =
        nodeCreated fromUtf16 texts now memory' bytes) ↔ Rejected bytes ∨ Settled bytes := by
  constructor
  · intro h
    by_cases hrejected : Rejected bytes
    · exact .inl hrejected
    · right
      obtain ⟨n, hn⟩ := receiveNode_isSome hrejected (.full 0)
      obtain ⟨n', hn'⟩ := receiveNode_isSome hrejected (.full 1)
      have heq := h (.full 0) (.full 1)
      rw [nodeCreated, nodeCreated, cbNodeCreate, cbNodeCreate, hn, hn', Option.map_some,
        Option.map_some, Option.some.injEq] at heq
      exact settled_of_alike hsplits htexts hn hn' (createSql_inj (receiveNode_has hn hn') heq)
  · rintro h memory memory'
    by_cases hrejected : Rejected bytes
    · rw [nodeCreated, nodeCreated, cbNodeCreate, cbNodeCreate,
        (receiveNode_eq_none memory bytes).2 hrejected,
        (receiveNode_eq_none memory' bytes).2 hrejected]
    · obtain ⟨n, hn⟩ := receiveNode_isSome hrejected memory
      obtain ⟨n', hn'⟩ := receiveNode_isSome hrejected memory'
      rw [nodeCreated, nodeCreated, cbNodeCreate, cbNodeCreate, hn, hn', Option.map_some,
        Option.map_some, createSql_congr (alike_of_settled hsplits (h.resolve_left hrejected) hn hn')]

omit hsplits

/-- A node that is not handed to a game server is saved as it is. -/
theorem vaultUpdateNode_of_absent {servers : GameServers} {dup : Memory} {node : NodeData}
    {result : Option UInt32} (hserver : servers.server node.nodeIdx = some result)
    (habsent : result.bind servers.merge = none) :
    vaultUpdateNode texts now servers dup node = some (updateSql texts now node) := by
  rw [vaultUpdateNode, hserver]
  split
  · show (match result.bind servers.merge with
      | none => some (updateSql texts now node)
      | some _ => _) = _
    rw [habsent]
  · rfl

theorem vaultUpdateNode_congr (htexts : texts.Faithful) (servers : GameServers)
    {dup dup' : Memory} (h : StoredAlike texts n n') (hidx : n.nodeIdx = n'.nodeIdx)
    (htype : n.nodeType = n'.nodeType) (hsdl : n.nodeType = e_NodeSDL → n.has .nodeIdx = true) :
    vaultUpdateNode texts now servers dup n = vaultUpdateNode texts now servers dup' n' := by
  have hsame : updateSql texts now n = updateSql texts now n' := updateSql_congr h hidx
  rw [vaultUpdateNode, vaultUpdateNode, ← htype, ← hidx, ← hsame]
  by_cases hnode : n.nodeType = e_NodeSDL
  · rw [if_pos hnode, if_pos hnode]
    cases servers.server n.nodeIdx with
    | none =>
      show none = none
      rfl
    | some result =>
      show (match result.bind servers.merge with | none => _ | some _ => _) =
        (match result.bind servers.merge with | none => _ | some _ => _)
      cases result.bind servers.merge with
      | none => rfl
      | some merge =>
        have hblob : (n.copy dup.node).value .blob_1 = (n'.copy dup'.node).value .blob_1 := by
          cases hhas : n.has .blob_1 with
          | true =>
            have hhas' : n'.has .blob_1 = true := (congrFun h.1 _).symm.trans hhas
            rw [NodeData.value_copy hhas, NodeData.value_copy hhas']
            exact h.blob_eq htexts hhas
          | false =>
            have hhas' : n'.has .blob_1 = false := (congrFun h.1 _).symm.trans hhas
            rw [NodeData.value_copy_of_not hhas, NodeData.value_copy_of_not hhas']
            rfl
        show (merge _).bind _ = (merge _).bind _
        rw [hblob]
        cases merge ((n'.copy dup'.node).value .blob_1) with
        | none =>
          show none = none
          rfl
        | some blob =>
          have hcopied := (h.copy dup.node dup'.node).assign_same .blob_1 blob
          have hhas := hsdl hnode
          have hhas' : n'.has .nodeIdx = true := (congrFun h.1 _).symm.trans hhas
          have hcopiedIdx : (n.copy dup.node).nodeIdx = (n'.copy dup'.node).nodeIdx :=
            (NodeData.value_copy hhas).trans (hidx.trans (NodeData.value_copy hhas').symm)
          exact congrArg some (updateSql_congr hcopied hcopiedIdx)
  · rw [if_neg hnode, if_neg hnode]

/-- A node with no type has one from the stack. -/
theorem receiveNode_untyped (hn : receiveNode fromUtf16 memory bytes = some n)
    (htype : hasIn bytes .nodeType = false) : n.nodeType = (memory.stack .nodeType).toInt32 :=
  ((receiveNode_eq_some hn).2 .nodeType).2 htype

/-- A game server that keeps the state as it is saves it in the node that the copy says. -/
theorem vaultUpdateNode_of_sdl {node : NodeData} (hsdl : node.nodeType = e_NodeSDL)
    (dup : Memory) : vaultUpdateNode texts now (oneServer some) dup node =
      some (updateSql texts now ((node.copy dup.node).assign .blob_1
        ((node.copy dup.node).value .blob_1))) := by
  rw [vaultUpdateNode, if_pos hsdl]
  rfl

theorem nodeSaved_of_rejected (h : Rejected bytes) (servers : GameServers) (memory dup : Memory)
    (nodeId : UInt32) : nodeSaved fromUtf16 texts now servers memory dup nodeId bytes = none := by
  rw [nodeSaved, cbNodeUpdate, (receiveNode_eq_none memory bytes).2 h]
  rfl

theorem nodeSaved_eq (hn : receiveNode fromUtf16 memory bytes = some n) (servers : GameServers)
    (dup : Memory) (nodeId : UInt32) :
    nodeSaved fromUtf16 texts now servers memory dup nodeId bytes =
      vaultUpdateNode texts now servers dup (n.assignIdx nodeId) := by
  rw [nodeSaved, cbNodeUpdate, hn]
  rfl

theorem nodeSaved_of_absent (hn : receiveNode fromUtf16 memory bytes = some n)
    {servers : GameServers} {nodeId : UInt32} {result : Option UInt32}
    (hserver : servers.server nodeId = some result) (habsent : result.bind servers.merge = none)
    (dup : Memory) : nodeSaved fromUtf16 texts now servers memory dup nodeId bytes =
      some (updateSql texts now (n.assignIdx nodeId)) := by
  rw [nodeSaved_eq hn]
  refine vaultUpdateNode_of_absent ?_ habsent
  rw [n.nodeIdx_assignIdx]
  exact hserver

include hsplits

/-- **What a `VaultNodeSave` stores where no game server has the node** is up to its bytes if
they are rejected, or say everything. -/
theorem nodeSaved_of_absent_settled (htexts : texts.Faithful) {servers : GameServers}
    {nodeId : UInt32} {result : Option UInt32} (hserver : servers.server nodeId = some result)
    (habsent : result.bind servers.merge = none) (bytes : List UInt8) :
    (∀ memory memory' dup dup', nodeSaved fromUtf16 texts now servers memory dup nodeId bytes =
        nodeSaved fromUtf16 texts now servers memory' dup' nodeId bytes) ↔
      Rejected bytes ∨ Settled bytes := by
  by_cases hrejected : Rejected bytes
  · refine ⟨fun _ => .inl hrejected, fun _ memory memory' dup dup' => ?_⟩
    rw [nodeSaved_of_rejected hrejected, nodeSaved_of_rejected hrejected]
  constructor
  · intro h
    right
    obtain ⟨n, hn⟩ := receiveNode_isSome hrejected (.full 0)
    obtain ⟨n', hn'⟩ := receiveNode_isSome hrejected (.full 1)
    have heq := h (.full 0) (.full 1) (.full 0) (.full 0)
    rw [nodeSaved_of_absent hn hserver habsent, nodeSaved_of_absent hn' hserver habsent,
      Option.some.injEq] at heq
    have hhas := receiveNode_has hn hn'
    have hassigned : (n.assignIdx nodeId).has = (n'.assignIdx nodeId).has := by
      rw [n.has_assignIdx, n'.has_assignIdx, hhas]
    have halike := (updateSql_inj hassigned heq).1
    refine settled_of_alike hsplits htexts hn hn' ⟨hhas, fun f hf hreplaced => ?_⟩
    have hne := (ne_of_not_replaced hreplaced).1
    have hstored := halike.2 f hf hreplaced
    rw [n.value_assignIdx_of_ne _ hne, n'.value_assignIdx_of_ne _ hne] at hstored
    exact hstored
  · intro h memory memory' dup dup'
    obtain ⟨n, hn⟩ := receiveNode_isSome hrejected memory
    obtain ⟨n', hn'⟩ := receiveNode_isSome hrejected memory'
    have halike : StoredAlike texts n n' :=
      alike_of_settled hsplits (h.resolve_left hrejected) hn hn'
    have hsame : updateSql texts now (n.assignIdx nodeId) = updateSql texts now (n'.assignIdx nodeId) :=
      updateSql_congr (halike.assign_same .nodeIdx nodeId)
        ((n.nodeIdx_assignIdx nodeId).trans (n'.nodeIdx_assignIdx nodeId).symm)
    rw [nodeSaved_of_absent hn hserver habsent, nodeSaved_of_absent hn' hserver habsent, hsame]

/-- **What a `VaultNodeSave` stores is up to its bytes, whatever the game servers do**, if they
are rejected, or say everything, the type among it, and, of a SDL node, which it is. -/
theorem nodeSaved_settled (htexts : texts.Faithful) (nodeId : UInt32) (bytes : List UInt8) :
    (∀ servers memory memory' dup dup',
        nodeSaved fromUtf16 texts now servers memory dup nodeId bytes =
          nodeSaved fromUtf16 texts now servers memory' dup' nodeId bytes) ↔
      Rejected bytes ∨ Settled bytes ∧ hasIn bytes .nodeType = true ∧
        (typeIn bytes = e_NodeSDL → hasIn bytes .nodeIdx = true) := by
  by_cases hrejected : Rejected bytes
  · refine ⟨fun _ => .inl hrejected, fun _ servers memory memory' dup dup' => ?_⟩
    rw [nodeSaved_of_rejected hrejected, nodeSaved_of_rejected hrejected]
  constructor
  · intro h
    right
    have habsent : noServers.server nodeId = some none := rfl
    have hsettled := ((nodeSaved_of_absent_settled hsplits htexts habsent rfl bytes).1
      (h noServers)).resolve_left hrejected
    obtain ⟨n, hn⟩ := receiveNode_isSome hrejected (.full 0)
    have htype : hasIn bytes .nodeType = true := by
      by_contra htype
      rw [Bool.not_eq_true] at htype
      -- On another stack it is a SDL node, and a game server may refuse that.
      let stack : Memory := ⟨fun _ => e_NodeSDL.toUInt32, fun _ _ => 0⟩
      obtain ⟨n', hn'⟩ := receiveNode_isSome hrejected stack
      have hnot : n.nodeType ≠ e_NodeSDL := by
        rw [receiveNode_untyped hn htype]
        decide
      have hsdl : n'.nodeType = e_NodeSDL := by
        rw [receiveNode_untyped hn' htype]
        exact Int32.toInt32_toUInt32 e_NodeSDL
      have heq := h (oneServer fun _ => none) (.full 0) stack (.full 0) (.full 0)
      rw [nodeSaved_eq hn, nodeSaved_eq hn', vaultUpdateNode, vaultUpdateNode,
        n.nodeType_assignIdx, n'.nodeType_assignIdx, if_neg hnot, if_pos hsdl] at heq
      cases heq
    refine ⟨hsettled, htype, fun hsdl => ?_⟩
    by_contra hidx
    rw [Bool.not_eq_true] at hidx
    -- The game server saves the node that the stack of the copy says.
    let stack : Memory := ⟨fun _ => 1, fun _ _ => 0⟩
    have hnode : (n.assignIdx nodeId).nodeType = e_NodeSDL := by
      rw [n.nodeType_assignIdx, receiveNode_type hn htype, hsdl]
    have hlacks : (n.assignIdx nodeId).has .nodeIdx = false := by
      rw [n.has_assignIdx, (receiveNode_eq_some hn).1, hidx]
    have hcopied : ∀ dup : Memory, (((n.assignIdx nodeId).copy dup.node).assign .blob_1
        (((n.assignIdx nodeId).copy dup.node).value .blob_1)).nodeIdx = dup.stack .nodeIdx :=
      fun dup => NodeData.value_copy_of_not hlacks
    have heq := h (oneServer some) (.full 0) (.full 0) (.full 0) stack
    rw [nodeSaved_eq hn, nodeSaved_eq hn, vaultUpdateNode_of_sdl hnode,
      vaultUpdateNode_of_sdl hnode, Option.some.injEq] at heq
    have hstored := (updateSql_inj (by rw [NodeData.has_assign, NodeData.has_assign,
      NodeData.has_copy, NodeData.has_copy]) heq).2
    rw [hcopied, hcopied] at hstored
    revert hstored
    show cstr (fromUint 0) ≠ cstr (fromUint 1)
    decide
  · intro h servers memory memory' dup dup'
    obtain ⟨hsettled, htype, hidx⟩ := h.resolve_left hrejected
    obtain ⟨n, hn⟩ := receiveNode_isSome hrejected memory
    obtain ⟨n', hn'⟩ := receiveNode_isSome hrejected memory'
    have halike : StoredAlike texts n n' := alike_of_settled hsplits hsettled hn hn'
    have htypes : n.nodeType = n'.nodeType :=
      (receiveNode_type hn htype).trans (receiveNode_type hn' htype).symm
    rw [nodeSaved_eq hn, nodeSaved_eq hn']
    refine vaultUpdateNode_congr htexts servers (halike.assign_same .nodeIdx nodeId)
      ((n.nodeIdx_assignIdx nodeId).trans (n'.nodeIdx_assignIdx nodeId).symm) ?_ fun hsdl => ?_
    · rw [n.nodeType_assignIdx, n'.nodeType_assignIdx, htypes]
    · rw [n.nodeType_assignIdx, receiveNode_type hn htype] at hsdl
      show n.has .nodeIdx = true
      rw [(receiveNode_eq_some hn).1]
      exact hidx hsdl

omit hsplits

/-! ## Cuts through an encoded node -/

theorem nodeEnd_take {k : Nat} (hk : k ≤ bytes.length) :
    nodeEnd (bytes.take k) = none ↔ ∀ e, nodeEnd bytes = some e → k < e := by
  have hlen : (bytes.take k).length = k := List.length_take_of_le hk
  rw [nodeEnd, nodeEnd, hlen]
  by_cases hshort : k < 8
  · rw [if_pos hshort]
    refine ⟨fun _ e he => ?_, fun _ => rfl⟩
    split at he
    · cases he
    · obtain ⟨e', -, rfl⟩ := Option.map_eq_some_iff.1 he
      omega
  · have hmask : (bytes.take k).take 8 = bytes.take 8 := by
      rw [List.take_take, min_eq_left (not_lt.1 hshort)]
    have hhas : hasIn (bytes.take k) = hasIn bytes := by rw [hasIn, hasIn, hmask]
    have hdrop : (bytes.take k).drop 8 = (bytes.drop 8).take (k - 8) := List.drop_take ..
    rw [if_neg hshort, if_neg (by omega), Option.map_eq_none_iff, hhas, hdrop,
      checkedEnd_take (by rw [List.length_drop]; omega)]
    constructor
    · intro h e he
      obtain ⟨e', he', rfl⟩ := Option.map_eq_some_iff.1 he
      have hlt := h e' he'
      omega
    · intro h e he
      have hlt := h (8 + e) (by rw [he]; rfl)
      omega

/-- **The last check of an encoded node** comes before the bytes that its last member ends with. -/
theorem nodeEnd_write {n : NodeData} (h : n.Fits) :
    nodeEnd n.write = some (n.write.length - n.trailing NodeData.readOrder) := by
  have hlen : (writeU64 n.fields).length = 8 := Lib.Reader.length_leBytes 8 _
  have hmask : UInt64.ofNat (leValue (n.write.take 8)) = n.fields := by
    rw [NodeData.write, List.take_left' hlen, writeU64,
      Lib.Reader.leValue_leBytes n.fields.toNat_lt, UInt64.ofNat_toNat]
  have hhas : hasIn n.write = n.has := by
    rw [hasIn, hmask]
    rfl
  have hdrop : n.write.drop 8 = NodeData.readOrder.flatMap n.writeField := by
    rw [NodeData.write, List.drop_left' hlen, NodeData.writeOrder_eq]
  have htotal : n.write.length = 8 + (NodeData.readOrder.flatMap n.writeField).length := by
    rw [NodeData.write, List.length_append, hlen, NodeData.writeOrder_eq]
  have hle := n.length_writeFields NodeData.readOrder
  have hfits : ∀ f ∈ NodeData.readOrder, n.has f = true → f.kind.Fits (n.value f) := fun f _ => h f
  have hend := NodeData.checkedEnd_write hfits
  rw [NodeData.kinds] at hend
  rw [nodeEnd, if_neg (by omega), hhas, hdrop, hend, htotal, Option.map_some]
  congr 1
  omega

include hsplits

end

end

/-- An image, with no text. -/
def image : NodeData :=
  (NodeData.blank.set .nodeType (25 : Int32)).set .blob_1 ([1, 2, 3] : Blob)

end Dirtsand.Vault
