import Dirtsand.FileServ.ManifestLines
import Dirtsand.Types.Uuid

/-!
# Manifests

`FileManifest` (FileServ/FileManifest.cpp) and `AuthManifest` (AuthServ/AuthManifest.cpp).

The hashes of a file are checked in bytes of UTF-8 and copied in units of UTF-16, and a
file without a name is encoded as the end of the list.

* `manifests_faithful_iff` — when a manifest of each kind is loaded and encoded
  faithfully.
-/

namespace Dirtsand.Manifest

open Lib.Reader (Reads)
open Settings (Codecs NoNul)
open Streams (writeU16)
open Vault (bytesOfUnits toUtf16)

/-! ## Numbers -/

/-- The base of a number for which `strtoul` is given none. -/
def baseOf (text : List Char) : Nat :=
  let digits := match text.dropWhile isSpace with
    | '-' :: cs => cs
    | '+' :: cs => cs
    | cs => cs
  match digits with
  | '0' :: x :: d :: _ => if (x = 'x' ∨ x = 'X') ∧ (digitValue 16 d).isSome then 16 else 8
  | '0' :: _ => 8
  | _ => 10

/-- `ST::string::to_uint`. -/
def toUint (s : String) : UInt32 := (strtoul (baseOf s.toList) s.toList).toUInt32

/-! ## Hashes -/

/-- `char16_t[32]`. -/
abbrev Hash := Vector UInt16 32

/-- The first units of a memory. -/
def hashOf (memory : List UInt16) : Option Hash :=
  if h : 32 ≤ memory.length then
    some ⟨(memory.take 32).toArray, by rw [List.size_toArray, List.length_take, Nat.min_eq_left h]⟩
  else none

/-- `memcpy` of 32 units from the buffer of `to_utf16`, where there is a NUL behind the units;
nothing, where the buffer ends before. -/
def copyHash (s : String) : Option Hash := hashOf (toUtf16 s ++ [0])

/-- A hash of 32 units. -/
def exactHash (s : String) : Option Hash :=
  if (toUtf16 s).length = 32 then hashOf (toUtf16 s) else none

/-- `ST::string::size`. -/
def byteSize (s : String) : Nat := (Strings.toUtf8 s).length

def writeHash (hash : Hash) : List UInt8 := bytesOfUnits hash.toList ++ writeU16 0

def readHash : Read Hash := do
  let units ← Strings.readUnits 32
  readNul
  match hashOf units with
  | some hash => pure hash
  | none => Lib.Reader.fail .malformedData

theorem hashOf_some {memory : List UInt16} {hash : Hash} :
    hashOf memory = some hash ↔ 32 ≤ memory.length ∧ hash.toList = memory.take 32 := by
  rw [hashOf]
  split
  · rename_i h
    rw [Option.some_inj]
    constructor
    · rintro rfl
      exact ⟨h, rfl⟩
    · rintro ⟨-, heq⟩
      rw [← Vector.toList_inj, heq]
      rfl
  · rename_i h
    constructor
    · intro hnone
      cases hnone
    · exact fun hsome => absurd hsome.1 h

theorem exactHash_some {s : String} {hash : Hash} :
    exactHash s = some hash ↔ (toUtf16 s).length = 32 ∧ hash.toList = toUtf16 s := by
  rw [exactHash]
  split
  · rename_i h
    rw [hashOf_some, List.take_of_length_le (Nat.le_of_eq h)]
    exact ⟨fun hhash => ⟨h, hhash.2⟩, fun hhash => ⟨Nat.le_of_eq h.symm, hhash.2⟩⟩
  · rename_i h
    constructor
    · intro hnone
      cases hnone
    · exact fun hsome => absurd hsome.1 h

theorem exists_exactHash {s : String} (h : (toUtf16 s).length = 32) :
    ∃ hash, exactHash s = some hash := by
  rw [exactHash, if_pos h, hashOf, dif_pos (Nat.le_of_eq h.symm)]
  exact ⟨_, rfl⟩

theorem copyHash_of_exactHash {s : String} {hash : Hash} (h : exactHash s = some hash) :
    copyHash s = some hash := by
  obtain ⟨hlength, hunits⟩ := exactHash_some.1 h
  have hmore : 32 ≤ (toUtf16 s ++ [0]).length := by
    rw [List.length_append]
    omega
  exact hashOf_some.2 ⟨hmore, hunits.trans (List.take_left' hlength).symm⟩

/-- A text has no more units than bytes. -/
theorem length_toUtf16_le (s : String) : (toUtf16 s).length ≤ byteSize s := by
  have hchars : ∀ cs : List Char, (cs.flatMap Vault.utf16Units).length ≤
      (cs.flatMap String.utf8EncodeChar).length := by
    intro cs
    induction cs with
    | nil => exact le_refl 0
    | cons c cs ih =>
      have hc : (Vault.utf16Units c).length ≤ (String.utf8EncodeChar c).length := by
        rw [String.length_utf8EncodeChar, Vault.utf16Units]
        have hpos := c.utf8Size_pos
        split
        · exact hpos
        · rename_i hwide
          have hbytes : c.utf8Size = 4 := by
            rw [Char.utf8Size_eq_four_iff, UInt32.lt_iff_toNat_lt]
            exact Nat.lt_of_not_le fun hle => hwide (Nat.lt_succ_of_le hle)
          show 2 ≤ _
          omega
      rw [List.flatMap_cons, List.flatMap_cons, List.length_append, List.length_append]
      omega
  exact hchars s.toList

/-- A hash that was copied without a NUL has 32 units. -/
theorem exactHash_of_copyHash {s : String} {hash : Hash} (hsize : byteSize s = 32)
    (hcopy : copyHash s = some hash) (hnul : (0 : UInt16) ∉ hash.toList) :
    exactHash s = some hash := by
  obtain ⟨hmore, hhash⟩ := hashOf_some.1 hcopy
  have hle := length_toUtf16_le s
  rw [List.length_append, List.length_singleton] at hmore
  have hlength : (toUtf16 s).length = 32 := by
    by_contra hne
    have hall : hash.toList = toUtf16 s ++ [0] := by
      rw [hhash, List.take_of_length_le]
      rw [List.length_append, List.length_singleton]
      omega
    exact hnul (hall ▸ List.mem_append_right _ List.mem_cons_self)
  rw [List.take_append_of_le_length (Nat.le_of_eq hlength.symm),
    List.take_of_length_le (Nat.le_of_eq hlength)] at hhash
  exact exactHash_some.2 ⟨hlength, hhash⟩

theorem exactHash_noNul {s : String} {hash : Hash} (h : NoNul s) (hhash : exactHash s = some hash) :
    (0 : UInt16) ∉ hash.toList := by
  rw [(exactHash_some.1 hhash).2]
  exact nul_not_mem_toUtf16 h

theorem reads_hash (hash : Hash) : Reads readHash (writeHash hash) hash := by
  have hlength : hash.toList.length = 32 := hash.length_toList
  have hunits := Strings.reads_units hash.toList
  rw [hlength] at hunits
  have hhash : hashOf hash.toList = some hash :=
    hashOf_some.2 ⟨Nat.le_of_eq hlength.symm, (List.take_of_length_le (Nat.le_of_eq hlength)).symm⟩
  refine hunits.bind (reads_nul.andThen ?_)
  rw [hhash]
  exact .pure hash

/-! ## The manifests of the file server -/

namespace FileManifest

structure FileInfo where
  filename : String
  downloadName : String
  fileHash : Hash
  downloadHash : Hash
  fileSize : UInt32
  downloadSize : UInt32
  flags : UInt32
deriving DecidableEq

/-- What the loop does with the parts of a line. -/
def addFile : List String → Except LoadError (Option FileInfo)
  | [filename, downloadName, fileHash, downloadHash, fileSize, downloadSize, flags] =>
    if byteSize fileHash ≠ 32 ∨ byteSize downloadHash ≠ 32 then .ok none
    else
      match copyHash fileHash, copyHash downloadHash with
      | some fileHash, some downloadHash =>
        .ok (some ⟨filename, downloadName, fileHash, downloadHash, toUint fileSize,
          toUint downloadSize, toUint flags⟩)
      | _, _ => .error .outside
  | _ => .ok none

def loadManifest (codecs : Codecs) :
    Option (List UInt8) → Except LoadError (NetResultCode × List FileInfo) :=
  Manifest.loadManifest codecs addFile

/-- What is written for an entry. -/
def writeFile (info : FileInfo) : List UInt8 :=
  writeString info.filename ++ writeU16 0 ++ (writeString info.downloadName ++ writeU16 0 ++
    (writeHash info.fileHash ++ (writeHash info.downloadHash ++ (writeHalves info.fileSize ++
      (writeHalves info.downloadSize ++ writeHalves info.flags)))))

def encodeToStream (files : List FileInfo) (stream : BufferStream) : BufferStream × UInt32 :=
  Manifest.encodeToStream writeFile files stream

/-- The hashes pass the checks. -/
def Accepted : List String → Prop
  | [_, _, fileHash, downloadHash, _, _, _] => byteSize fileHash = 32 ∧ byteSize downloadHash = 32
  | _ => False

/-- Seven parts, of which two are hashes of 32 units. -/
def wellFormed : List String → Option FileInfo
  | [filename, downloadName, fileHash, downloadHash, fileSize, downloadSize, flags] =>
    match exactHash fileHash, exactHash downloadHash with
    | some fileHash, some downloadHash =>
      some ⟨filename, downloadName, fileHash, downloadHash, toUint fileSize,
        toUint downloadSize, toUint flags⟩
    | _, _ => none
  | _ => none

/-- If there are seven parts, the hashes have 32 bytes exactly if they have 32 units. -/
def HashesFit : List String → Prop
  | [_, _, fileHash, downloadHash, _, _, _] =>
    (byteSize fileHash = 32 ∧ byteSize downloadHash = 32 ↔
      (toUtf16 fileHash).length = 32 ∧ (toUtf16 downloadHash).length = 32)
  | _ => True

/-- An entry, if its name is not empty. -/
def readFile : Read (Option FileInfo) := do
  let filename ← readName
  if filename = "" then pure none
  else
    let downloadName ← readName
    let fileHash ← readHash
    let downloadHash ← readHash
    let fileSize ← readHalves
    let downloadSize ← readHalves
    let flags ← readHalves
    pure (some ⟨filename, downloadName, fileHash, downloadHash, fileSize, downloadSize, flags⟩)

def kind : Kind FileInfo where
  addFile := addFile
  writeFile := writeFile
  Accepted := Accepted
  wellFormed := wellFormed
  Agrees := HashesFit
  readFile := readFile
  filename := FileInfo.filename
  units info := (toUtf16 info.filename).length + (toUtf16 info.downloadName).length + 77

/-- A line with more or fewer parts. -/
theorem of_length_ne {parts : List String} (h : parts.length ≠ 7) :
    addFile parts = .ok none ∧ ¬ Accepted parts ∧ wellFormed parts = none ∧ HashesFit parts := by
  unfold addFile Accepted wellFormed HashesFit
  split
  · exact absurd rfl h
  · exact ⟨rfl, not_false, rfl, trivial⟩

theorem exists_parts {parts : List String} (h : parts.length = 7) :
    ∃ filename downloadName fileHash downloadHash fileSize downloadSize flags,
      parts = [filename, downloadName, fileHash, downloadHash, fileSize, downloadSize, flags] := by
  match parts, h with
  | [a, b, c, d, e, f, g], _ => exact ⟨a, b, c, d, e, f, g, rfl⟩

section

variable {filename downloadName fileHash downloadHash fileSize downloadSize flags : String}

theorem addFile_eq_none :
    addFile [filename, downloadName, fileHash, downloadHash, fileSize, downloadSize, flags] =
      .ok none ↔ ¬ (byteSize fileHash = 32 ∧ byteSize downloadHash = 32) := by
  rw [not_and_or, addFile]
  split
  · rename_i hsize
    exact ⟨fun _ => hsize, fun _ => rfl⟩
  · rename_i hsize
    constructor
    · intro h
      split at h
      · cases h
      · cases h
    · exact fun h => absurd h hsize

theorem addFile_eq_some {info : FileInfo} :
    addFile [filename, downloadName, fileHash, downloadHash, fileSize, downloadSize, flags] =
      .ok (some info) ↔ (byteSize fileHash = 32 ∧ byteSize downloadHash = 32) ∧
        ∃ hash hash', copyHash fileHash = some hash ∧ copyHash downloadHash = some hash' ∧
          info = ⟨filename, downloadName, hash, hash', toUint fileSize, toUint downloadSize,
            toUint flags⟩ := by
  rw [addFile]
  split
  · rename_i hsize
    constructor
    · intro h
      cases h
    · rintro ⟨⟨hfile, hdownload⟩, -⟩
      exact absurd hsize (not_or.2 ⟨not_not.2 hfile, not_not.2 hdownload⟩)
  · rename_i hsize
    obtain ⟨hfile, hdownload⟩ := not_or.1 hsize
    have hsizes := And.intro (not_not.1 hfile) (not_not.1 hdownload)
    cases copyHash fileHash with
    | none => simp
    | some hash =>
      cases copyHash downloadHash with
      | none => simp
      | some hash' => simp [hsizes, eq_comm]

theorem wellFormed_eq_some {info : FileInfo} :
    wellFormed [filename, downloadName, fileHash, downloadHash, fileSize, downloadSize, flags] =
      some info ↔ ∃ hash hash', exactHash fileHash = some hash ∧
        exactHash downloadHash = some hash' ∧ info = ⟨filename, downloadName, hash, hash',
          toUint fileSize, toUint downloadSize, toUint flags⟩ := by
  rw [wellFormed]
  cases exactHash fileHash with
  | none => simp
  | some hash =>
    cases exactHash downloadHash with
    | none => simp
    | some hash' => simp [eq_comm]

end

theorem agrees (parts : List String) :
    addFile parts = .ok (wellFormed parts) ↔ HashesFit parts := by
  by_cases hlength : parts.length = 7
  · obtain ⟨a, b, fileHash, downloadHash, c, d, e, rfl⟩ := exists_parts hlength
    show _ ↔ (byteSize fileHash = 32 ∧ byteSize downloadHash = 32 ↔
      (toUtf16 fileHash).length = 32 ∧ (toUtf16 downloadHash).length = 32)
    by_cases hunits : (toUtf16 fileHash).length = 32 ∧ (toUtf16 downloadHash).length = 32
    · obtain ⟨hash, hexact⟩ := exists_exactHash hunits.1
      obtain ⟨hash', hexact'⟩ := exists_exactHash hunits.2
      rw [wellFormed_eq_some.2 ⟨hash, hash', hexact, hexact', rfl⟩, addFile_eq_some]
      constructor
      · exact fun h => ⟨fun _ => hunits, fun _ => h.1⟩
      · exact fun h => ⟨h.2 hunits, hash, hash', copyHash_of_exactHash hexact,
          copyHash_of_exactHash hexact', rfl⟩
    · have hnone : wellFormed [a, b, fileHash, downloadHash, c, d, e] = none := by
        rw [Option.eq_none_iff_forall_ne_some]
        intro info hinfo
        obtain ⟨hash, hash', hexact, hexact', -⟩ := wellFormed_eq_some.1 hinfo
        exact hunits ⟨(exactHash_some.1 hexact).1, (exactHash_some.1 hexact').1⟩
      rw [hnone, addFile_eq_none]
      exact ⟨fun h => ⟨fun hsize => absurd hsize h, fun hu => absurd hu hunits⟩,
        fun h hsize => hunits (h.1 hsize)⟩
  · obtain ⟨hadd, -, hnone, hfit⟩ := of_length_ne hlength
    rw [hadd, hnone]
    exact ⟨fun _ => hfit, fun _ => rfl⟩

theorem added {parts parts' : List String} {info : FileInfo} (hnul : NoNuls parts')
    (hinfo : wellFormed parts' = some info) :
    addFile parts = .ok (some info) ↔ Accepted parts ∧ wellFormed parts = some info := by
  have hlength' : parts'.length = 7 := by
    by_contra hne
    rw [(of_length_ne hne).2.2.1] at hinfo
    cases hinfo
  obtain ⟨a', b', fileHash', downloadHash', c', d', e', rfl⟩ := exists_parts hlength'
  obtain ⟨hash, hash', hexact, hexact', rfl⟩ := wellFormed_eq_some.1 hinfo
  have hzero := exactHash_noNul (hnul fileHash' (by simp)) hexact
  have hzero' := exactHash_noNul (hnul downloadHash' (by simp)) hexact'
  by_cases hlength : parts.length = 7
  · obtain ⟨a, b, fileHash, downloadHash, c, d, e, rfl⟩ := exists_parts hlength
    rw [addFile_eq_some, wellFormed_eq_some]
    constructor
    · rintro ⟨hsize, hash₁, hash₂, hcopy, hcopy', heq⟩
      obtain ⟨rfl, rfl⟩ : hash = hash₁ ∧ hash' = hash₂ :=
        ⟨congrArg FileInfo.fileHash heq, congrArg FileInfo.downloadHash heq⟩
      exact ⟨hsize, hash, hash', exactHash_of_copyHash hsize.1 hcopy hzero,
        exactHash_of_copyHash hsize.2 hcopy' hzero', heq⟩
    · rintro ⟨hsize, hash₁, hash₂, hsome, hsome', heq⟩
      exact ⟨hsize, hash₁, hash₂, copyHash_of_exactHash hsome, copyHash_of_exactHash hsome', heq⟩
  · obtain ⟨hadd, hnot, -, -⟩ := of_length_ne hlength
    rw [hadd]
    constructor
    · intro h
      cases h
    · exact fun h => absurd h.1 hnot

theorem lawful_kind : kind.Lawful where
  blank := not_false
  ignored parts := by
    by_cases hlength : parts.length = 7
    · obtain ⟨a, b, fileHash, downloadHash, c, d, e, rfl⟩ := exists_parts hlength
      exact addFile_eq_none
    · obtain ⟨hadd, hnot, -, -⟩ := of_length_ne hlength
      exact ⟨fun _ => hnot, fun _ => hadd⟩
  agrees := agrees
  added _ _ _ := added
  named parts info hnul hinfo hne := by
    have hlength : parts.length = 7 := by
      by_contra hlength
      have hnone : wellFormed parts = none := (of_length_ne hlength).2.2.1
      cases hnone.symm.trans hinfo
    obtain ⟨filename, downloadName, fileHash, downloadHash, c, d, e, rfl⟩ := exists_parts hlength
    obtain ⟨hash, hash', -, -, rfl⟩ := wellFormed_eq_some.1 hinfo
    refine (reads_name (hnul filename (by simp))).bind ?_
    rw [if_neg (show filename ≠ "" from hne)]
    exact (reads_name (hnul downloadName (by simp))).bind ((reads_hash hash).bind
      ((reads_hash hash').bind ((reads_halves _).bind ((reads_halves _).bind
        ((reads_halves _).andThen (.pure _))))))
  unnamed _ hempty := mark_prefix hempty _
  mark := reads_noName.andThen (.pure none)
  length info := by
    have hunit : (writeU16 0).length = 2 := rfl
    have hhalves : ∀ v, (writeHalves v).length = 6 := fun v => rfl
    have hhash : ∀ hash : Hash, (writeHash hash).length = 66 := by
      intro hash
      rw [writeHash, List.length_append, Vault.length_bytesOfUnits, Vector.length_toList, hunit]
    show (writeFile info).length = 2 * (_ + _ + 77)
    simp only [writeFile, writeString, List.length_append, Vault.length_bytesOfUnits, hunit,
      hhalves, hhash]
    omega

end FileManifest

/-! ## The manifests of the authentication server -/

namespace AuthManifest

structure AuthFileInfo where
  filename : String
  fileSize : UInt32
deriving DecidableEq

/-- What the loop does with the parts of a line. -/
def addFile : List String → Except LoadError (Option AuthFileInfo)
  | [filename, fileSize] => .ok (some ⟨filename, toUint fileSize⟩)
  | _ => .ok none

def loadManifest (codecs : Codecs) :
    Option (List UInt8) → Except LoadError (NetResultCode × List AuthFileInfo) :=
  Manifest.loadManifest codecs addFile

/-- What is written for an entry. -/
def writeFile (info : AuthFileInfo) : List UInt8 :=
  writeString info.filename ++ writeU16 0 ++ writeHalves info.fileSize

def encodeToStream (files : List AuthFileInfo) (stream : BufferStream) : BufferStream × UInt32 :=
  Manifest.encodeToStream writeFile files stream

/-- There are two parts. -/
def Accepted (parts : List String) : Prop := parts.length = 2

def wellFormed : List String → Option AuthFileInfo
  | [filename, fileSize] => some ⟨filename, toUint fileSize⟩
  | _ => none

/-- An entry, if its name is not empty. -/
def readFile : Read (Option AuthFileInfo) := do
  let filename ← readName
  if filename = "" then pure none
  else
    let fileSize ← readHalves
    pure (some ⟨filename, fileSize⟩)

def kind : Kind AuthFileInfo where
  addFile := addFile
  writeFile := writeFile
  Accepted := Accepted
  wellFormed := wellFormed
  Agrees _ := True
  readFile := readFile
  filename := AuthFileInfo.filename
  units info := (toUtf16 info.filename).length + 4

theorem addFile_eq (parts : List String) : addFile parts = .ok (wellFormed parts) := by
  unfold addFile wellFormed
  split
  · rfl
  · rfl

theorem wellFormed_eq_some {parts : List String} {info : AuthFileInfo} :
    wellFormed parts = some info ↔ ∃ filename fileSize, parts = [filename, fileSize] ∧
      info = ⟨filename, toUint fileSize⟩ := by
  unfold wellFormed
  split
  · rename_i filename fileSize
    simp [eq_comm]
  · rename_i hnot
    constructor
    · intro h
      cases h
    · rintro ⟨filename, fileSize, rfl, -⟩
      exact absurd rfl (hnot filename fileSize)

theorem wellFormed_eq_none (parts : List String) : wellFormed parts = none ↔ ¬ Accepted parts := by
  rw [Option.eq_none_iff_forall_ne_some, Accepted, List.length_eq_two]
  constructor
  · rintro h ⟨filename, fileSize, rfl⟩
    exact h _ rfl
  · intro h info hinfo
    obtain ⟨filename, fileSize, rfl, -⟩ := wellFormed_eq_some.1 hinfo
    exact h ⟨filename, fileSize, rfl⟩

theorem lawful_kind : kind.Lawful where
  blank := show ¬ [""].length = 2 by decide
  ignored parts := by
    show addFile parts = .ok none ↔ ¬ Accepted parts
    rw [addFile_eq, Except.ok.injEq, wellFormed_eq_none]
  agrees parts := ⟨fun _ => trivial, fun _ => addFile_eq parts⟩
  added parts parts' info _ _ := by
    show addFile parts = .ok (some info) ↔ Accepted parts ∧ wellFormed parts = some info
    rw [addFile_eq, Except.ok.injEq]
    refine ⟨fun h => ⟨?_, h⟩, And.right⟩
    obtain ⟨filename, fileSize, rfl, -⟩ := wellFormed_eq_some.1 h
    rfl
  named parts info hnul hinfo hne := by
    obtain ⟨filename, fileSize, rfl, rfl⟩ := wellFormed_eq_some.1 hinfo
    refine (reads_name (hnul filename (by simp))).bind ?_
    rw [if_neg (show filename ≠ "" from hne)]
    exact (reads_halves _).andThen (.pure _)
  unnamed _ hempty := mark_prefix hempty _
  mark := reads_noName.andThen (.pure none)
  length info := by
    have hunit : (writeU16 0).length = 2 := rfl
    have hhalves : (writeHalves info.fileSize).length = 6 := rfl
    show (writeFile info).length = 2 * (_ + 4)
    simp only [writeFile, writeString, List.length_append, Vault.length_bytesOfUnits, hunit, hhalves]
    omega

end AuthManifest

/-! ## Both kinds -/

/-- **When a manifest is loaded and encoded faithfully**, on the file server and on the
authentication server. -/
theorem manifests_faithful_iff {codecs : Codecs} (hplain : codecs.Plain) (file : List UInt8) :
    (Faithful (FileManifest.loadManifest codecs) FileManifest.encodeToStream
        (entryOf FileManifest.kind codecs) FileManifest.readFile file ↔
      Holds FileManifest.kind codecs file) ∧
    (Faithful (AuthManifest.loadManifest codecs) AuthManifest.encodeToStream
        (entryOf AuthManifest.kind codecs) AuthManifest.readFile file ↔
      Holds AuthManifest.kind codecs file) :=
  ⟨faithful_iff FileManifest.lawful_kind hplain file,
    faithful_iff AuthManifest.lawful_kind hplain file⟩

/-- Texts in UTF-8, and no keys. -/
def utf8Codecs : Codecs where
  ofBytes bytes :=
    let text := String.ofList (Strings.decodeUtf8 bytes)
    if Strings.toUtf8 text = bytes then some text else none
  base64Decode _ := none
  hexDecode _ := none
  toBool text := text = "true"

theorem plain_utf8Codecs : utf8Codecs.Plain := by
  intro bytes text hzero htext hmem
  have hbytes : Strings.toUtf8 text = bytes := by
    change (if _ then some _ else none) = _ at htext
    split at htext
    · rename_i hbytes
      rwa [Option.some.inj htext] at hbytes
    · cases htext
  have hnul : (0 : UInt8) ∈ Strings.toUtf8 text :=
    List.mem_flatMap.2 ⟨'\x00', hmem, by decide⟩
  exact hzero (hbytes ▸ hnul)

theorem utf8Codecs_toUtf8 (s : String) : utf8Codecs.ofBytes (Strings.toUtf8 s) = some s := by
  have hdecode : String.ofList (Strings.decodeUtf8 (Strings.toUtf8 s)) = s := by
    rw [Strings.toUtf8, Strings.decodes_decodeUtf8.encode, String.ofList_toList]
  show (if Strings.toUtf8 (String.ofList _) = _ then some (String.ofList _) else none) = _
  rw [hdecode, if_pos rfl]

theorem textOf_toUtf8 {s : String} (h : (Strings.toUtf8 s).takeWhile (· ≠ 0) = Strings.toUtf8 s) :
    textOf utf8Codecs (Strings.toUtf8 s) = some s := by
  rw [textOf, h, utf8Codecs_toUtf8]

def digits : String := String.ofList (List.replicate 32 '0')

/-- 32 bytes, and 16 units. -/
def accents : String := String.ofList (List.replicate 16 'é')

def lineOf (hash : String) : String := "a,b," ++ hash ++ "," ++ digits ++ ",1,1,0"

/-- A manifest of one line. -/
def manifestOf (hash : String) : List UInt8 := Strings.toUtf8 (lineOf hash)

section Texts

variable {ε : Type} {K : Kind ε} {s : String}

theorem takeWhile_toUtf8 (h : 0 ∉ Strings.toUtf8 s) :
    (Strings.toUtf8 s).takeWhile (· ≠ 0) = Strings.toUtf8 s := by
  rw [List.takeWhile_eq_self_iff]
  intro b hb
  exact decide_eq_true fun hzero => h (hzero ▸ hb)

theorem not_binary_toUtf8 (h : 0 ∉ Strings.toUtf8 s) : ¬ Binary (Strings.toUtf8 s) :=
  fun hmem => h ((List.takeWhile_sublist _).mem hmem)

theorem entryOf_toUtf8 (h : 0 ∉ Strings.toUtf8 s) :
    entryOf K utf8Codecs (Strings.toUtf8 s) = K.wellFormed (partsOf s) := by
  rw [entryOf, if_neg (not_binary_toUtf8 h), textOf_toUtf8 (takeWhile_toUtf8 h)]
  rfl

theorem lineHolds_toUtf8 (h : 0 ∉ Strings.toUtf8 s) (hshort : (Strings.toUtf8 s).length ≤ 4095)
    (hagrees : K.Agrees (partsOf s)) : LineHolds K utf8Codecs (Strings.toUtf8 s) := by
  rw [LineHolds, if_pos hshort]
  refine ⟨s, textOf_toUtf8 (takeWhile_toUtf8 h), ?_⟩
  rwa [if_neg (not_binary_toUtf8 h)]

/-- A manifest of short lines, which are texts without a NUL. -/
theorem holds_texts {file : List UInt8} {texts : List String}
    (hlines : Lines.lines file = texts.map Strings.toUtf8)
    (hplain : ∀ s ∈ texts, 0 ∉ Strings.toUtf8 s ∧ (Strings.toUtf8 s).length ≤ 4095)
    (hagrees : ∀ parts ∈ texts.map partsOf, K.Agrees parts)
    (hnamed : ∀ entry ∈ (texts.map partsOf).filterMap K.wellFormed, K.filename entry ≠ "")
    (hsmall : (((texts.map partsOf).filterMap K.wellFormed).map K.units).sum + 1 < 2 ^ 31) :
    (Lines.lines file).filterMap (entryOf K utf8Codecs) =
        (texts.map partsOf).filterMap K.wellFormed ∧ Holds K utf8Codecs file := by
  have hentries : (Lines.lines file).filterMap (entryOf K utf8Codecs) =
      (texts.map partsOf).filterMap K.wellFormed := by
    rw [hlines, List.filterMap_map, List.filterMap_map]
    exact List.filterMap_congr fun s hs => entryOf_toUtf8 (hplain s hs).1
  refine ⟨hentries, fun line hline => ?_, fun line hline entry hentry => ?_, ?_⟩
  · rw [hlines] at hline
    obtain ⟨s, hs, rfl⟩ := List.mem_map.1 hline
    exact lineHolds_toUtf8 (hplain s hs).1 (hplain s hs).2
      (hagrees _ (List.mem_map_of_mem hs))
  · refine hnamed entry ?_
    rw [← hentries]
    exact List.mem_filterMap.2 ⟨line, hline, hentry⟩
  · rw [hentries]
    exact hsmall

end Texts

/-- A line for the file server, and one for the authentication server. -/
def fileLine (name : String) : String := name ++ ",b," ++ digits ++ "," ++ digits ++ ",1,1,0\n"

def authLine (name : String) : String := name ++ ",5\n"

/-- A manifest of both kinds. -/
def mixedLines : List String :=
  [fileLine "a", authLine "b", "# none\n", fileLine "c", authLine "d"]

def mixed : List UInt8 := mixedLines.flatMap Strings.toUtf8

theorem lines_mixed : Lines.lines mixed = mixedLines.map Strings.toUtf8 := by
  decide +kernel

theorem plain_mixed :
    ∀ s ∈ mixedLines, 0 ∉ Strings.toUtf8 s ∧ (Strings.toUtf8 s).length ≤ 4095 := by
  decide +kernel

theorem partsOf_mixed : mixedLines.map partsOf =
    [["a", "b", digits, digits, "1", "1", "0"], ["b", "5"], [""],
      ["c", "b", digits, digits, "1", "1", "0"], ["d", "5"]] := by
  decide +kernel

theorem holds_mixed_file :
    ((Lines.lines mixed).filterMap (entryOf FileManifest.kind utf8Codecs)).map
        FileManifest.FileInfo.filename = ["a", "c"] ∧
      Holds FileManifest.kind utf8Codecs mixed := by
  obtain ⟨hentries, hholds⟩ := holds_texts (K := FileManifest.kind) lines_mixed plain_mixed
    (by
      rw [partsOf_mixed]
      simp only [List.forall_mem_cons]
      refine ⟨⟨fun _ => by decide, fun _ => by decide⟩, trivial, trivial,
        ⟨fun _ => by decide, fun _ => by decide⟩, trivial, List.forall_mem_nil _⟩)
    (by rw [partsOf_mixed]; decide +kernel) (by rw [partsOf_mixed]; decide +kernel)
  refine ⟨?_, hholds⟩
  rw [hentries, partsOf_mixed]
  decide +kernel

theorem holds_mixed_auth :
    ((Lines.lines mixed).filterMap (entryOf AuthManifest.kind utf8Codecs)).map
        AuthManifest.AuthFileInfo.filename = ["b", "d"] ∧
      Holds AuthManifest.kind utf8Codecs mixed := by
  obtain ⟨hentries, hholds⟩ := holds_texts (K := AuthManifest.kind) lines_mixed plain_mixed
    (fun _ _ => trivial)
    (by rw [partsOf_mixed]; decide +kernel) (by rw [partsOf_mixed]; decide +kernel)
  refine ⟨?_, hholds⟩
  rw [hentries, partsOf_mixed]
  decide +kernel

/-- Each server keeps its own lines of the manifest, in their order. -/
theorem manifests_faithful_mixed :
    Faithful (FileManifest.loadManifest utf8Codecs) FileManifest.encodeToStream
        (entryOf FileManifest.kind utf8Codecs) FileManifest.readFile mixed ∧
      ((Lines.lines mixed).filterMap (entryOf FileManifest.kind utf8Codecs)).map
        FileManifest.FileInfo.filename = ["a", "c"] ∧
      Faithful (AuthManifest.loadManifest utf8Codecs) AuthManifest.encodeToStream
        (entryOf AuthManifest.kind utf8Codecs) AuthManifest.readFile mixed ∧
      ((Lines.lines mixed).filterMap (entryOf AuthManifest.kind utf8Codecs)).map
        AuthManifest.AuthFileInfo.filename = ["b", "d"] := by
  obtain ⟨hfile, hauth⟩ := manifests_faithful_iff plain_utf8Codecs mixed
  exact ⟨hfile.2 holds_mixed_file.2, holds_mixed_file.1, hauth.2 holds_mixed_auth.2,
    holds_mixed_auth.1⟩

/-- A hash of 32 bytes that are 16 units: the memory behind them is read. -/
theorem manifests_fail :
    FileManifest.loadManifest utf8Codecs (some (manifestOf accents)) = .error .outside ∧
      ¬ Faithful (FileManifest.loadManifest utf8Codecs) FileManifest.encodeToStream
        (entryOf FileManifest.kind utf8Codecs) FileManifest.readFile (manifestOf accents) := by
  have hfgets : (Settings.fgets 4095 (manifestOf accents)).1 = manifestOf accents := by decide
  have hwhole : ((Lines.lines (manifestOf accents)).take 1).flatten = manifestOf accents := by
    decide
  have hne : manifestOf accents ≠ [] := by decide
  have htext : textOf utf8Codecs (manifestOf accents) = some (lineOf accents) :=
    textOf_toUtf8 (by decide)
  have hparts : partsOf (lineOf accents) = ["a", "b", accents, digits, "1", "1", "0"] := by decide
  have hadd : FileManifest.addFile ["a", "b", accents, digits, "1", "1", "0"] =
      .error .outside := by
    decide
  have hline : loadLine utf8Codecs FileManifest.kind.addFile (manifestOf accents) =
      .error .outside := by
    rw [loadLine_eq FileManifest.lawful_kind, htext, ← hadd, ← hparts]
    rfl
  have hload : FileManifest.loadManifest utf8Codecs (some (manifestOf accents)) =
      .error .outside :=
    loadManifest_error (K := FileManifest.kind) hne (hfgets.symm ▸ hline)
  refine ⟨hload, fun h => ?_⟩
  have hkept := h.kept 1
  rw [hwhole, hload] at hkept
  cases hkept

end Dirtsand.Manifest
