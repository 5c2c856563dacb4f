import Dirtsand.Config
import Dirtsand.Lib.Listed
import Dirtsand.Streams.Encrypted
import Dirtsand.Streams.Lines
import Dirtsand.Streams.Strings

/-!
# What the two kinds of manifests share

`FileManifest` (FileServ/FileManifest.cpp) and `AuthManifest` (AuthServ/AuthManifest.cpp)
load a file line by line, and encode what they hold in the same way: each entry begins
with its name, and the list ends where a name would be empty.

`loadManifest` and `encodeToStream` here have what is done with the parts of a line, and
with an entry, as parameters.

* `faithful_iff` — when such a manifest is loaded and encoded faithfully.
-/

namespace Dirtsand.Manifest

open Lib.Reader (Reads listed)
open Lines (Lined lines pieces)
open Settings (Codecs NoNul fgets length_fgets_lt)
open Streams (readU16 reads_u16 writeU16)
open Vault (bytesOfUnits toUtf16)

/-- How `loadManifest` ends other than with a result: with `ST::unicode_error`, or with a read of
the memory behind a string. -/
inductive LoadError where
  | unicode
  | outside
deriving DecidableEq, Repr

/-! ## Loading -/

/-- `split(sep)`. -/
def split (sep : Char) (s : String) : List String := (s.toList.splitOn sep).map String.ofList

section

variable {ε : Type} (codecs : Codecs) (addFile : List String → Except LoadError (Option ε))

/-- The body of the loop. -/
def loadLine (lnbuf : List UInt8) : Except LoadError (Option ε) :=
  match codecs.ofBytes (lnbuf.takeWhile (· ≠ 0)) with
  | none => .error .unicode
  | some text =>
    let line := trim (beforeFirst '#' text)
    if line = "" then .ok none else addFile (split ',' line)

def loadLines (files : List ε) (bytes : List UInt8) : Except LoadError (List ε) :=
  if bytes = [] then .ok files
  else
    match loadLine codecs addFile (fgets 4095 bytes).1 with
    | .error e => .error e
    | .ok file => loadLines (files ++ file.toList) (fgets 4095 bytes).2
termination_by bytes.length
decreasing_by exact length_fgets_lt ‹_›

/-- `loadManifest`, with the bytes of the file if it can be opened. -/
def loadManifest : Option (List UInt8) → Except LoadError (NetResultCode × List ε)
  | none => .ok (.fileNotFound, [])
  | some bytes =>
    match loadLines codecs addFile [] bytes with
    | .error e => .error e
    | .ok files => .ok (.success, files)

end

/-! ## Encoding -/

/-- `writeString` with `e_StringUTF16`. -/
def writeString (s : String) : List UInt8 := bytesOfUnits (toUtf16 s)

/-- A number in two halves. -/
def writeHalves (v : UInt32) : List UInt8 :=
  writeU16 (v >>> 16).toUInt16 ++ (writeU16 (v &&& 0xFFFF).toUInt16 ++ writeU16 0)

/-- `encodeToStream`, with what is returned. -/
def encodeToStream {ε : Type} (writeFile : ε → List UInt8) (files : List ε)
    (stream : BufferStream) : BufferStream × UInt32 :=
  let start := stream.tell
  let stream := stream.writeBytes (files.flatMap writeFile ++ writeU16 0)
  (stream, (stream.tell - start) / 2)

/-! ## The format -/

/-- A unit of a string, or the NUL behind it. -/
def readUnit : Read (Option UInt16) := do
  let u ← readU16
  pure (if u = 0 then none else some u)

/-- A null-terminated string. -/
def readName : Read String := do
  let units ← listed .malformedData readUnit
  pure (Vault.decodeUtf16 units)

def readNul : Read Unit := do
  let u ← readU16
  if u = 0 then pure () else Lib.Reader.fail .malformedData

def readHalves : Read UInt32 := do
  let high ← readU16
  let low ← readU16
  readNul
  pure (high.toUInt32 <<< 16 ||| low.toUInt32)

/-- The entries of a manifest, for a reader that finds none where the name is empty. -/
def decode {ε : Type} (readFile : Read (Option ε)) (bytes : List UInt8) :
    Except StreamError (List ε × List UInt8) :=
  listed .malformedData readFile bytes

theorem reads_nul : Reads readNul (writeU16 0) () :=
  (reads_u16 0).andThen (.pure ())

theorem nul_not_mem_toUtf16 {s : String} (h : NoNul s) : (0 : UInt16) ∉ toUtf16 s := by
  intro hmem
  obtain ⟨c, hc, hunit⟩ := List.mem_flatMap.1 hmem
  have hpos : c.toNat ≠ 0 := by
    intro hzero
    have hnul : c = '\x00' := by rw [← Char.ofNat_toNat c, hzero]
    exact h (hnul ▸ hc)
  have hvalid : c.toNat < 0xD800 ∨ 0xDFFF < c.toNat ∧ c.toNat < 0x110000 := c.valid
  have hnat : ∀ n : Nat, 0 < n → n < 65536 → UInt16.ofNat n ≠ 0 := by
    intro n hn hlt heq
    have hsame := congrArg UInt16.toNat heq
    rw [UInt16.toNat_ofNat_of_lt' hlt] at hsame
    exact Nat.ne_of_gt hn hsame
  rw [Vault.utf16Units] at hunit
  split at hunit
  · rw [List.mem_singleton] at hunit
    exact hnat _ (by omega) (by omega) hunit.symm
  · rw [List.mem_pair] at hunit
    obtain hunit | hunit := hunit
    · exact hnat _ (by omega) (by omega) hunit.symm
    · exact hnat _ (by omega) (by omega) hunit.symm

/-- **A null-terminated string is read as it was written.** -/
theorem reads_name {s : String} (h : NoNul s) : Reads readName (writeString s ++ writeU16 0) s := by
  have hunits : Reads (listed .malformedData readUnit) (writeString s ++ writeU16 0) (toUtf16 s) := by
    refine Lib.Reader.reads_listed (fun u hu => List.cons_ne_nil _ _) (fun u hu => ?_)
      ((reads_u16 0).andThen (.pure _))
    have hne : u ≠ 0 := fun hzero => nul_not_mem_toUtf16 h (hzero ▸ hu)
    have hread : Reads readUnit (writeU16 u) (if u = 0 then none else some u) :=
      (reads_u16 u).andThen (.pure _)
    rwa [if_neg hne] at hread
  refine hunits.andThen ?_
  rw [Vault.decodes_decodeUtf16.valid]
  exact .pure s

/-- What is read of the mark at the end of the list. -/
theorem reads_noName : Reads readName (writeU16 0) "" := by
  have hnul : NoNul "" := by decide
  exact reads_name hnul

theorem mark_prefix {s : String} (h : s = "") (rest : List UInt8) :
    writeU16 0 <+: writeString s ++ writeU16 0 ++ rest := by
  rw [h]
  exact List.prefix_append (writeU16 0) rest

theorem reads_halves (v : UInt32) : Reads readHalves (writeHalves v) v := by
  refine (reads_u16 _).bind ((reads_u16 _).bind (reads_nul.andThen ?_))
  have hv : (v >>> 16).toUInt16.toUInt32 <<< 16 ||| (v &&& 0xFFFF).toUInt16.toUInt32 = v := by
    have hv := v.toNat_lt
    have hhigh : (v >>> 16).toUInt16.toUInt32.toNat = v.toNat / 2 ^ 16 := by
      rw [UInt16.toNat_toUInt32, UInt32.toNat_toUInt16, UInt32.toNat_shiftRight]
      show v.toNat >>> 16 % 2 ^ 16 = _
      rw [Nat.shiftRight_eq_div_pow]
      omega
    have hlow : (v &&& 0xFFFF).toUInt16.toUInt32.toNat = v.toNat % 2 ^ 16 := by
      rw [UInt16.toNat_toUInt32, UInt32.toNat_toUInt16, UInt32.toNat_and]
      show (v.toNat &&& 2 ^ 16 - 1) % 2 ^ 16 = _
      rw [Nat.and_two_pow_sub_one_eq_mod, Nat.mod_mod]
    rw [← UInt32.toNat_inj, UInt32.toNat_or, UInt32.toNat_shiftLeft, hhigh, hlow]
    show (v.toNat / 2 ^ 16) <<< 16 % 2 ^ 32 ||| v.toNat % 2 ^ 16 = _
    have hfits : (v.toNat / 2 ^ 16) <<< 16 < 2 ^ 32 := by
      rw [Nat.shiftLeft_eq]
      omega
    rw [Nat.mod_eq_of_lt hfits,
      ← Nat.shiftLeft_add_eq_or_of_lt (Nat.mod_lt _ (Nat.two_pow_pos 16)), Nat.shiftLeft_eq,
      Nat.div_add_mod']
  rw [hv]
  exact .pure v

/-! ## Faithful manifests -/

/-- A kind of manifest: what is done with the parts of a line and with an entry, and beside
it what the format says of them. -/
structure Kind (ε : Type) where
  addFile : List String → Except LoadError (Option ε)
  writeFile : ε → List UInt8
  /-- The parts pass the checks of `addFile`. -/
  Accepted : List String → Prop
  wellFormed : List String → Option ε
  /-- The parts are accepted if they are well formed, and only then. -/
  Agrees : List String → Prop
  readFile : Read (Option ε)
  filename : ε → String
  /-- The number of units that are written. -/
  units : ε → Nat

def NoNuls (parts : List String) : Prop := ∀ part ∈ parts, NoNul part

/-- The fields of a kind belong together. -/
structure Kind.Lawful {ε : Type} (K : Kind ε) : Prop where
  blank : ¬ K.Accepted [""]
  ignored : ∀ parts, K.addFile parts = .ok none ↔ ¬ K.Accepted parts
  agrees : ∀ parts, K.addFile parts = .ok (K.wellFormed parts) ↔ K.Agrees parts
  added : ∀ parts parts' file, NoNuls parts' → K.wellFormed parts' = some file →
    (K.addFile parts = .ok (some file) ↔ K.Accepted parts ∧ K.wellFormed parts = some file)
  named : ∀ parts file, NoNuls parts → K.wellFormed parts = some file → K.filename file ≠ "" →
    Reads K.readFile (K.writeFile file) (some file)
  unnamed : ∀ file, K.filename file = "" → writeU16 0 <+: K.writeFile file
  mark : Reads K.readFile (writeU16 0) none
  length : ∀ file, (K.writeFile file).length = 2 * K.units file

section

variable {ε : Type} (K : Kind ε) (codecs : Codecs)

/-- The text of a line, up to a NUL. -/
def textOf (line : List UInt8) : Option String := codecs.ofBytes (line.takeWhile (· ≠ 0))

/-- The parts of a line before its comment. -/
def partsOf (text : String) : List String := split ',' (trim (beforeFirst '#' text))

/-- There is a NUL before the comment. -/
def Binary (line : List UInt8) : Prop := 0 ∈ line.takeWhile (· ≠ 35)

instance (line : List UInt8) : Decidable (Binary line) := inferInstanceAs (Decidable (_ ∈ _))

/-- The entry of a line, if it is well formed. -/
def entryOf (line : List UInt8) : Option ε :=
  if Binary line then none else (textOf codecs line).bind fun text => K.wellFormed (partsOf text)

/-- The bytes between two positions of a stream. -/
def written (before after : BufferStream) : List UInt8 :=
  (after.data.drop before.position).take (after.position - before.position)

/-- After each line, the entries of the lines so far have been loaded; and the entries of the file
are read back from what is written, of which the size is returned. -/
structure Faithful
    (loadManifest : Option (List UInt8) → Except LoadError (NetResultCode × List ε))
    (encodeToStream : List ε → BufferStream → BufferStream × UInt32)
    (entryOf : List UInt8 → Option ε) (readFile : Read (Option ε)) (file : List UInt8) : Prop where
  kept : ∀ n, loadManifest (some ((lines file).take n).flatten) =
    .ok (.success, ((lines file).take n).filterMap entryOf)
  encoded : ∀ files, loadManifest (some file) = .ok (.success, files) →
    ∀ stream stream' count, stream.position ≤ stream.data.length →
      encodeToStream files stream = (stream', count) →
      decode readFile (written stream stream') = .ok (files, []) ∧
        (written stream stream').length = 2 * count.toNat

/-- A piece of a file that is no entry. -/
def Ignored (piece : List UInt8) : Prop :=
  ∃ text, textOf codecs piece = some text ∧ ¬ K.Accepted (partsOf text)

/-- What has to be so of a line that fits into the buffer. -/
def ShortHolds (line : List UInt8) : Prop :=
  ∃ text, textOf codecs line = some text ∧
    if Binary line then ¬ K.Accepted (partsOf text) else K.Agrees (partsOf text)

/-- What has to be so of a longer line: none of its pieces is an entry, but one with the same
entry if the line has one. -/
def LongHolds (line : List UInt8) : Prop :=
  match entryOf K codecs line with
  | none => ∀ piece ∈ pieces line, Ignored K codecs piece
  | some file => ∃ before piece after, pieces line = before ++ piece :: after ∧
      (∀ other ∈ before ++ after, Ignored K codecs other) ∧
      ∃ text, textOf codecs piece = some text ∧ K.Accepted (partsOf text) ∧
        K.wellFormed (partsOf text) = some file

def LineHolds (line : List UInt8) : Prop :=
  if line.length ≤ 4095 then ShortHolds K codecs line else LongHolds K codecs line

structure Holds (file : List UInt8) : Prop where
  lines : ∀ line ∈ lines file, LineHolds K codecs line
  named : ∀ line ∈ Lines.lines file, ∀ entry, entryOf K codecs line = some entry →
    K.filename entry ≠ ""
  small : (((Lines.lines file).filterMap (entryOf K codecs)).map K.units).sum + 1 < 2 ^ 31

end

/-! ## Loading, piece by piece -/

section

variable {ε : Type} {K : Kind ε} {codecs : Codecs}

variable (K codecs) in
/-- What is loaded of some pieces. -/
def loadPieces : List (List UInt8) → Except LoadError (List ε)
  | [] => .ok []
  | piece :: rest =>
    match loadLine codecs K.addFile piece with
    | .error e => .error e
    | .ok file =>
      match loadPieces rest with
      | .error e => .error e
      | .ok files => .ok (file.toList ++ files)

theorem loadPieces_cons {piece : List UInt8} {rest : List (List UInt8)} {files : List ε} :
    loadPieces K codecs (piece :: rest) = .ok files ↔
      ∃ file files', loadLine codecs K.addFile piece = .ok file ∧
        loadPieces K codecs rest = .ok files' ∧ files = file.toList ++ files' := by
  rw [loadPieces]
  cases loadLine codecs K.addFile piece with
  | error e => simp
  | ok file =>
    cases loadPieces K codecs rest with
    | error e => simp
    | ok files' => simp [eq_comm]

theorem loadLines_ok {files files' : List ε} {bytes : List UInt8} :
    loadLines codecs K.addFile files bytes = .ok files' ↔
      ∃ more, loadPieces K codecs (pieces bytes) = .ok more ∧ files' = files ++ more := by
  induction files, bytes using loadLines.induct codecs K.addFile with
  | case1 files =>
    rw [loadLines, if_pos rfl, Lines.pieces_nil, loadPieces]
    simp [eq_comm]
  | case2 files bytes hne e hline =>
    rw [loadLines, if_neg hne, pieces, if_neg hne, hline, loadPieces, hline]
    simp
  | case3 files bytes hne file hline ih =>
    rw [loadLines, if_neg hne, pieces, if_neg hne, hline]
    simp only [loadPieces_cons, hline, ih]
    simp [List.append_assoc]

theorem loadPieces_append {ps qs : List (List UInt8)} {files : List ε} :
    loadPieces K codecs (ps ++ qs) = .ok files ↔
      ∃ a b, loadPieces K codecs ps = .ok a ∧ loadPieces K codecs qs = .ok b ∧ files = a ++ b := by
  induction ps generalizing files with
  | nil => simp [loadPieces]
  | cons p ps ih =>
    rw [List.cons_append, loadPieces_cons]
    constructor
    · rintro ⟨file, files', hp, hrest, rfl⟩
      obtain ⟨a, b, ha, hb, rfl⟩ := ih.1 hrest
      exact ⟨file.toList ++ a, b, loadPieces_cons.2 ⟨file, a, hp, ha, rfl⟩, hb,
        (List.append_assoc _ a b).symm⟩
    · rintro ⟨a, b, ha, hb, rfl⟩
      obtain ⟨file, files', hp, hps, rfl⟩ := loadPieces_cons.1 ha
      exact ⟨file, files' ++ b, hp, ih.2 ⟨files', b, hps, hb, rfl⟩, List.append_assoc _ files' b⟩

/-- **Each line adds its entry**, if that is so after any number of lines. -/
theorem loadPieces_lines {ls : List (List UInt8)} (entry : List UInt8 → Option ε) :
    (∀ n, loadPieces K codecs ((ls.take n).flatMap pieces) = .ok ((ls.take n).filterMap entry)) ↔
      ∀ line ∈ ls, loadPieces K codecs (pieces line) = .ok (entry line).toList := by
  constructor
  · intro h line hline
    obtain ⟨before, after, rfl⟩ := List.append_of_mem hline
    have hbefore := h before.length
    have hmore := h (before.length + 1)
    rw [List.take_left] at hbefore
    rw [List.take_length_add_append, List.take_succ_cons, List.take_zero, List.flatMap_append,
      List.flatMap_singleton, List.filterMap_append, loadPieces_append] at hmore
    obtain ⟨a, b, ha, hb, heq⟩ := hmore
    obtain rfl := Except.ok.inj (hbefore.symm.trans ha)
    rw [List.append_cancel_left_eq] at heq
    rw [hb, ← heq]
    cases hentry : entry line with
    | none => rw [List.filterMap_cons_none hentry]; rfl
    | some file => rw [List.filterMap_cons_some hentry]; rfl
  · intro h n
    have hall : ∀ ms : List (List UInt8), (∀ line ∈ ms, line ∈ ls) →
        loadPieces K codecs (ms.flatMap pieces) = .ok (ms.filterMap entry) := by
      intro ms
      induction ms with
      | nil => exact fun _ => rfl
      | cons line ms ih =>
        intro hin
        rw [List.forall_mem_cons] at hin
        rw [List.flatMap_cons, loadPieces_append]
        refine ⟨_, _, h line hin.1, ih hin.2, ?_⟩
        cases hentry : entry line with
        | none => rw [List.filterMap_cons_none hentry]; rfl
        | some file => rw [List.filterMap_cons_some hentry]; rfl
    exact hall _ fun line hline => List.mem_of_mem_take hline

theorem loadPieces_none {ps : List (List UInt8)} : loadPieces K codecs ps = .ok [] ↔
    ∀ p ∈ ps, loadLine codecs K.addFile p = .ok none := by
  induction ps with
  | nil => simp [loadPieces]
  | cons p ps ih =>
    rw [loadPieces_cons, List.forall_mem_cons, ← ih]
    constructor
    · rintro ⟨file, files, hp, hps, heq⟩
      obtain ⟨hfile, rfl⟩ := List.append_eq_nil_iff.1 heq.symm
      cases file with
      | none => exact ⟨hp, hps⟩
      | some file => cases hfile
    · exact fun ⟨hp, hps⟩ => ⟨none, [], hp, hps, rfl⟩

theorem loadPieces_one {ps : List (List UInt8)} {file : ε} : loadPieces K codecs ps = .ok [file] ↔
    ∃ before p after, ps = before ++ p :: after ∧
      (∀ q ∈ before ++ after, loadLine codecs K.addFile q = .ok none) ∧
      loadLine codecs K.addFile p = .ok (some file) := by
  constructor
  · intro h
    induction ps with
    | nil => cases h
    | cons p ps ih =>
      obtain ⟨file', files, hp, hps, heq⟩ := loadPieces_cons.1 h
      cases file' with
      | none =>
        obtain rfl : [file] = files := heq
        obtain ⟨before, q, after, rfl, hothers, hq⟩ := ih hps
        exact ⟨p :: before, q, after, rfl, List.forall_mem_cons.2 ⟨hp, hothers⟩, hq⟩
      | some file' =>
        obtain ⟨rfl, rfl⟩ := List.cons.inj heq
        exact ⟨[], p, ps, rfl, loadPieces_none.1 hps, hp⟩
  · rintro ⟨before, p, after, rfl, hothers, hp⟩
    rw [List.forall_mem_append] at hothers
    refine loadPieces_append.2 ⟨[], [file], loadPieces_none.2 hothers.1, ?_, rfl⟩
    exact loadPieces_cons.2 ⟨some file, [], hp, loadPieces_none.2 hothers.2, rfl⟩

/-! ## Lines and their parts -/

theorem split_subset {sep : Char} {s part : String} (h : part ∈ split sep s) :
    part.toList ⊆ s.toList := by
  have hparts : ∀ (cs p : List Char), p ∈ cs.splitOn sep → p ⊆ cs := by
    intro cs
    induction cs with
    | nil =>
      intro p hp
      rw [List.splitOn_nil, List.mem_singleton] at hp
      rw [hp]
      exact List.Subset.refl []
    | cons c cs ih =>
      intro p hp
      rw [List.splitOn_cons_eq_if_modifyHead] at hp
      split at hp
      · obtain rfl | hp := List.mem_cons.1 hp
        · exact List.nil_subset _
        · exact List.subset_cons_of_subset c (ih p hp)
      · cases hsplit : cs.splitOn sep with
        | nil => exact absurd hsplit (List.splitOn_ne_nil sep cs)
        | cons q qs =>
          rw [hsplit] at hp ih
          obtain rfl | hp := List.mem_cons.1 hp
          · exact List.cons_subset_cons c (ih q List.mem_cons_self)
          · exact List.subset_cons_of_subset c (ih p (List.mem_cons_of_mem q hp))
  obtain ⟨cs, hcs, rfl⟩ := List.mem_map.1 h
  rw [String.toList_ofList]
  exact hparts _ cs hcs

/-- No part of a line has a NUL. -/
theorem noNuls_partsOf (hplain : codecs.Plain) {line : List UInt8} {text : String}
    (h : textOf codecs line = some text) : NoNuls (partsOf text) := by
  have hzero : (0 : UInt8) ∉ line.takeWhile (· ≠ 0) := fun hmem => by
    simpa using List.mem_takeWhile_imp hmem
  have htext : NoNul text := hplain _ _ hzero h
  intro part hpart
  exact (htext.of_subset (Settings.beforeFirst_subset '#' text)).of_subset
    (Settings.trim_subset _) |>.of_subset (split_subset hpart)

theorem loadLine_eq (hK : K.Lawful) (line : List UInt8) : loadLine codecs K.addFile line =
    match textOf codecs line with
    | none => .error .unicode
    | some text => K.addFile (partsOf text) := by
  rw [loadLine, textOf]
  cases codecs.ofBytes (line.takeWhile (· ≠ 0)) with
  | none => rfl
  | some text =>
    by_cases hempty : trim (beforeFirst '#' text) = ""
    · have hparts : partsOf text = [""] := by
        rw [partsOf, hempty]
        rfl
      have hblank := (hK.ignored [""]).2 hK.blank
      simp only [hempty, if_true, hparts, hblank]
    · simp only [hempty, if_false, partsOf]

theorem loadLine_none (hK : K.Lawful) (line : List UInt8) :
    loadLine codecs K.addFile line = .ok none ↔ Ignored K codecs line := by
  rw [loadLine_eq hK, Ignored]
  cases textOf codecs line with
  | none => simp
  | some text => simp [hK.ignored]

theorem entryOf_some (hplain : codecs.Plain) {line : List UInt8} {file : ε}
    (h : entryOf K codecs line = some file) :
    ∃ parts, NoNuls parts ∧ K.wellFormed parts = some file := by
  rw [entryOf] at h
  split at h
  · cases h
  · obtain ⟨text, htext, hfile⟩ := Option.bind_eq_some_iff.1 h
    exact ⟨partsOf text, noNuls_partsOf hplain htext, hfile⟩

theorem short_iff (hK : K.Lawful) (line : List UInt8) :
    loadLine codecs K.addFile line = .ok (entryOf K codecs line) ↔ ShortHolds K codecs line := by
  rw [loadLine_eq hK, ShortHolds, entryOf]
  cases textOf codecs line with
  | none => simp
  | some text =>
    by_cases hbinary : Binary line
    · simp [hbinary, hK.ignored]
    · simp [hbinary, hK.agrees]

theorem long_iff (hK : K.Lawful) (hplain : codecs.Plain) (line : List UInt8) :
    loadPieces K codecs (pieces line) = .ok (entryOf K codecs line).toList ↔
      LongHolds K codecs line := by
  rw [LongHolds]
  cases hentry : entryOf K codecs line with
  | none =>
    rw [Option.toList_none, loadPieces_none]
    simp only [loadLine_none hK]
  | some file =>
    obtain ⟨parts, hnul, hparts⟩ := entryOf_some hplain hentry
    have hsome : ∀ p, loadLine codecs K.addFile p = .ok (some file) ↔
        ∃ text, textOf codecs p = some text ∧ K.Accepted (partsOf text) ∧
          K.wellFormed (partsOf text) = some file := by
      intro p
      rw [loadLine_eq hK]
      cases textOf codecs p with
      | none => simp
      | some text => simp [hK.added _ parts file hnul hparts]
    rw [Option.toList_some, loadPieces_one]
    simp only [loadLine_none hK, hsome]

theorem line_iff (hK : K.Lawful) (hplain : codecs.Plain) {file line : List UInt8}
    (hline : line ∈ lines file) :
    loadPieces K codecs (pieces line) = .ok (entryOf K codecs line).toList ↔
      LineHolds K codecs line := by
  rw [LineHolds]
  split
  · rename_i hshort
    rw [Lines.pieces_short (Lines.lines_spec file).1 hline hshort, ← short_iff hK,
      loadPieces_cons]
    constructor
    · rintro ⟨entry, files, hload, hnil, heq⟩
      obtain rfl := Except.ok.inj hnil
      rw [List.append_nil] at heq
      rw [hload]
      have hentry := congrArg List.head? heq
      rw [Option.head?_toList, Option.head?_toList] at hentry
      exact congrArg _ hentry.symm
    · exact fun h => ⟨_, [], h, rfl, (List.append_nil _).symm⟩
  · exact long_iff hK hplain line

theorem loadManifest_some {bytes : List UInt8} {files : List ε} :
    loadManifest codecs K.addFile (some bytes) = .ok (.success, files) ↔
      loadPieces K codecs (pieces bytes) = .ok files := by
  have hlines : loadLines codecs K.addFile [] bytes = .ok files ↔
      loadPieces K codecs (pieces bytes) = .ok files := by
    rw [loadLines_ok]
    exact ⟨fun ⟨more, h, heq⟩ => heq ▸ h, fun h => ⟨files, h, rfl⟩⟩
  rw [← hlines, loadManifest]
  cases loadLines codecs K.addFile [] bytes with
  | error e => simp
  | ok files' => simp

/-- A line that cannot be read is the end. -/
theorem loadManifest_error {bytes : List UInt8} {e : LoadError} (hne : bytes ≠ [])
    (h : loadLine codecs K.addFile (fgets 4095 bytes).1 = .error e) :
    loadManifest codecs K.addFile (some bytes) = .error e := by
  rw [loadManifest, loadLines, if_neg hne, h]

/-- **When the entries of the lines are loaded.** -/
theorem kept_iff (hK : K.Lawful) (hplain : codecs.Plain) (file : List UInt8) :
    (∀ n, loadManifest codecs K.addFile (some ((lines file).take n).flatten) =
      .ok (.success, ((lines file).take n).filterMap (entryOf K codecs))) ↔
    ∀ line ∈ lines file, LineHolds K codecs line := by
  have hpieces : ∀ n, pieces ((lines file).take n).flatten =
      ((lines file).take n).flatMap pieces :=
    fun n => Lines.pieces_flatten ((Lines.lines_spec file).1.take n)
  simp only [loadManifest_some, hpieces]
  rw [loadPieces_lines]
  constructor
  · exact fun h line hline => (line_iff hK hplain hline).1 (h line hline)
  · exact fun h line hline => (line_iff hK hplain hline).2 (h line hline)

/-! ## What is written -/

theorem written_writeBytes {stream : BufferStream} (h : stream.position ≤ stream.data.length)
    (bytes : List UInt8) : written stream (stream.writeBytes bytes) = bytes := by
  have htake : (stream.data.take stream.position).length = stream.position := by
    rw [List.length_take, Nat.min_eq_left h]
  show ((_ ++ bytes ++ _).drop stream.position).take (stream.position + bytes.length - _) = bytes
  rw [List.append_assoc, List.drop_left' htake, Nat.add_sub_cancel_left, List.take_left]

theorem written_encode {stream : BufferStream} (h : stream.position ≤ stream.data.length)
    (files : List ε) : written stream (encodeToStream K.writeFile files stream).1 =
      files.flatMap K.writeFile ++ writeU16 0 :=
  written_writeBytes h _

theorem length_encode (hK : K.Lawful) (files : List ε) :
    (files.flatMap K.writeFile ++ writeU16 0).length = 2 * ((files.map K.units).sum + 1) := by
  have hmark : (writeU16 0).length = 2 := rfl
  have hfiles : (files.flatMap K.writeFile).length = 2 * (files.map K.units).sum := by
    induction files with
    | nil => rfl
    | cons file files ih =>
      rw [List.flatMap_cons, List.length_append, hK.length, ih, List.map_cons, List.sum_cons,
        Nat.mul_add]
  rw [List.length_append, hfiles, hmark, Nat.mul_add]

/-- What is returned, of a length that may not fit. -/
theorem toNat_count (position length : Nat) :
    ((UInt32.ofNat (position + length) - UInt32.ofNat position) / 2).toNat =
      length % 2 ^ 32 / 2 := by
  have hsub : UInt32.ofNat (position + length) - UInt32.ofNat position = UInt32.ofNat length := by
    rw [UInt32.ofNat_add, add_sub_cancel_left]
  rw [hsub, UInt32.toNat_div, UInt32.toNat_ofNat']
  rfl

/-- **When the number of units is returned.** -/
theorem count_iff (hK : K.Lawful) (files : List ε) (stream : BufferStream) :
    (files.flatMap K.writeFile ++ writeU16 0).length =
        2 * (encodeToStream K.writeFile files stream).2.toNat ↔
      (files.map K.units).sum + 1 < 2 ^ 31 := by
  have hcount : (encodeToStream K.writeFile files stream).2.toNat =
      (files.flatMap K.writeFile ++ writeU16 0).length % 2 ^ 32 / 2 := toNat_count _ _
  rw [hcount, length_encode hK]
  omega

/-- **When the entries are read back.** -/
theorem decode_iff (hK : K.Lawful) {files : List ε}
    (hfiles : ∀ file ∈ files, ∃ parts, NoNuls parts ∧ K.wellFormed parts = some file) :
    decode K.readFile (files.flatMap K.writeFile ++ writeU16 0) = .ok (files, []) ↔
      ∀ file ∈ files, K.filename file ≠ "" := by
  have hread : ∀ file ∈ files, K.filename file ≠ "" →
      Reads K.readFile (K.writeFile file) (some file) := by
    intro file hfile hnamed
    obtain ⟨parts, hnul, hparts⟩ := hfiles file hfile
    exact hK.named parts file hnul hparts hnamed
  have hmark : ∀ file ∈ files, ¬ K.filename file ≠ "" → writeU16 0 <+: K.writeFile file :=
    fun file _ hempty => hK.unnamed file (not_not.1 hempty)
  refine Lib.Reader.listed_iff (fun file hfile hnil => ?_) hread hmark hK.mark
  -- nothing is read as an entry of no bytes, as the mark could follow it
  by_cases hnamed : K.filename file ≠ ""
  · have hnone := hK.mark []
    have hsome := hread file hfile hnamed (writeU16 0)
    rw [hnil] at hsome
    rw [List.append_nil] at hnone
    have hsame := (Prod.mk.inj (Except.ok.inj (hnone.symm.trans hsome))).1
    cases hsame
  · obtain ⟨rest, hrest⟩ := hmark file hfile hnamed
    rw [hnil] at hrest
    exact absurd (List.append_eq_nil_iff.1 hrest).1 (by decide)

/-- **When a manifest is loaded and encoded faithfully.** -/
theorem faithful_iff (hK : K.Lawful) (hplain : codecs.Plain) (file : List UInt8) :
    Faithful (loadManifest codecs K.addFile) (encodeToStream K.writeFile) (entryOf K codecs)
      K.readFile file ↔ Holds K codecs file := by
  have hentries : ∀ entry ∈ (lines file).filterMap (entryOf K codecs),
      ∃ parts, NoNuls parts ∧ K.wellFormed parts = some entry := by
    intro entry hentry
    obtain ⟨line, -, hline⟩ := List.mem_filterMap.1 hentry
    exact entryOf_some hplain hline
  have hnamed : (∀ entry ∈ (lines file).filterMap (entryOf K codecs), K.filename entry ≠ "") ↔
      ∀ line ∈ lines file, ∀ entry, entryOf K codecs line = some entry →
        K.filename entry ≠ "" := by
    constructor
    · exact fun h line hline entry hentry => h entry (List.mem_filterMap.2 ⟨line, hline, hentry⟩)
    · intro h entry hentry
      obtain ⟨line, hline, heq⟩ := List.mem_filterMap.1 hentry
      exact h line hline entry heq
  -- all of the lines are the file
  have hwhole : (∀ n, loadManifest codecs K.addFile (some ((lines file).take n).flatten) =
      .ok (.success, ((lines file).take n).filterMap (entryOf K codecs))) →
      loadManifest codecs K.addFile (some file) =
        .ok (.success, (lines file).filterMap (entryOf K codecs)) := by
    intro h
    have hall := h (lines file).length
    rwa [List.take_length, (Lines.lines_spec file).2] at hall
  constructor
  · rintro ⟨hkept, hencoded⟩
    obtain ⟨hdecode, hcount⟩ :=
      hencoded _ (hwhole hkept) {} (encodeToStream K.writeFile _ {}).1 _ (Nat.le_refl 0) rfl
    rw [written_encode (Nat.le_refl 0)] at hdecode hcount
    exact ⟨(kept_iff hK hplain file).1 hkept, hnamed.1 ((decode_iff hK hentries).1 hdecode),
      (count_iff hK _ {}).1 hcount⟩
  · rintro ⟨hlines, hnames, hsmall⟩
    have hkept := (kept_iff hK hplain file).2 hlines
    refine ⟨hkept, fun files hload stream stream' count hposition hencode => ?_⟩
    obtain rfl := (Prod.mk.inj (Except.ok.inj ((hwhole hkept).symm.trans hload))).2
    obtain rfl : _ = stream' := congrArg Prod.fst hencode
    obtain rfl : _ = count := congrArg Prod.snd hencode
    rw [written_encode hposition]
    exact ⟨(decode_iff hK hentries).2 (hnamed.2 hnames), (count_iff hK _ stream).2 hsmall⟩

end

end Dirtsand.Manifest
