import Dirtsand.Lib.SortedMap
import Dirtsand.SDL.Element
import Dirtsand.Streams.Zlib

/-!
# Lists of creatables

`MOUL::CreatableList` (CreatableList.cpp), a map of creatables that is read and
written as one blob, which may be compressed.  What the memory holds is a
parameter: of the arrays, of the variable in which zlib is to find how much
room it has, and whatever the creatables themselves find in it.

* `reads_items` — the items are read as they were written, if there are fewer than
  2^16 of them.
* `determined_iff` — where reading a list ends in one way: a compressed one only
  where it is refused in any case.
* `not_compresses`, `roundTrips` — a list that is compressed does not come back;
  others do.
-/

namespace Dirtsand

open Streams (readU8 readU16 readU32 writeU8 writeU16 writeU32 readArray reads_array reads_u8
  reads_u16 reads_u32)
open SDL (Creatables)
open Lib (filled Outcome Determined SortedMap)
open Lib.Reader (Reads Yields)
open Streams (ended outcome)

structure CreatableList (κ : Type) where
  flags : UInt8
  items : SortedMap UInt16.toNat κ

namespace CreatableList

/-- `e_WantCompression`. -/
def wantCompression : UInt8 := 1

/-- `e_Compressed`. -/
def compressed : UInt8 := 2

/-- `COMPRESSION_THRESHOLD`. -/
def compressionThreshold : UInt32 := 255

/-- What is in the memory before: of the two arrays, and of the variable `zLen`. -/
structure Memory where
  buf : Nat → UInt8
  zBuf : Nat → UInt8
  zLen : UInt64

instance : Inhabited Memory := ⟨fun _ => 0, fun _ => 0, 0⟩

section

variable {κ : Type} (C : Creatables κ) (Z : Zlib)

/-- `Factory::Create`, which has no creatable for the type of null, and the `read` of what it
creates. -/
def readCreatable (type : UInt16) : Read κ :=
  if type = 0x8000 then Lib.Reader.fail .malformedData
  else do
    let cre ← Lib.Reader.ofExcept (C.create type)
    cre

/-- The loop over the items, with how many are still to be read. -/
def readItems : Nat → SortedMap UInt16.toNat κ → Read (SortedMap UInt16.toNat κ)
  | 0, items => pure items
  | n + 1, items => do
    let id ← readU16
    let type ← readU16
    let cre ← readCreatable C type
    readItems n (items.set id cre)

/-- What is read from the stream `ram`. -/
def readRam : Read (SortedMap UInt16.toNat κ) := do
  let numItems ← readU16
  readItems C numItems.toNat .empty

/-- The list that is in a buffer. -/
def listIn (buf : List UInt8) : Except StreamError (SortedMap UInt16.toNat κ) :=
  (readRam C buf).map Prod.fst

def parse (flags : UInt8) (buf : List UInt8) : Read (Option (CreatableList κ)) := do
  let items ← Lib.Reader.ofExcept (listIn C buf)
  pure (some ⟨flags, items⟩)

/-- The flags and `bufSz`. -/
def readHeader : Read (UInt8 × UInt32) := do
  let flags ← readU8
  let bufSz ← readU32
  pure (flags, bufSz)

/-- What follows them.  Nothing is read where bytes are put outside of `buf`. -/
def readBody (memory : Memory) (flags : UInt8) (bufSz : UInt32) :
    Read (Option (CreatableList κ)) :=
  if flags &&& compressed ≠ 0 then do
    let zBufSz ← readU32
    let zBuf ← readArray memory.zBuf zBufSz.toNat
    if bufSz.toNat < Z.uncompressWrites memory.zLen.toNat zBuf then pure none
    else match Z.uncompress memory.zLen.toNat zBuf with
      | none => Lib.Reader.fail .malformedData
      | some buf =>
        if buf.length ≠ bufSz.toNat then Lib.Reader.fail .malformedData
        else parse C (flags &&& ~~~compressed) buf
  else do
    let buf ← readArray memory.buf bufSz.toNat
    parse C flags buf

def read (memory : Memory) : Read (Option (CreatableList κ)) := do
  let (flags, bufSz) ← readHeader
  readBody C Z memory flags bufSz

/-- What is written to the stream `ram` at first. -/
def writeRam (items : SortedMap UInt16.toNat κ) : List UInt8 :=
  writeU16 (UInt16.ofNat items.entries.length) ++ items.entries.flatMap fun p =>
    writeU16 p.1 ++ (writeU16 (C.type p.2) ++ C.write p.2)

/-- With what the variable `zBufSz` holds before.  Nothing is written where bytes are put outside of
`zBuf`. -/
def write (zBufSz : UInt64) (l : CreatableList κ) : Option (List UInt8) :=
  let ram := writeRam C l.items
  let bufSz := UInt32.ofNat ram.length
  let buf := ram.take bufSz.toNat
  let flags := l.flags &&& ~~~compressed
  let plain := (writeU8 flags ++ writeU32 bufSz) ++ buf
  if flags &&& wantCompression ≠ 0 ∧ compressionThreshold < bufSz then
    if bufSz.toNat < Z.compressWrites zBufSz.toNat buf then none
    else match Z.compress zBufSz.toNat buf with
      | none => some plain
      | some zBuf => some ((writeU8 (flags ||| compressed) ++ writeU32 bufSz) ++
          (writeU32 (UInt32.ofNat zBuf.length) ++ zBuf))
  else some plain

/-- A list that `write` compresses. -/
def Compresses (l : CreatableList κ) : Prop :=
  l.flags &&& ~~~compressed &&& wantCompression ≠ 0 ∧
    compressionThreshold < UInt32.ofNat (writeRam C l.items).length

end

/-! ## Creatables in a memory -/

section

variable {M κ : Type} (C : M → Creatables κ) (Z : Zlib)

/-- A creatable that is read as it was written, whatever the memory of both sides holds. -/
def Kept (c : κ) : Prop :=
  ∀ m m', (C m).type c ≠ 0x8000 ∧ ∃ obj, (C m').create ((C m).type c) = .ok obj ∧
    Reads obj ((C m).write c) c

/-- A compressed list that is refused, however much room zlib takes itself to have. -/
structure Refused (bufSz : UInt32) (zBuf : List UInt8) : Prop where
  room : (Z.inflate zBuf).1.length ≤ bufSz.toNat
  list : (Z.inflate zBuf).2 = true → (Z.inflate zBuf).1.length = bufSz.toNat →
    ∀ m, ended (listIn (C m) (Z.inflate zBuf).1) = .threw

/-- Bytes of which none that is missing matters and whose items do not depend on the memory, and
that are not a compressed list. -/
def Settled (bytes : List UInt8) : Prop :=
  match readHeader bytes with
  | .error _ => True
  | .ok ((flags, bufSz), rest) =>
    if flags &&& compressed ≠ 0 then
      match readU32 rest with
      | .error _ => True
      | .ok (zBufSz, rest) =>
        ∀ zBuf, Refused C Z bufSz (filled zBuf zBufSz.toNat (rest.take zBufSz.toNat))
    else Determined fun p : M × (Nat → UInt8) =>
      ended (listIn (C p.1) (filled p.2 bufSz.toNat (rest.take bufSz.toNat)))

/-- Whatever the memory holds, the list that was written is read again. -/
def RoundTrips (l : CreatableList κ) : Prop :=
  ∀ m zBufSz, ∃ out, write (C m) Z zBufSz l = some out ∧
    ∀ m' memory, Reads (read (C m') Z memory) out (some ⟨l.flags &&& ~~~compressed, l.items⟩)

end

variable {κ : Type} {C : Creatables κ} {Z : Zlib}

/-! ## The items -/

theorem reads_creatable {c : κ} (h : C.RoundTrips c) :
    Reads (readCreatable C (C.type c)) (C.write c) c := by
  obtain ⟨htype, cre, hcreate, hreads⟩ := h
  rw [readCreatable, if_neg htype]
  exact (Reads.ofExcept hcreate).after hreads

/-- **The items are read as they were written**, behind those that were read before. -/
theorem reads_items {todo : List (UInt16 × κ)} (h : ∀ p ∈ todo, C.RoundTrips p.2)
    {items all : SortedMap UInt16.toNat κ} (hall : all.entries = items.entries ++ todo) :
    Reads (readItems C todo.length items)
      (todo.flatMap fun p => writeU16 p.1 ++ (writeU16 (C.type p.2) ++ C.write p.2)) all := by
  induction todo generalizing items with
  | nil =>
    rw [List.append_nil] at hall
    rw [SortedMap.ext hall]
    exact .pure items
  | cons p todo ih =>
    obtain ⟨id, cre⟩ := p
    have hlast : ∀ q ∈ items.entries, q.1.toNat < id.toNat := by
      have hsorted := all.sorted
      rw [hall] at hsorted
      exact fun q hq => (List.pairwise_append.1 hsorted).2.2 q hq _ List.mem_cons_self
    have hset := SortedMap.set_last hlast cre
    have hrest : all.entries = (items.set id cre).entries ++ todo := by
      rw [hall, hset, List.append_assoc]
      rfl
    have hnext := ih (fun p hp => h p (List.mem_cons_of_mem _ hp)) hrest
    rw [List.flatMap_cons, List.length_cons, readItems, List.append_assoc, List.append_assoc]
    exact (reads_u16 id).bind ((reads_u16 _).bind
      ((reads_creatable (h _ List.mem_cons_self)).bind hnext))

theorem readItems_congr {C' : Creatables κ} (h : C.create = C'.create) (n : Nat)
    (items : SortedMap UInt16.toNat κ) : readItems C n items = readItems C' n items := by
  induction n generalizing items with
  | zero => rfl
  | succ n ih =>
    have hrec : readItems C n = readItems C' n := funext ih
    have hcre : readCreatable C = readCreatable C' := by
      funext type
      rw [readCreatable, readCreatable, h]
    rw [readItems, readItems, hrec, hcre]

/-- A list is read by what `Create` makes. -/
theorem listIn_congr {C' : Creatables κ} (h : C.create = C'.create) : listIn C = listIn C' := by
  funext buf
  have hitems : readItems C = readItems C' :=
    funext fun n => funext fun items => readItems_congr h n items
  rw [listIn, listIn, readRam, readRam, hitems]

theorem yields_items (n : Nat) (items : SortedMap UInt16.toNat κ) :
    Yields (readItems C n items) fun all => all.entries.length ≤ items.entries.length + n := by
  induction n generalizing items with
  | zero => exact .pure le_rfl
  | succ n ih =>
    refine (Yields.any _).bind fun id _ => (Yields.any _).bind fun type _ =>
      (Yields.any _).bind fun cre _ => (ih _).mono fun all hall => ?_
    have hset := items.length_set_le id cre
    omega

/-- A list that is read has as many items as 16 bits can count. -/
theorem length_listIn {buf : List UInt8} {items : SortedMap UInt16.toNat κ}
    (h : listIn C buf = .ok items) : items.entries.length < 2 ^ 16 := by
  have hyields : Yields (readRam C) fun items => items.entries.length < 2 ^ 16 := by
    refine (Yields.any _).bind fun numItems _ => (yields_items _ _).mono fun items hitems => ?_
    have hlt := numItems.toNat_lt
    rw [SortedMap.empty, List.length_nil] at hitems
    omega
  cases hram : readRam C buf with
  | error e =>
    rw [listIn, hram] at h
    cases h
  | ok r =>
    rw [listIn, hram] at h
    obtain rfl : r.1 = items := Except.ok.inj h
    exact hyields buf r.1 r.2 hram

theorem listIn_writeRam {items : SortedMap UInt16.toNat κ}
    (h : ∀ p ∈ items.entries, C.RoundTrips p.2) (hcount : items.entries.length < 2 ^ 16) :
    listIn C (writeRam C items) = .ok items := by
  have hnum : (UInt16.ofNat items.entries.length).toNat = items.entries.length :=
    UInt16.toNat_ofNat_of_lt' hcount
  have hreads : Reads (readRam C) (writeRam C items) items := by
    refine (reads_u16 _).bind ?_
    rw [hnum]
    exact reads_items h (List.nil_append _).symm
  have hram := hreads []
  rw [List.append_nil] at hram
  rw [listIn, hram]
  rfl

/-! ## How reading a list ends -/

/-- With these flags, and what is left. -/
abbrev behind (flags : UInt8) (rest : List UInt8) (items : SortedMap UInt16.toNat κ) :
    CreatableList κ × List UInt8 := (⟨flags, items⟩, rest)

theorem behind_injective (flags : UInt8) (rest : List UInt8) :
    Function.Injective (behind (κ := κ) flags rest) := fun _ _ h =>
  congrArg (fun p => p.1.items) h

theorem outcome_parse (flags : UInt8) (buf rest : List UInt8) :
    outcome (parse C flags buf) rest = (ended (listIn C buf)).map (behind flags rest) := by
  rw [outcome, parse]
  cases listIn C buf with
  | ok items => rfl
  | error e => cases e <;> rfl

variable (C Z) in
/-- How reading a compressed list ends, with what `zLen` was. -/
def inflateEnd (flags : UInt8) (bufSz : UInt32) (rest : List UInt8) (zLen : Nat)
    (source : List UInt8) : Outcome (CreatableList κ × List UInt8) :=
  if bufSz.toNat < Z.uncompressWrites zLen source then .outside
  else match Z.uncompress zLen source with
    | none => .threw
    | some buf =>
      if buf.length ≠ bufSz.toNat then .threw
      else outcome (parse C (flags &&& ~~~compressed) buf) rest

theorem outcome_compressed {flags : UInt8} (hflags : flags &&& compressed ≠ 0) (bufSz : UInt32)
    {rest rest' : List UInt8} {zBufSz : UInt32} (hsize : readU32 rest = .ok (zBufSz, rest'))
    (memory : Memory) :
    outcome (readBody C Z memory flags bufSz) rest =
      inflateEnd C Z flags bufSz (rest'.drop zBufSz.toNat) memory.zLen.toNat
        (filled memory.zBuf zBufSz.toNat (rest'.take zBufSz.toNat)) := by
  have harray : readArray memory.zBuf zBufSz.toNat rest' =
    .ok (filled memory.zBuf zBufSz.toNat (rest'.take zBufSz.toNat),
      rest'.drop zBufSz.toNat) := rfl
  rw [outcome, readBody, if_pos hflags, Lib.Reader.bind_of_ok hsize,
    Lib.Reader.bind_of_ok harray, inflateEnd]
  generalize filled memory.zBuf zBufSz.toNat (rest'.take zBufSz.toNat) = source
  by_cases houtside : bufSz.toNat < Z.uncompressWrites memory.zLen.toNat source
  · rw [if_pos houtside, if_pos houtside]
    rfl
  · rw [if_neg houtside, if_neg houtside]
    cases Z.uncompress memory.zLen.toNat source with
    | none => rfl
    | some buf =>
      dsimp only
      by_cases hlen : buf.length ≠ bufSz.toNat
      · rw [if_pos hlen, if_pos hlen]
        rfl
      · rw [if_neg hlen, if_neg hlen]
        rfl

/-- With no room zlib has to fail, and with the most room it fills the array and more. -/
theorem threw_of_same {flags : UInt8} {bufSz : UInt32} {rest source : List UInt8}
    (hinside : inflateEnd C Z flags bufSz rest (2 ^ 64 - 1) source ≠ .outside)
    (hsame : inflateEnd C Z flags bufSz rest (2 ^ 64 - 1) source =
      inflateEnd C Z flags bufSz rest 0 source) :
    (Z.inflate source).1.length ≤ bufSz.toNat ∧
      ((Z.inflate source).2 = true → (Z.inflate source).1.length = bufSz.toNat →
        ended (listIn C (Z.inflate source).1) = .threw) := by
  have hsmall := bufSz.toNat_lt
  have hroom : (Z.inflate source).1.length ≤ bufSz.toNat := by
    by_contra hlong
    rw [inflateEnd, if_pos] at hinside
    · exact hinside rfl
    · rw [Zlib.uncompressWrites]
      omega
  refine ⟨hroom, fun hended hlen => ?_⟩
  have hmuch : Z.uncompress (2 ^ 64 - 1) source = some (Z.inflate source).1 :=
    Zlib.uncompress_eq_some.2 ⟨Prod.ext rfl hended, by omega⟩
  have hwrites : ∀ room, ¬ bufSz.toNat < Z.uncompressWrites room source := by
    intro room
    rw [Zlib.uncompressWrites]
    omega
  have hend : inflateEnd C Z flags bufSz rest (2 ^ 64 - 1) source =
      (ended (listIn C (Z.inflate source).1)).map (behind (flags &&& ~~~compressed) rest) := by
    rw [inflateEnd, if_neg (hwrites _), hmuch]
    dsimp only
    rw [if_neg (not_not.2 hlen), outcome_parse]
  by_cases hpos : 0 < (Z.inflate source).1.length
  · -- there is a first byte, for which there is no room
    have hnone : Z.uncompress 0 source = none := by
      rw [Zlib.uncompress, if_neg]
      rintro ⟨-, hle⟩
      exact absurd hpos (not_lt.2 hle)
    rw [hend, inflateEnd, if_neg (hwrites _), hnone] at hsame
    cases hlist : ended (listIn C (Z.inflate source).1) with
    | threw => rfl
    | outside => rw [hlist] at hsame; cases hsame
    | value items => rw [hlist] at hsame; cases hsame
  · rw [List.eq_nil_of_length_eq_zero (Nat.eq_zero_of_not_pos hpos)]
    rfl

theorem inflateEnd_refused {bufSz : UInt32} {source : List UInt8}
    (hroom : (Z.inflate source).1.length ≤ bufSz.toNat)
    (hlist : (Z.inflate source).2 = true → (Z.inflate source).1.length = bufSz.toNat →
      ended (listIn C (Z.inflate source).1) = .threw) (flags : UInt8) (rest : List UInt8)
    (zLen : Nat) : inflateEnd C Z flags bufSz rest zLen source = .threw := by
  have hwrites : ¬ bufSz.toNat < Z.uncompressWrites zLen source := by
    rw [Zlib.uncompressWrites]
    omega
  rw [inflateEnd, if_neg hwrites]
  cases hanswer : Z.uncompress zLen source with
  | none => rfl
  | some buf =>
    obtain ⟨hinflate, -⟩ := Zlib.uncompress_eq_some.1 hanswer
    dsimp only
    split
    · rfl
    · rename_i hlen
      have hthrew := hlist (congrArg Prod.snd hinflate) (by rw [hinflate]; exact not_not.1 hlen)
      rw [hinflate] at hthrew
      rw [outcome_parse, hthrew]
      rfl

theorem outcome_plain {flags : UInt8} (hflags : ¬flags &&& compressed ≠ 0) (bufSz : UInt32)
    (rest : List UInt8) (memory : Memory) : outcome (readBody C Z memory flags bufSz) rest =
      (ended (listIn C (filled memory.buf bufSz.toNat (rest.take bufSz.toNat)))).map
        (behind flags (rest.drop bufSz.toNat)) := by
  have harray : readArray memory.buf bufSz.toNat rest =
    .ok (filled memory.buf bufSz.toNat (rest.take bufSz.toNat), rest.drop bufSz.toNat) := rfl
  rw [outcome, readBody, if_neg hflags, Lib.Reader.bind_of_ok harray]
  exact outcome_parse _ _ _

theorem tame_header : Streams.Tame readHeader :=
  Streams.tame_u8.bind fun _ => Streams.tame_u32.bind fun _ => .pure _

section

variable {M : Type} [Inhabited M] {C : M → Creatables κ}

/-- **A compressed list ends in one way where it is refused in any case.** -/
theorem determined_compressed {flags : UInt8} (hflags : flags &&& compressed ≠ 0) (bufSz : UInt32)
    {rest rest' : List UInt8} {zBufSz : UInt32} (hsize : readU32 rest = .ok (zBufSz, rest')) :
    Determined (fun p : M × Memory => outcome (readBody (C p.1) Z p.2 flags bufSz) rest) ↔
      ∀ zBuf, Refused C Z bufSz (filled zBuf zBufSz.toNat (rest'.take zBufSz.toNat)) := by
  simp only [outcome_compressed hflags bufSz hsize]
  constructor
  · intro h zBuf
    have hthrew := fun m => threw_of_same (h.inside (m, ⟨zBuf, zBuf, 18446744073709551615⟩))
      (h.same (m, ⟨zBuf, zBuf, 18446744073709551615⟩) (m, ⟨zBuf, zBuf, 0⟩))
    exact ⟨(hthrew default).1, fun hended hlen m => (hthrew m).2 hended hlen⟩
  · intro h
    exact ⟨.threw, nofun, fun p => inflateEnd_refused (h p.2.zBuf).room
      (fun hended hlen => (h p.2.zBuf).list hended hlen p.1) _ _ _⟩

/-- **Reading a list ends in one way exactly where the bytes settle it.** -/
theorem determined_iff (bytes : List UInt8) :
    Determined (fun p : M × Memory => outcome (read (C p.1) Z p.2) bytes) ↔ Settled C Z bytes := by
  rw [Settled]
  cases hheader : readHeader bytes with
  | error e =>
    have htame : e ≠ .crash := tame_header bytes e hheader
    have herror : ∀ p : M × Memory, outcome (read (C p.1) Z p.2) bytes = .threw := fun p =>
      Streams.outcome_threw (Lib.Reader.bind_of_error hheader) htame
    rw [Determined.iff_of_const herror]
    exact iff_of_true (fun h => by cases h) trivial
  | ok header =>
    obtain ⟨⟨flags, bufSz⟩, rest⟩ := header
    have hread : ∀ p : M × Memory, outcome (read (C p.1) Z p.2) bytes =
        outcome (readBody (C p.1) Z p.2 flags bufSz) rest := by
      intro p
      rw [outcome, read, Lib.Reader.bind_of_ok hheader]
      rfl
    simp only [hread]
    by_cases hflags : flags &&& compressed ≠ 0
    · rw [if_pos hflags]
      cases hsize : readU32 rest with
      | error e =>
        have htame : e ≠ .crash := Streams.tame_u32 rest e hsize
        have herror : ∀ p : M × Memory,
            outcome (readBody (C p.1) Z p.2 flags bufSz) rest = .threw := by
          intro p
          refine Streams.outcome_threw ?_ htame
          rw [readBody, if_pos hflags, Lib.Reader.bind_of_error hsize]
        rw [Determined.iff_of_const herror]
        exact iff_of_true (fun h => by cases h) trivial
      | ok r =>
        obtain ⟨zBufSz, rest'⟩ := r
        exact determined_compressed hflags bufSz hsize
    · rw [if_neg hflags]
      simp only [outcome_plain hflags]
      rw [Lib.determined_map (behind_injective _ _)]
      -- of the memory of the list only the array is looked at
      let looked (p : M × Memory) : M × (Nat → UInt8) := (p.1, p.2.buf)
      have hlooked : Function.Surjective looked := by
        rintro ⟨m, buf⟩
        exact ⟨(m, { (default : Memory) with buf }), rfl⟩
      let run (p : M × (Nat → UInt8)) : Outcome (SortedMap UInt16.toNat κ) :=
        ended (listIn (C p.1) (filled p.2 bufSz.toNat (rest.take bufSz.toNat)))
      show Determined (fun p => run (looked p)) ↔ Determined run
      exact Lib.determined_comp hlooked

end

/-! ## Lists that come back -/

theorem flags_clear (flags : UInt8) : flags &&& ~~~compressed &&& compressed = 0 := by
  revert flags
  refine Streams.forall_byte ?_
  decide +kernel

theorem flags_set (flags : UInt8) : (flags ||| compressed) &&& compressed ≠ 0 := by
  revert flags
  refine Streams.forall_byte ?_
  decide +kernel

theorem reads_header (flags : UInt8) (bufSz : UInt32) :
    Reads readHeader (writeU8 flags ++ writeU32 bufSz) (flags, bufSz) :=
  (reads_u8 _).bind ((reads_u32 _).andThen (.pure _))

theorem write_plain {l : CreatableList κ} (h : ¬ Compresses C l) (zBufSz : UInt64) :
    write C Z zBufSz l = some ((writeU8 (l.flags &&& ~~~compressed) ++
      writeU32 (UInt32.ofNat (writeRam C l.items).length)) ++
        (writeRam C l.items).take (UInt32.ofNat (writeRam C l.items).length).toNat) := if_neg h

theorem yields_read (memory : Memory) :
    Yields (read C Z memory) fun r => ∀ l, r = some l → l.items.entries.length < 2 ^ 16 := by
  have hparse : ∀ flags buf, Yields (parse C flags buf) fun r =>
      ∀ l, r = some l → l.items.entries.length < 2 ^ 16 := by
    intro flags buf
    have hlist : Yields (Lib.Reader.ofExcept (listIn C buf)) fun items =>
        items.entries.length < 2 ^ 16 := .ofExcept fun items h => length_listIn h
    refine hlist.bind fun items hitems => .pure fun l hl => ?_
    obtain rfl := Option.some.inj hl
    exact hitems
  refine (Yields.any readHeader).bind fun header _ => ?_
  obtain ⟨flags, bufSz⟩ := header
  show Yields (readBody C Z memory flags bufSz) _
  rw [readBody]
  split
  · refine (Yields.any _).bind fun zBufSz _ => (Yields.any _).bind fun zBuf _ => ?_
    split
    · exact .pure nofun
    · cases Z.uncompress memory.zLen.toNat zBuf with
      | none => exact .fail
      | some buf =>
        show Yields (if buf.length ≠ bufSz.toNat then _ else _) _
        split
        · exact .fail
        · exact hparse _ _
  · exact (Yields.any _).bind fun buf _ => hparse _ _

/-- No list is read of which a byte is compressed, where the memory of `zLen` holds zero. -/
theorem yields_noRoom {flags : UInt8} (hflags : flags &&& compressed ≠ 0) {bufSz : UInt32}
    (hpos : 0 < bufSz.toNat) : Yields (readBody C Z default flags bufSz) fun _ => False := by
  rw [readBody, if_pos hflags]
  refine (Yields.any _).bind fun zBufSz _ => (Yields.any _).bind fun zBuf _ => ?_
  have hzero : (default : Memory).zLen.toNat = 0 := rfl
  have hinside : ¬ bufSz.toNat < Z.uncompressWrites (default : Memory).zLen.toNat zBuf := by
    rw [Zlib.uncompressWrites, hzero]
    omega
  rw [if_neg hinside]
  cases hanswer : Z.uncompress (default : Memory).zLen.toNat zBuf with
  | none => exact .fail
  | some buf =>
    have hlen := (Zlib.uncompress_eq_some.1 hanswer).2
    show Yields (if buf.length ≠ bufSz.toNat then _ else _) _
    rw [if_pos (by omega)]
    exact .fail

section

variable {M : Type} {C : M → Creatables κ}

/-- Items are read as they were written in another memory. -/
theorem listIn_written {items : SortedMap UInt16.toNat κ} (h : ∀ p ∈ items.entries, Kept C p.2)
    (hcount : items.entries.length < 2 ^ 16) (m m' : M) :
    listIn (C m') (writeRam (C m) items) = .ok items := by
  let mixed : Creatables κ := { C m with create := (C m').create }
  have hread : listIn mixed = listIn (C m') := listIn_congr rfl
  rw [← hread]
  exact listIn_writeRam (C := mixed) (fun p hp => h p hp m m') hcount

/-- **A list that is not compressed comes back**, if its lengths fit. -/
theorem roundTrips {l : CreatableList κ} (h : ∀ p ∈ l.items.entries, Kept C p.2)
    (hplain : ∀ m, ¬ Compresses (C m) l) (hcount : l.items.entries.length < 2 ^ 16)
    (hlen : ∀ m, (writeRam (C m) l.items).length < 2 ^ 32) : RoundTrips C Z l := by
  intro m zBufSz
  have hbufSz : (UInt32.ofNat (writeRam (C m) l.items).length).toNat =
      (writeRam (C m) l.items).length := UInt32.toNat_ofNat_of_lt' (hlen m)
  refine ⟨_, write_plain (hplain m) zBufSz, fun m' memory => (reads_header _ _).bind ?_⟩
  show Reads (readBody (C m') Z memory (l.flags &&& ~~~compressed) _) _ _
  rw [readBody, if_neg (not_not.2 (flags_clear l.flags)), hbufSz, List.take_length]
  refine (reads_array memory.buf rfl).andThen ?_
  rw [parse, listIn_written h hcount]
  exact (Reads.ofExcept rfl).after (.pure _)

/-- **A list that comes back has fewer items than 16 bits can count.** -/
theorem RoundTrips.count [Inhabited M] {l : CreatableList κ} (h : RoundTrips C Z l) :
    l.items.entries.length < 2 ^ 16 := by
  obtain ⟨out, -, hreads⟩ := h default 0
  exact yields_read default _ _ _ (hreads default default [])
    ⟨l.flags &&& ~~~compressed, l.items⟩ rfl

/-- **A list that is compressed does not come back**: zlib finds no room in what the memory held
when it is read, where it did not find too much of it when it was written. -/
theorem RoundTrips.plain {l : CreatableList κ} (h : RoundTrips C Z l) (m : M) :
    ¬ Compresses (C m) l := by
  intro hcompresses
  have hmost : (18446744073709551615 : UInt64).toNat = 2 ^ 64 - 1 := rfl
  have hsmall := (UInt32.ofNat (writeRam (C m) l.items).length).toNat_lt
  have hlong : 255 < (UInt32.ofNat (writeRam (C m) l.items).length).toNat :=
    UInt32.lt_iff_toNat_lt.1 hcompresses.2
  obtain ⟨out, hwrite, hreads⟩ := h m 18446744073709551615
  have hback := hreads m default []
  have hif : write (C m) Z 18446744073709551615 l = _ := if_pos hcompresses
  rw [hif] at hwrite
  generalize UInt32.ofNat (writeRam (C m) l.items).length = bufSz at hwrite hsmall hlong
  generalize (writeRam (C m) l.items).take bufSz.toNat = buf at hwrite
  split at hwrite
  · cases hwrite
  · rename_i hinside
    have hroom : (Z.deflate buf).length ≤ (18446744073709551615 : UInt64).toNat := by
      rw [Zlib.compressWrites] at hinside
      omega
    rw [Zlib.compress, if_pos hroom] at hwrite
    obtain rfl := Option.some.inj hwrite
    rw [List.append_nil, read, Lib.Reader.bind_of_ok (reads_header _ _ _)] at hback
    exact yields_noRoom (flags_set _) (Nat.zero_lt_of_lt hlong) _ _ _ hback

/-- Every memory reads the same of the bytes, without doing what is undefined. -/
def ReadsSame (C : M → Creatables κ) (buf : List UInt8) : Prop :=
  Determined fun m => ended (listIn (C m) buf)

/-- A list whose bytes are all there is settled, if it is not compressed and its items are. -/
theorem settled_of_plain {bytes rest : List UInt8} {flags : UInt8} {bufSz : UInt32}
    (h : readHeader bytes = .ok ((flags, bufSz), rest)) (hflags : flags &&& compressed = 0)
    (hall : bufSz.toNat ≤ rest.length) :
    Settled C Z bytes ↔ ReadsSame C (rest.take bufSz.toNat) := by
  have hset : bufSz.toNat ≤ (rest.take bufSz.toNat).length := by
    rw [List.length_take]
    omega
  rw [Settled, h]
  show (if flags &&& compressed ≠ 0 then _ else _) ↔ _
  rw [if_neg (not_not.2 hflags)]
  simp only [Lib.filled_eq hset]
  have hfst : Function.Surjective (Prod.fst : M × (Nat → UInt8) → M) := fun m =>
    ⟨(m, fun _ => 0), rfl⟩
  let run (m : M) : Outcome (SortedMap UInt16.toNat κ) :=
    ended (listIn (C m) (rest.take bufSz.toNat))
  show Determined (fun p : M × (Nat → UInt8) => run p.1) ↔ Determined run
  exact Lib.determined_comp hfst

end

/-- The `GenericValue`s that are unsigned numbers. -/
def uintValues : Creatables UInt32 where
  type _ := 0x038C
  create type :=
    if type = 0x038C then .ok do
      let m_dataType ← readU8
      if m_dataType = 6 then readU32 else Lib.Reader.fail .malformedData
    else .error .factory
  write m_uint := writeU8 6 ++ writeU32 m_uint

/-- They look at no memory. -/
theorem uintValues_kept (m_uint : UInt32) : Kept (fun _ : Unit => uintValues) m_uint := by
  have htype : (0x038C : UInt16) ≠ 0x8000 := by decide
  exact fun _ _ => ⟨htype, _, rfl, (reads_u8 6).bind (reads_u32 m_uint)⟩

def twoValues : CreatableList UInt32 where
  flags := wantCompression
  items := ⟨[(3, 5), (7, 11)], by decide⟩

/-- Forty values of nine bytes each. -/
def fortyValues : CreatableList UInt32 where
  flags := wantCompression
  items := ⟨(List.range 40).map fun i => (UInt16.ofNat i, 0), by decide⟩

end CreatableList

end Dirtsand
