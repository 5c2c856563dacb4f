import Dirtsand.Lib.Transition
import Dirtsand.Streams

/-!
# Bit vectors

`DS::BitVector` (Types/BitVector.h, Types/BitVector.cpp) is meant to be a set of
natural numbers: `Values` keeps, for each vector of a program, the last value set
for each index, along the copies, moves and transfers.

* `get_iff` — a live vector has these values, except in the word past its last,
  which `get` reads without having it.
* `copy_iff`, `assign_iff`, `move_self_iff` — a copy has the right bits, and an
  assignment to itself changes nothing, only where there is no word.
* `values_kept` — in a run without these and without a vector of 2^32 words on a
  stream, every live vector has its values.
-/

namespace Dirtsand

/-- The words that are allocated, none where `m_bits` is null, and `m_words`. -/
structure BitVector where
  bits : List UInt32 := []
  words : Nat := 0
deriving DecidableEq, Repr

namespace BitVector

/-- `1 << (idx % 32)`. -/
def mask (idx : Nat) : UInt32 := (1 : UInt32) <<< UInt32.ofNat (idx % 32)

/-- The bit of an index in its word. -/
def bitAt (w : UInt32) (idx : Nat) : Bool := decide (w &&& mask idx ≠ 0)

/-- What `new uint32_t[words]` finds in the memory. -/
def fresh (words : Nat) (garbage : Nat → UInt32) : List UInt32 := (List.range words).map garbage

/-- A word of which the first `n` bytes are overwritten. -/
def mixWord (n : Nat) (src dst : UInt32) : UInt32 :=
  if 4 ≤ n then src
  else
    let low := ((1 : UInt32) <<< UInt32.ofNat (8 * n)) - 1
    (src &&& low) ||| (dst &&& ~~~low)

/-- `memcpy` of `n` bytes between words. -/
def memcpy (dst src : List UInt32) (n : Nat) : List UInt32 :=
  (List.range dst.length).map fun k => mixWord (n - 4 * k) (src.getD k 0) (dst.getD k 0)

/-! ## Operations

There is no result where memory outside of the words is read or written. -/

def get (b : BitVector) (idx : Nat) : Option Bool :=
  if b.words < idx / 32 then some false
  else b.bits[idx / 32]?.map fun w => bitAt w idx

def grow (b : BitVector) (idx : Nat) : Option BitVector :=
  if b.words < idx / 32 + 1 then
    if b.words ≤ b.bits.length then
      some ⟨b.bits.take b.words ++ List.replicate (idx / 32 + 1 - b.words) 0, idx / 32 + 1⟩
    else none
  else some b

def set (b : BitVector) (idx : Nat) (bit : Bool) : Option BitVector := do
  let b ← b.grow idx
  let w ← b.bits[idx / 32]?
  let w := if bit then w ||| mask idx else w &&& ~~~mask idx
  some { b with bits := b.bits.set (idx / 32) w }

/-- `BitVector(const BitVector&)`. -/
def copy (b : BitVector) (garbage : Nat → UInt32) : Option BitVector :=
  if b.words ≤ 4 * b.bits.length then
    some ⟨memcpy (fresh b.words garbage) b.bits b.words, b.words⟩
  else none

/-- `operator=(const BitVector&)` from the vector itself: the words that are copied are the ones
that have just been allocated. -/
def assignSelf (b : BitVector) (garbage : Nat → UInt32) : Option BitVector :=
  some ⟨memcpy (fresh b.words garbage) (fresh b.words garbage) b.words, b.words⟩

/-- What `BitVector(BitVector&&)` and `operator=(BitVector&&)` leave of the vector that is
moved from; where it is the same one, this is the result. -/
def moved (b : BitVector) : BitVector := { b with bits := [] }

def write (b : BitVector) : Option (List UInt8) :=
  if b.words ≤ b.bits.length then
    some (Streams.writeU32 (UInt32.ofNat b.words) ++
      (b.bits.take b.words).flatMap Streams.writeU32)
  else none

/-- The word at some place of the bytes, as far as there are any. -/
def wordAt (bytes : List UInt8) (k : Nat) : UInt32 :=
  UInt32.ofNat (Lib.Reader.leValue ((bytes.drop (4 * k)).take 4))

/-- `read`: the bytes that are not there any more are not written over. -/
def read (garbage : Nat → UInt32) (bytes : List UInt8) : Except StreamError BitVector := do
  let (words, rest) ← Streams.readU32 bytes
  pure ⟨(List.range words.toNat).map fun k => mixWord (rest.length - 4 * k) (wordAt rest k)
    (garbage k), words.toNat⟩

/-! ## A program with bit vectors -/

abbrev Var := Nat

inductive Op where
  | construct (v : Var)
  | set (v : Var) (idx : Nat) (bit : Bool)
  | copyConstruct (dst src : Var) (garbage : Nat → UInt32)
  | copyAssign (dst src : Var) (garbage : Nat → UInt32)
  | moveConstruct (dst src : Var)
  | moveAssign (dst src : Var)
  /-- `src.write(stream); dst.read(stream)`. -/
  | transfer (dst src : Var) (garbage : Nat → UInt32)

abbrev Vectors := Var → BitVector

def Vectors.put (s : Vectors) (v : Var) (b : BitVector) : Vectors := fun w => if w = v then b else s w

def step (s : Vectors) : Op → Option Vectors
  | .construct v => some (s.put v {})
  | .set v idx bit => ((s v).set idx bit).map (s.put v)
  | .copyConstruct dst src garbage => ((s src).copy garbage).map (s.put dst)
  | .copyAssign dst src garbage =>
    if dst = src then ((s src).assignSelf garbage).map (s.put dst)
    else ((s src).copy garbage).map (s.put dst)
  | .moveConstruct dst src => some ((s.put dst (s src)).put src (s src).moved)
  | .moveAssign dst src => some ((s.put dst (s src)).put src (s src).moved)
  | .transfer dst src garbage => do
    let bytes ← (s src).write
    match read garbage bytes with
    | .ok b => some (s.put dst b)
    | .error _ => none

/-- The values of the vectors that are live, which is all but those that were moved from. -/
abbrev Values := Var → Option (Nat → Bool)

def Values.put (s : Values) (v : Var) (f : Option (Nat → Bool)) : Values :=
  fun w => if w = v then f else s w

/-- The same operations on sets of numbers. -/
def Values.step (s : Values) : Op → Values
  | .construct v => s.put v (some fun _ => false)
  | .set v idx bit => s.put v ((s v).map fun f i => if i = idx then bit else f i)
  | .copyConstruct dst src _ => s.put dst (s src)
  | .copyAssign dst src _ => s.put dst (s src)
  | .moveConstruct dst src => if dst = src then s else (s.put dst (s src)).put src none
  | .moveAssign dst src => if dst = src then s else (s.put dst (s src)).put src none
  | .transfer dst src _ => s.put dst (s src)

/-- A program whose vectors are empty at first, with the values that they should have. -/
def machine : Lib.Machine (Vectors × Values) Op where
  start p := (∀ v, p.1 v = {}) ∧ ∀ v, p.2 v = some fun _ => false
  step p op := (step p.1 op).map fun s => (s, p.2.step op)

/-! ## Bits -/

/-- The bit of an index, where the words that there are have it. -/
def value (b : BitVector) (i : Nat) : Bool :=
  match b.bits[i / 32]? with
  | some w => bitAt w i
  | none => false

theorem toBitVec_mask (i : Nat) : (mask i).toBitVec = 1#32 <<< (i % 32) := by
  have hlt : i % 32 < 32 := Nat.mod_lt i (by decide)
  rw [mask, UInt32.toBitVec_shiftLeft]
  have hamount : ((UInt32.ofNat (i % 32)).toBitVec % 32).toNat = i % 32 := by
    have hsize : i % 32 < UInt32.size := lt_trans hlt (by decide)
    rw [BitVec.toNat_umod, UInt32.toNat_toBitVec, UInt32.toNat_ofNat_of_lt' hsize]
    exact Nat.mod_eq_of_lt hlt
  rw [BitVec.shiftLeft_eq', hamount]
  rfl

theorem getLsbD_mask (i j : Nat) (hj : j < 32) :
    (mask i).toBitVec.getLsbD j = decide (j = i % 32) := by
  rw [toBitVec_mask, BitVec.getLsbD_shiftLeft, BitVec.getLsbD_one]
  by_cases h : j = i % 32
  · subst h
    simp [hj]
  · simp only [hj, decide_true, Bool.true_and]
    rw [decide_eq_false h]
    by_cases hlt : j < i % 32
    · simp [hlt]
    · have hsub : ¬ j - i % 32 = 0 := by omega
      simp [hsub]

theorem bitAt_eq (w : UInt32) (i : Nat) : bitAt w i = w.toBitVec.getLsbD (i % 32) := by
  have hlt : i % 32 < 32 := Nat.mod_lt i (by decide)
  rw [bitAt, Bool.eq_iff_iff, decide_eq_true_iff, ne_eq, ← UInt32.toBitVec_inj,
    UInt32.toBitVec_and]
  constructor
  · intro h
    by_contra hbit
    refine h (BitVec.eq_of_getLsbD_eq fun j hj => ?_)
    rw [BitVec.getLsbD_and, getLsbD_mask i j hj]
    by_cases hji : j = i % 32
    · subst hji
      rw [Bool.not_eq_true] at hbit
      simp [hbit]
    · simp [hji]
  · intro hbit h
    have hzero := congrArg (fun v => v.getLsbD (i % 32)) h
    rw [BitVec.getLsbD_and, getLsbD_mask i _ hlt, hbit] at hzero
    simp at hzero

/-- **A bit that is set, and the others.** -/
theorem bitAt_put (w : UInt32) (idx i : Nat) (bit : Bool) :
    bitAt (if bit then w ||| mask idx else w &&& ~~~mask idx) i =
      if i % 32 = idx % 32 then bit else bitAt w i := by
  have hlt : i % 32 < 32 := Nat.mod_lt i (by decide)
  cases bit
  · rw [if_neg Bool.false_ne_true, bitAt_eq, bitAt_eq, UInt32.toBitVec_and, UInt32.toBitVec_not,
      BitVec.getLsbD_and, BitVec.getLsbD_not, getLsbD_mask idx _ hlt]
    split <;> simp [*]
  · rw [if_pos rfl, bitAt_eq, bitAt_eq, UInt32.toBitVec_or, BitVec.getLsbD_or,
      getLsbD_mask idx _ hlt]
    split <;> simp [*]

/-! ## A live vector -/

/-- The words of `m_words` are there, and have these bits. -/
structure Is (b : BitVector) (f : Nat → Bool) : Prop where
  length : b.bits.length = b.words
  bits : ∀ i, b.value i = f i

theorem value_of_getElem {b : BitVector} {i : Nat} {w : UInt32} (h : b.bits[i / 32]? = some w) :
    b.value i = bitAt w i := by
  rw [value, h]

theorem value_of_le {b : BitVector} {i : Nat} (h : b.bits.length ≤ i / 32) : b.value i = false := by
  rw [value, List.getElem?_eq_none h]

/-- **Where `get` is right**: everywhere but in the word past the last. -/
theorem get_iff {b : BitVector} {f : Nat → Bool} (h : b.Is f) (i : Nat) :
    b.get i = some (f i) ↔ i / 32 ≠ b.words := by
  rw [get, ← h.bits i]
  rcases Nat.lt_trichotomy b.words (i / 32) with hlt | heq | hgt
  · rw [if_pos hlt, value_of_le (by rw [h.length]; omega)]
    exact iff_of_true rfl (Nat.ne_of_gt hlt)
  · rw [if_neg (by omega), List.getElem?_eq_none (by rw [h.length]; omega)]
    exact iff_of_false (by simp) fun hne => hne heq.symm
  · have hw : i / 32 < b.bits.length := by rw [h.length]; exact hgt
    rw [if_neg (by omega), List.getElem?_eq_getElem hw, Option.map_some,
      value_of_getElem (List.getElem?_eq_getElem hw)]
    exact iff_of_true rfl (Nat.ne_of_lt hgt)

theorem is_empty : ({} : BitVector).Is fun _ => false := by
  refine ⟨rfl, fun i => ?_⟩
  rw [value_of_le (Nat.zero_le _)]

/-- More words, and the same bits. -/
theorem grow_spec {b : BitVector} {f : Nat → Bool} (h : b.Is f) (idx : Nat) :
    ∃ b', b.grow idx = some b' ∧ b'.Is f ∧ idx / 32 < b'.bits.length := by
  by_cases hmore : b.words < idx / 32 + 1
  · refine ⟨_, by rw [grow, if_pos hmore, if_pos (Nat.le_of_eq h.length.symm)], ⟨?_, fun i => ?_⟩, ?_⟩
    · show (_ : List UInt32).length = idx / 32 + 1
      rw [List.length_append, List.length_take, List.length_replicate, h.length]
      omega
    · have htake : b.bits.take b.words = b.bits := List.take_of_length_le (Nat.le_of_eq h.length)
      rw [← h.bits i, value, value]
      simp only [htake]
      by_cases hi : i / 32 < b.bits.length
      · rw [List.getElem?_append_left hi]
      · rw [List.getElem?_append_right (by omega), List.getElem?_eq_none (l := b.bits) (by omega),
          List.getElem?_replicate]
        split
        · rename_i w hw
          split at hw
          · cases hw
            simp [bitAt]
          · cases hw
        · rfl
    · rw [List.length_append, List.length_take, List.length_replicate, h.length]
      omega
  · refine ⟨b, by rw [grow, if_neg hmore], h, ?_⟩
    rw [h.length]
    omega

/-- **What `set` does.** -/
theorem set_spec {b : BitVector} {f : Nat → Bool} (h : b.Is f) (idx : Nat) (bit : Bool) :
    ∃ b', b.set idx bit = some b' ∧ b'.Is fun i => if i = idx then bit else f i := by
  obtain ⟨g, hgrow, hg, hlt⟩ := grow_spec h idx
  refine ⟨{ g with bits := g.bits.set (idx / 32) (if bit then g.bits[idx / 32] ||| mask idx
    else g.bits[idx / 32] &&& ~~~mask idx) }, ?_, ⟨?_, fun i => ?_⟩⟩
  · rw [set, hgrow]
    show (g.bits[idx / 32]?).bind _ = _
    rw [List.getElem?_eq_getElem hlt]
    rfl
  · rw [List.length_set, hg.length]
  · rw [value]
    by_cases hword : i / 32 = idx / 32
    · have hold : bitAt g.bits[idx / 32] i = f i := by
        rw [← hg.bits i, value_of_getElem (w := g.bits[idx / 32])]
        rw [hword, List.getElem?_eq_getElem hlt]
      rw [hword, List.getElem?_set_self hlt]
      show bitAt _ i = _
      rw [bitAt_put, hold]
      by_cases hbit : i % 32 = idx % 32
      · rw [if_pos hbit, if_pos (by omega)]
      · rw [if_neg hbit, if_neg (by rintro rfl; exact hbit rfl)]
    · rw [List.getElem?_set_ne (Ne.symm hword), if_neg (by rintro rfl; exact hword rfl), ← hg.bits i]
      rfl

/-! ## Copies -/

theorem getLsbD_low : ∀ n < 4, ∀ j < 32,
    (((1 : UInt32) <<< UInt32.ofNat (8 * n)) - 1).toBitVec.getLsbD j = decide (j < 8 * n) := by
  decide

theorem bitAt_mixWord {n : Nat} (hn : n < 4) (src dst : UInt32) (i : Nat) :
    bitAt (mixWord n src dst) i = if i % 32 < 8 * n then bitAt src i else bitAt dst i := by
  have hlt : i % 32 < 32 := Nat.mod_lt i (by decide)
  have hlow := getLsbD_low n hn (i % 32) hlt
  rw [mixWord, if_neg (by omega), bitAt_eq, bitAt_eq, bitAt_eq, UInt32.toBitVec_or,
    UInt32.toBitVec_and, UInt32.toBitVec_and, UInt32.toBitVec_not, BitVec.getLsbD_or,
    BitVec.getLsbD_and, BitVec.getLsbD_and, BitVec.getLsbD_not, hlow]
  by_cases hi : i % 32 < 8 * n
  · simp [hi]
  · simp [hi, hlt]

/-- The top bit of the last word is never copied. -/
theorem value_memcpy_last {words : Nat} (hw : words ≠ 0) (garbage : Nat → UInt32)
    (src : List UInt32) :
    value ⟨memcpy (fresh words garbage) src words, words⟩ (32 * (words - 1) + 31) =
      bitAt (garbage (words - 1)) 31 := by
  have hdiv : (32 * (words - 1) + 31) / 32 = words - 1 := by omega
  have hmod : (32 * (words - 1) + 31) % 32 = 31 := by omega
  have hlen : (fresh words garbage).length = words := by
    rw [fresh, List.length_map, List.length_range]
  have hget : (memcpy (fresh words garbage) src words)[words - 1]? =
      some (mixWord (words - 4 * (words - 1)) (src.getD (words - 1) 0) (garbage (words - 1))) := by
    have hfresh : (fresh words garbage).getD (words - 1) 0 = garbage (words - 1) := by
      rw [fresh, List.getD_eq_getElem?_getD, List.getElem?_map, List.getElem?_range (by omega),
        Option.map_some, Option.getD_some]
    rw [memcpy, List.getElem?_map, hlen, List.getElem?_range (by omega), Option.map_some, hfresh]
  rw [value]
  simp only [hdiv, hget]
  rw [bitAt_mixWord (by omega), if_neg (by rw [hmod]; omega), bitAt_eq, bitAt_eq, hmod]

/-- Memory that has another bit at this place than the vector. -/
def contrary (f : Nat → Bool) (words : Nat) : Nat → UInt32 :=
  fun _ => if f (32 * (words - 1) + 31) then 0 else 0xFFFFFFFF

theorem bitAt_contrary (f : Nat → Bool) (words k : Nat) :
    bitAt (contrary f words k) 31 = !f (32 * (words - 1) + 31) := by
  rw [contrary]
  cases f (32 * (words - 1) + 31) <;> decide

theorem memcpy_empty (garbage : Nat → UInt32) (src : List UInt32) :
    (⟨memcpy (fresh 0 garbage) src 0, 0⟩ : BitVector) = {} := rfl

theorem is_of_no_words {b : BitVector} {f : Nat → Bool} (h : b.Is f) (hw : b.words = 0) :
    ({} : BitVector).Is f := by
  have hbits : b.bits = [] := List.length_eq_zero_iff.1 (h.length.trans hw)
  refine ⟨rfl, fun i => ?_⟩
  rw [← h.bits i, value_of_le (b := b) (by rw [hbits]; exact Nat.zero_le _),
    value_of_le (Nat.zero_le _)]

/-- **A copy is right whatever the memory holds** only where nothing is copied. -/
theorem copy_iff {b : BitVector} {f : Nat → Bool} (h : b.Is f) :
    (∀ garbage, ∃ b', b.copy garbage = some b' ∧ b'.Is f) ↔ b.words = 0 := by
  have hcopy : ∀ garbage, b.copy garbage =
      some ⟨memcpy (fresh b.words garbage) b.bits b.words, b.words⟩ := by
    intro garbage
    rw [copy, if_pos (by rw [h.length]; omega)]
  constructor
  · intro hall
    by_contra hw
    obtain ⟨b', hb', his⟩ := hall (contrary f b.words)
    rw [hcopy, Option.some_inj] at hb'
    have hbit := his.bits (32 * (b.words - 1) + 31)
    rw [← hb', value_memcpy_last hw, bitAt_contrary] at hbit
    simp at hbit
  · intro hw garbage
    refine ⟨{}, ?_, is_of_no_words h hw⟩
    rw [hcopy, hw, memcpy_empty]

/-- **An assignment to itself** changes nothing only where there is nothing. -/
theorem assign_iff {b : BitVector} {f : Nat → Bool} (h : b.Is f) :
    (∀ garbage, ∃ b', b.assignSelf garbage = some b' ∧ b'.Is f) ↔ b.words = 0 := by
  constructor
  · intro hall
    by_contra hw
    obtain ⟨b', hb', his⟩ := hall (contrary f b.words)
    rw [assignSelf, Option.some_inj] at hb'
    have hbit := his.bits (32 * (b.words - 1) + 31)
    rw [← hb', value_memcpy_last hw, bitAt_contrary] at hbit
    simp at hbit
  · intro hw garbage
    refine ⟨{}, ?_, is_of_no_words h hw⟩
    rw [assignSelf, hw, memcpy_empty]

/-- **So is a move to itself.** -/
theorem move_self_iff {b : BitVector} {f : Nat → Bool} (h : b.Is f) :
    b.moved.Is f ↔ b.words = 0 := by
  constructor
  · intro his
    exact his.length.symm
  · intro hw
    have hempty : b.moved = {} := by rw [moved, hw]
    rw [hempty]
    exact is_of_no_words h hw

/-! ## Vectors on a stream -/

theorem drop_words (ws : List UInt32) (k : Nat) :
    (ws.flatMap Streams.writeU32).drop (4 * k) = (ws.drop k).flatMap Streams.writeU32 := by
  induction k generalizing ws with
  | zero => rfl
  | succ k ih =>
    cases ws with
    | nil => simp
    | cons w ws =>
      have hlen : (Streams.writeU32 w).length = 4 := Lib.Reader.length_leBytes 4 _
      rw [List.flatMap_cons, List.drop_succ_cons, ← ih, Nat.mul_succ, Nat.add_comm,
        ← List.drop_drop, ← hlen, List.drop_left]

theorem wordAt_words {ws : List UInt32} {k : Nat} (hk : k < ws.length) :
    wordAt (ws.flatMap Streams.writeU32) k = ws[k] := by
  have hlen : (Streams.writeU32 ws[k]).length = 4 := Lib.Reader.length_leBytes 4 _
  have htake : ((Streams.writeU32 ws[k] ++ (ws.drop (k + 1)).flatMap Streams.writeU32).take 4) =
      Streams.writeU32 ws[k] := by
    rw [← hlen, List.take_left]
  rw [wordAt, drop_words, List.drop_eq_getElem_cons hk, List.flatMap_cons, htake,
    Streams.writeU32, Lib.Reader.leValue_leBytes (UInt32.toNat_lt _), UInt32.ofNat_toNat]

theorem length_words (ws : List UInt32) : (ws.flatMap Streams.writeU32).length = 4 * ws.length := by
  induction ws with
  | nil => rfl
  | cons w ws ih =>
    rw [List.flatMap_cons, List.length_append, ih, Streams.writeU32, Lib.Reader.length_leBytes,
      List.length_cons]
    omega

/-- **A vector is read as it was written.** -/
theorem read_write {b : BitVector} (hlen : b.bits.length = b.words) (hsmall : b.words < 2 ^ 32)
    (garbage : Nat → UInt32) :
    ∃ bytes, b.write = some bytes ∧ read garbage bytes = .ok b := by
  have htake : b.bits.take b.words = b.bits := List.take_of_length_le (Nat.le_of_eq hlen)
  refine ⟨_, by rw [write, if_pos (Nat.le_of_eq hlen.symm), htake], ?_⟩
  have hwords : (UInt32.ofNat b.words).toNat = b.words := UInt32.toNat_ofNat_of_lt' hsmall
  have hbits : ((List.range b.words).map fun k => mixWord ((b.bits.flatMap Streams.writeU32).length
      - 4 * k) (wordAt (b.bits.flatMap Streams.writeU32) k) (garbage k)) = b.bits := by
    refine List.ext_getElem (by rw [List.length_map, List.length_range, hlen]) fun k hk hk' => ?_
    rw [List.length_map, List.length_range] at hk
    rw [List.getElem_map, List.getElem_range, length_words, mixWord, if_pos (by omega),
      wordAt_words hk']
  rw [read, Streams.reads_u32]
  show Except.ok _ = _
  rw [hwords, hbits]

/-! ## Runs -/

/-- **The condition on a step.**  The vectors that it starts from are live; none with words is
copied, or moved to itself; none with 2^32 words is written. -/
def Ok (p : Vectors × Values) : Op → Prop
  | .construct _ => True
  | .set v _ _ => (p.2 v).isSome
  | .copyConstruct _ src _ => (p.2 src).isSome ∧ (p.1 src).words = 0
  | .copyAssign _ src _ => (p.2 src).isSome ∧ (p.1 src).words = 0
  | .moveConstruct dst src => (p.2 src).isSome ∧ dst ≠ src
  | .moveAssign dst src => (p.2 src).isSome ∧ (dst = src → (p.1 src).words = 0)
  | .transfer _ src _ => (p.2 src).isSome ∧ (p.1 src).words < 2 ^ 32

instance (p : Vectors × Values) (op : Op) : Decidable (Ok p op) := by
  cases op <;> unfold Ok <;> infer_instance

/-- Every live vector has its values. -/
def Kept (p : Vectors × Values) : Prop := ∀ v f, p.2 v = some f → (p.1 v).Is f

theorem Kept.put {p : Vectors × Values} (h : Kept p) {v : Var} {b : BitVector}
    {g : Option (Nat → Bool)} (hb : ∀ f, g = some f → b.Is f) :
    Kept (p.1.put v b, p.2.put v g) := by
  intro w f hf
  by_cases hw : w = v
  · subst hw
    simp only [Vectors.put, Values.put, if_true] at hf ⊢
    exact hb f hf
  · simp only [Vectors.put, Values.put, if_neg hw] at hf ⊢
    exact h w f hf

/-- A vector with the values of another one. -/
theorem Kept.copy {p : Vectors × Values} (h : Kept p) {dst src : Var} {b : BitVector}
    {f : Nat → Bool} (hf : p.2 src = some f) (hb : b.Is f) :
    Kept (p.1.put dst b, p.2.put dst (p.2 src)) := by
  refine h.put fun g hg => ?_
  rw [hf, Option.some_inj] at hg
  exact hg ▸ hb

/-- **A step under the condition** can be made, and the values are kept. -/
theorem step_kept {p : Vectors × Values} {op : Op} (h : Kept p) (hok : Ok p op) :
    ∃ p', machine.step p op = some p' ∧ Kept p' := by
  cases op with
  | construct v =>
    refine ⟨_, rfl, h.put fun f hf => ?_⟩
    obtain rfl := Option.some_inj.1 hf
    exact is_empty
  | set v idx bit =>
    obtain ⟨f, hf⟩ := Option.isSome_iff_exists.1 hok
    obtain ⟨b, hset, hb⟩ := set_spec (h v f hf) idx bit
    refine ⟨(p.1.put v b, p.2.step (.set v idx bit)), ?_, h.put fun g hg => ?_⟩
    · simp only [machine, step, hset, Option.map_some]
    · rw [hf, Option.map_some, Option.some_inj] at hg
      exact hg ▸ hb
  | copyConstruct dst src garbage =>
    obtain ⟨hlive, hw⟩ := hok
    obtain ⟨f, hf⟩ := Option.isSome_iff_exists.1 hlive
    obtain ⟨b, hcopy, hb⟩ := (copy_iff (h src f hf)).2 hw garbage
    refine ⟨(p.1.put dst b, p.2.step (.copyConstruct dst src garbage)), ?_, h.copy hf hb⟩
    simp only [machine, step, hcopy, Option.map_some]
  | copyAssign dst src garbage =>
    obtain ⟨hlive, hw⟩ := hok
    obtain ⟨f, hf⟩ := Option.isSome_iff_exists.1 hlive
    by_cases hself : dst = src
    · obtain ⟨b, hassign, hb⟩ := (assign_iff (h src f hf)).2 hw garbage
      refine ⟨(p.1.put dst b, p.2.step (.copyAssign dst src garbage)), ?_, h.copy hf hb⟩
      simp only [machine, step, if_pos hself, hassign, Option.map_some]
    · obtain ⟨b, hcopy, hb⟩ := (copy_iff (h src f hf)).2 hw garbage
      refine ⟨(p.1.put dst b, p.2.step (.copyAssign dst src garbage)), ?_, h.copy hf hb⟩
      simp only [machine, step, if_neg hself, hcopy, Option.map_some]
  | moveConstruct dst src =>
    obtain ⟨-, hne⟩ := hok
    refine ⟨_, rfl, ?_⟩
    show Kept (_, if dst = src then p.2 else _)
    rw [if_neg hne]
    exact (h.put (h src)).put fun f hf => nomatch hf
  | moveAssign dst src =>
    obtain ⟨hlive, hself⟩ := hok
    obtain ⟨f, hf⟩ := Option.isSome_iff_exists.1 hlive
    refine ⟨_, rfl, ?_⟩
    show Kept (_, if dst = src then p.2 else _)
    by_cases heq : dst = src
    · rw [if_pos heq]
      intro w g hg
      by_cases hw : w = src
      · subst hw
        rw [hf, Option.some_inj] at hg
        simp only [Vectors.put, if_true]
        exact hg ▸ (move_self_iff (h w f hf)).2 (hself heq)
      · simp only [Vectors.put, if_neg hw, if_neg (heq ▸ hw)]
        exact h w g hg
    · rw [if_neg heq]
      exact (h.put (h src)).put fun f hf => nomatch hf
  | transfer dst src garbage =>
    obtain ⟨hlive, hsmall⟩ := hok
    obtain ⟨f, hf⟩ := Option.isSome_iff_exists.1 hlive
    obtain ⟨bytes, hwrite, hread⟩ := read_write (h src f hf).length hsmall garbage
    refine ⟨(p.1.put dst (p.1 src), p.2.step (.transfer dst src garbage)), ?_, h.put (h src)⟩
    simp only [machine, step, hwrite, Option.bind_eq_bind, Option.bind_some, hread, Option.map_some]

/-- **Every live vector is the set it should be**, in a run whose steps all meet the condition, and
`get` tells so of each index that is not in the word past the last. -/
theorem values_kept {p : Vectors × Values} (h : machine.ReachableWith Ok p) :
    (∀ v f, p.2 v = some f → ∀ i, (p.1 v).get i = some (f i) ↔ i / 32 ≠ (p.1 v).words) ∧
      ∀ op, Ok p op → (machine.step p op).isSome := by
  have hkept : Kept p := by
    refine h.invariant (fun p hp v f hf => ?_) fun p op p' hp hok hstep => ?_
    · rw [hp.2 v, Option.some_inj] at hf
      rw [hp.1 v, ← hf]
      exact is_empty
    · obtain ⟨p'', hstep', hp''⟩ := step_kept hp hok
      obtain rfl := Option.some_inj.1 (hstep'.symm.trans hstep)
      exact hp''
  refine ⟨fun v f hf i => get_iff (hkept v f hf) i, fun op hok => ?_⟩
  obtain ⟨p', hstep, -⟩ := step_kept hkept hok
  rw [hstep]
  rfl

def program : Vectors × Values := (fun _ => {}, fun _ => some fun _ => false)

/-- Two indices are set, the vector is moved, and sent over a stream. -/
theorem program_values : ∃ p, machine.ReachableWith Ok p ∧
    (∀ v f, p.2 v = some f → ∀ i, (p.1 v).get i = some (f i) ↔ i / 32 ≠ (p.1 v).words) ∧
      ∀ op, Ok p op → (machine.step p op).isSome := by
  have hrun : machine.OkRun Ok program
      [.set 0 33 true, .set 0 3 true, .moveConstruct 1 0, .transfer 2 1 fun _ => 0xCC] :=
    Lib.Machine.okRun_of_allRun (p := fun p op => decide (Ok p op)) (fun p op => of_decide_eq_true)
      (by decide)
  have hstart : machine.start program := ⟨fun _ => rfl, fun _ => rfl⟩
  obtain ⟨p, -, hp⟩ := Lib.Machine.ReachableWith.run (.start hstart) hrun
  exact ⟨p, hp, values_kept hp⟩

/-- A vector with the index 8 is copied: the second byte of its word is not. -/
theorem copy_loses :
    ¬ ∀ p, machine.Reachable p → ∀ v f, p.2 v = some f → ∀ i, (p.1 v).get i = some (f i) := by
  intro h
  have hstart : machine.start program := ⟨fun _ => rfl, fun _ => rfl⟩
  have hrun : machine.run program [.set 0 8 true, .copyConstruct 1 0 fun _ => 0] = some _ := rfl
  have hget := h _ (Lib.Machine.run_reachable (.start hstart) hrun) 1
    (fun i => if i = 8 then true else false) rfl 8
  exact absurd hget (by decide)

end BitVector

end Dirtsand
