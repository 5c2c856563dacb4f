import Dirtsand.Lib.Transition
import Dirtsand.Streams.Encrypted

/-!
# Buffer streams in memory

`DS::BufferStream` (streams.h, streams.cpp) as it lies in memory: an array with
room for `m_alloc` bytes, of which `m_size` are in use.  Elsewhere such a stream
is its bytes and a position, which is the `Cursor` of this file.

* `seek_spec` — a position is clamped into the bytes that there are.
* `buffer_refines` — in every run with seeks below 2^31 the array is a cursor, and
  never accessed outside.
* `patch_getElem` — so that a length field which is written last changes only its
  own bytes.
-/

namespace Dirtsand.RamBuffer

/-- The bytes of a stream, and its position. -/
abbrev Cursor := Dirtsand.BufferStream

/-- `m_buffer` is the whole array, of `m_alloc` bytes. -/
structure BufferStream where
  buffer : List UInt8 := []
  position : Nat := 0
  size : Nat := 0
  alloc : Nat := 0
deriving DecidableEq, Repr

/-- `SEEK_SET`, `SEEK_CUR`, `SEEK_END`. -/
inductive Whence where
  | set
  | cur
  | fromEnd
deriving DecidableEq, Repr

/-- A number as a `size_t`. -/
def toSize (v : Int) : Nat := (v % 2 ^ 64).toNat

/-- `static_cast<int32_t>(n) < 0`. -/
def negative32 (n : Nat) : Bool := 2 ^ 31 ≤ n % 2 ^ 32

/-- The loop that doubles `bigger`, with the rounds that are left. -/
def doubled (need : Nat) : Nat → Nat → Nat
  | 0, bigger => bigger
  | rounds + 1, bigger => if bigger < need then doubled need rounds (2 * bigger) else bigger

namespace BufferStream

/-- Nothing is returned where memory outside of the array is accessed.  A `count` is the size of a
buffer of the caller's, so that it does not wrap when it is added; `m_size - m_position` would,
for a position past the size, and the array does not have that much. -/
def readBytes (s : BufferStream) (count : Nat) : Option (List UInt8 × BufferStream) :=
  let count := if s.size < s.position + count then s.size - s.position else count
  if s.size < s.position ∨ s.buffer.length < s.position + count then none
  else some ((s.buffer.drop s.position).take count, { s with position := s.position + count })

/-- The reallocation in `writeBytes`; `garbage` is what the new array holds at first. -/
def reserve (s : BufferStream) (need : Nat) (garbage : Nat → UInt8) : Option BufferStream :=
  if s.alloc < need then
    let bigger := doubled need need (if s.alloc = 0 then 4096 else s.alloc)
    if s.buffer.length < s.size then none
    else some { s with
      buffer := s.buffer.take s.size ++ (List.range' s.size (bigger - s.size)).map garbage
      alloc := bigger }
  else some s

def writeBytes (s : BufferStream) (bytes : List UInt8) (garbage : Nat → UInt8) :
    Option BufferStream := do
  let s ← s.reserve (s.position + bytes.length) garbage
  let position := s.position + bytes.length
  if s.buffer.length < position then none
  else some { s with
    buffer := s.buffer.take s.position ++ bytes ++ s.buffer.drop position
    position := position
    size := if s.size < position then position else s.size }

def seek (s : BufferStream) (offset : Int) (whence : Whence) : BufferStream :=
  let position := match whence with
    | .set => toSize offset
    | .cur => toSize (s.position + offset)
    | .fromEnd => toSize (s.size - offset)
  { s with position := if negative32 position then 0
      else if s.size < position then s.size else position }

def truncate (s : BufferStream) : BufferStream := { s with size := 0, position := 0 }

/-- `set`, with null or with bytes. -/
def set : Option (List UInt8) → BufferStream
  | some data => ⟨data, 0, data.length, data.length⟩
  | none => {}

/-- `steal`, of an array of this size. -/
def steal (data : List UInt8) : BufferStream := ⟨data, 0, data.length, data.length⟩

end BufferStream

/-- What is done to a stream. -/
inductive Op where
  | read (count : Nat)
  | write (bytes : List UInt8) (garbage : Nat → UInt8)
  | seek (offset : Int) (whence : Whence)
  | truncate
  | set (data : Option (List UInt8))
  | steal (data : List UInt8)

/-- The stream after an operation, and what was read. -/
def BufferStream.step (s : BufferStream) : Op → Option (BufferStream × List UInt8)
  | .read count => (s.readBytes count).map fun r => (r.2, r.1)
  | .write bytes garbage => (s.writeBytes bytes garbage).map fun s => (s, [])
  | .seek offset whence => some (s.seek offset whence, [])
  | .truncate => some (s.truncate, [])
  | .set data => some (.set data, [])
  | .steal data => some (.steal data, [])

namespace Cursor

/-- Where a seek is to go. -/
def target (c : Cursor) (offset : Int) : Whence → Int
  | .set => offset
  | .cur => c.position + offset
  | .fromEnd => c.data.length - offset

/-- A seek goes to the nearest position that there is. -/
def seekTo (c : Cursor) (offset : Int) (whence : Whence) : Cursor :=
  { c with position := (max 0 (min (target c offset whence) c.data.length)).toNat }

def step (c : Cursor) : Op → Cursor × List UInt8
  | .read count => ((c.readBytes count).2, (c.readBytes count).1)
  | .write bytes _ => (c.writeBytes bytes, [])
  | .seek offset whence => (seekTo c offset whence, [])
  | .truncate => ({}, [])
  | .set data => ({ data := data.getD [] }, [])
  | .steal data => ({ data := data }, [])

end Cursor

/-- A stream that is empty at first, with the cursor that it stands for. -/
def machine : Lib.Machine (BufferStream × Cursor) Op where
  start p := p = ({}, {})
  step p op := (p.1.step op).map fun r => (r.1, (Cursor.step p.2 op).1)

/-- The size and the offset of a seek together are below 2^31. -/
def Ok (p : BufferStream × Cursor) : Op → Prop
  | .seek offset _ => p.2.data.length + offset.natAbs < 2 ^ 31
  | _ => True

/-! ## The array -/

/-- What is in use lies in the array, and the position in what is in use. -/
structure Inv (s : BufferStream) : Prop where
  position : s.position ≤ s.size
  size : s.size ≤ s.alloc
  alloc : s.buffer.length = s.alloc

/-- The bytes that are in use. -/
def content (s : BufferStream) : Cursor := ⟨s.buffer.take s.size, s.position⟩

theorem length_content {s : BufferStream} (h : Inv s) : (content s).data.length = s.size := by
  rw [content, List.length_take, h.alloc, Nat.min_eq_left h.size]

theorem le_doubled {need : Nat} : ∀ (rounds : Nat) {bigger : Nat}, 0 < bigger →
    need ≤ bigger + rounds → need ≤ doubled need rounds bigger := by
  intro rounds
  induction rounds with
  | zero => intro bigger _ h; exact h
  | succ rounds ih =>
    intro bigger hpos h
    rw [doubled]
    split
    · exact ih (by omega) (by omega)
    · omega

/-! ## One operation -/

/-- **A read returns the bytes under the cursor.** -/
theorem readBytes_spec {s : BufferStream} (h : Inv s) (count : Nat) :
    ∃ s', s.readBytes count = some (((content s).readBytes count).1, s') ∧ Inv s' ∧
      content s' = ((content s).readBytes count).2 := by
  have hlen := length_content h
  have hposition := h.position
  have hsize := h.size
  have halloc := h.alloc
  have hfits : ∀ n, s.position + n ≤ s.size →
      ¬ (s.size < s.position ∨ s.buffer.length < s.position + n) := by
    intro n hn
    omega
  -- the bytes that are read are in use
  have hread : ∀ n, s.position + n ≤ s.size →
      ((content s).data.drop s.position).take n = (s.buffer.drop s.position).take n := by
    intro n hn
    rw [content, List.drop_take, List.take_take, Nat.min_eq_left (by omega)]
  rw [BufferStream.readBytes, Dirtsand.BufferStream.readBytes, hlen]
  show ∃ s', _ = some (((content s).data.drop s.position).take
    (if s.size < s.position + count then s.size - s.position else count), s') ∧ _
  by_cases hshort : s.size < s.position + count
  · have hn : s.position + (s.size - s.position) ≤ s.size := by omega
    refine ⟨{ s with position := s.position + (s.size - s.position) }, ?_, ⟨hn, hsize, halloc⟩, ?_⟩
    · rw [if_pos hshort, hread _ hn]
      simp only [if_neg (hfits _ hn)]
    · show _ = (⟨_, s.position + (if s.size < s.position + count then _ else _)⟩ : Cursor)
      rw [if_pos hshort]
      rfl
  · have hn : s.position + count ≤ s.size := by omega
    refine ⟨{ s with position := s.position + count }, ?_, ⟨hn, hsize, halloc⟩, ?_⟩
    · rw [if_neg hshort, hread _ hn]
      simp only [if_neg (hfits _ hn)]
    · show _ = (⟨_, s.position + (if s.size < s.position + count then _ else _)⟩ : Cursor)
      rw [if_neg hshort]
      rfl

/-- Growth loses no byte, and makes room. -/
theorem reserve_spec {s : BufferStream} (h : Inv s) (need : Nat) (garbage : Nat → UInt8) :
    ∃ s', s.reserve need garbage = some s' ∧ Inv s' ∧ content s' = content s ∧
      s'.size = s.size ∧ s'.position = s.position ∧ need ≤ s'.alloc := by
  have hsize := h.size
  have halloc := h.alloc
  by_cases hmore : s.alloc < need
  · have hpos : 0 < if s.alloc = 0 then 4096 else s.alloc := by split <;> omega
    have hneed : need ≤ doubled need need (if s.alloc = 0 then 4096 else s.alloc) :=
      le_doubled need hpos (by omega)
    have hlen : (s.buffer.take s.size).length = s.size := by
      rw [List.length_take, halloc, Nat.min_eq_left hsize]
    have hreserve : s.reserve need garbage = some
        { s with
          buffer := s.buffer.take s.size ++ (List.range' s.size
            (doubled need need (if s.alloc = 0 then 4096 else s.alloc) - s.size)).map garbage
          alloc := doubled need need (if s.alloc = 0 then 4096 else s.alloc) } := by
      rw [BufferStream.reserve, if_pos hmore, if_neg (by omega)]
    refine ⟨_, hreserve, ⟨h.position, ?_, ?_⟩, ?_, rfl, rfl, hneed⟩
    · show s.size ≤ doubled need need _
      omega
    · show List.length (_ ++ _) = doubled need need _
      rw [List.length_append, hlen, List.length_map, List.length_range']
      omega
    · rw [content, content]
      show (⟨List.take s.size (_ ++ _), s.position⟩ : Cursor) = _
      rw [List.take_left' hlen]
  · exact ⟨s, by rw [BufferStream.reserve, if_neg hmore], h, rfl, rfl, rfl, by omega⟩

/-- **A write replaces the bytes under the cursor**, and adds what goes past the end. -/
theorem writeBytes_spec {s : BufferStream} (h : Inv s) (bytes : List UInt8)
    (garbage : Nat → UInt8) :
    ∃ s', s.writeBytes bytes garbage = some s' ∧ Inv s' ∧
      content s' = (content s).writeBytes bytes := by
  obtain ⟨g, hreserve, hg, hcontent, hsize, hposition, hroom⟩ :=
    reserve_spec h (s.position + bytes.length) garbage
  have halloc := hg.alloc
  have hgsize := hg.size
  have hgpos := hg.position
  rw [← hposition] at hroom
  have htake : (g.buffer.take g.position).length = g.position := by
    rw [List.length_take]
    omega
  have hwritten : (g.buffer.take g.position ++ bytes ++
      g.buffer.drop (g.position + bytes.length)).length = g.alloc := by
    rw [List.length_append, List.length_append, htake, List.length_drop]
    omega
  have hwrite : s.writeBytes bytes garbage = some
      { g with
        buffer := g.buffer.take g.position ++ bytes ++ g.buffer.drop (g.position + bytes.length)
        position := g.position + bytes.length
        size := if g.size < g.position + bytes.length then g.position + bytes.length
          else g.size } := by
    rw [BufferStream.writeBytes, hreserve]
    show (if _ then none else some _) = _
    rw [if_neg (by omega)]
  refine ⟨_, hwrite, ⟨?_, ?_, hwritten⟩, ?_⟩
  · show g.position + bytes.length ≤ if g.size < _ then _ else _
    split <;> omega
  · show (if g.size < _ then _ else _) ≤ g.alloc
    split <;> omega
  · rw [← hcontent, content, content]
    show (⟨List.take (if g.size < _ then _ else _) _, _⟩ : Cursor) = _
    rw [Dirtsand.BufferStream.writeBytes]
    have hin : g.buffer.take g.position = (g.buffer.take g.size).take g.position := by
      rw [List.take_take, Nat.min_eq_left hgpos]
    have hhead : (g.buffer.take g.position ++ bytes).length = g.position + bytes.length := by
      rw [List.length_append, htake]
    by_cases hlong : g.size < g.position + bytes.length
    · have hnone : (g.buffer.take g.size).drop (g.position + bytes.length) = [] := by
        rw [List.drop_eq_nil_iff, List.length_take]
        omega
      rw [if_pos hlong, List.take_left' hhead, hnone, List.append_nil, hin]
    · have hrest : (g.buffer.drop (g.position + bytes.length)).take
          (g.size - (g.position + bytes.length)) =
          (g.buffer.take g.size).drop (g.position + bytes.length) := List.drop_take.symm
      rw [if_neg hlong, List.take_append, hhead, hrest,
        List.take_of_length_le (by rw [hhead]; omega), hin]

/-- **A seek goes to the nearest position that there is.** -/
theorem seek_spec {s : BufferStream} (h : Inv s) (offset : Int) (whence : Whence)
    (hsmall : s.size + offset.natAbs < 2 ^ 31) :
    Inv (s.seek offset whence) ∧
      content (s.seek offset whence) = Cursor.seekTo (content s) offset whence := by
  have hlen := length_content h
  have hposition := h.position
  -- for a small number the position is clamped from both sides
  have hclamp : ∀ v : Int, v.natAbs < 2 ^ 31 →
      (if negative32 (toSize v) then 0 else if s.size < toSize v then s.size else toSize v) =
        (max 0 (min v s.size)).toNat := by
    intro v hv
    rw [negative32, toSize]
    split
    · rename_i hneg
      rw [decide_eq_true_iff] at hneg
      omega
    · rename_i hneg
      rw [decide_eq_true_iff] at hneg
      split <;> omega
  have hseek : (s.seek offset whence).position =
      (max 0 (min (Cursor.target (content s) offset whence) s.size)).toNat := by
    unfold BufferStream.seek
    cases whence with
    | set => exact hclamp offset (by omega)
    | cur => exact hclamp (s.position + offset) (by omega)
    | fromEnd =>
      rw [Cursor.target, hlen]
      exact hclamp (s.size - offset) (by omega)
  refine ⟨⟨?_, h.size, h.alloc⟩, ?_⟩
  · rw [hseek]
    show _ ≤ s.size
    omega
  · rw [Cursor.seekTo, hlen, ← hseek]
    rfl

/-- **What one operation does**, in the array and on the cursor. -/
theorem step_spec {s : BufferStream} (h : Inv s) {op : Op} (hok : Ok (s, content s) op) :
    ∃ s' out, s.step op = some (s', out) ∧ Inv s' ∧
      Cursor.step (content s) op = (content s', out) := by
  cases op with
  | read count =>
    obtain ⟨s', hread, hinv, hcontent⟩ := readBytes_spec h count
    refine ⟨s', _, by rw [BufferStream.step, hread]; rfl, hinv, ?_⟩
    rw [hcontent]
    rfl
  | write bytes garbage =>
    obtain ⟨s', hwrite, hinv, hcontent⟩ := writeBytes_spec h bytes garbage
    refine ⟨s', _, by rw [BufferStream.step, hwrite]; rfl, hinv, ?_⟩
    rw [hcontent]
    rfl
  | seek offset whence =>
    have hsmall : s.size + offset.natAbs < 2 ^ 31 := by
      rw [← length_content h]
      exact hok
    obtain ⟨hinv, hcontent⟩ := seek_spec h offset whence hsmall
    refine ⟨_, _, rfl, hinv, ?_⟩
    rw [hcontent]
    rfl
  | truncate =>
    exact ⟨_, _, rfl, ⟨le_refl 0, Nat.zero_le _, h.alloc⟩, rfl⟩
  | set data =>
    refine ⟨_, _, rfl, ?_, ?_⟩
    · cases data
      · exact ⟨le_refl 0, le_refl 0, rfl⟩
      · exact ⟨Nat.zero_le _, le_refl _, rfl⟩
    · cases data with
      | none => rfl
      | some data =>
        rw [content]
        show _ = ((⟨data.take data.length, 0⟩ : Cursor), _)
        rw [List.take_length]
        rfl
  | steal data =>
    refine ⟨_, _, rfl, ⟨Nat.zero_le _, le_refl _, rfl⟩, ?_⟩
    rw [content]
    show _ = ((⟨data.take data.length, 0⟩ : Cursor), _)
    rw [List.take_length]
    rfl

/-! ## Runs -/

/-- What is written is in its place, and the other bytes are as they were. -/
theorem writeBytes_getElem (c : Cursor) (hpos : c.position ≤ c.data.length) (bytes : List UInt8)
    (i : Nat) : (c.writeBytes bytes).data[i]? =
      if c.position ≤ i ∧ i < c.position + bytes.length then bytes[i - c.position]?
      else c.data[i]? := by
  have htake : (c.data.take c.position).length = c.position := by
    rw [List.length_take, Nat.min_eq_left hpos]
  rw [Dirtsand.BufferStream.writeBytes]
  show (_ ++ _ ++ _)[i]? = _
  rcases Nat.lt_or_ge i c.position with hlt | hge
  · rw [if_neg (by omega), List.append_assoc, List.getElem?_append_left (by omega),
      List.getElem?_take_of_lt hlt]
  · rcases Nat.lt_or_ge i (c.position + bytes.length) with hin | hout
    · rw [if_pos ⟨hge, hin⟩, List.append_assoc, List.getElem?_append_right (by omega), htake,
        List.getElem?_append_left (by omega)]
    · rw [if_neg (by omega), List.getElem?_append_right (by rw [List.length_append]; omega),
        List.length_append, htake, List.getElem?_drop]
      congr 1
      omega

theorem length_writeBytes (c : Cursor) (hpos : c.position ≤ c.data.length) (bytes : List UInt8) :
    (c.writeBytes bytes).data.length = max c.data.length (c.position + bytes.length) := by
  rw [Dirtsand.BufferStream.writeBytes]
  show (_ ++ _ ++ _ : List UInt8).length = _
  rw [List.length_append, List.length_append, List.length_take, List.length_drop]
  omega

theorem inv_reachable {p : BufferStream × Cursor} (h : machine.ReachableWith Ok p) :
    Inv p.1 ∧ content p.1 = p.2 := by
  refine h.invariant (I := fun p => Inv p.1 ∧ content p.1 = p.2) ?_ ?_
  · rintro p rfl
    exact ⟨⟨le_refl 0, le_refl 0, rfl⟩, rfl⟩
  · rintro ⟨s, c⟩ op p' ⟨hinv, hcontent⟩ hok hstep
    dsimp only at hcontent
    subst hcontent
    obtain ⟨s', out, hs, hinv', hc⟩ := step_spec hinv hok
    have hp : machine.step (s, content s) op = some (s', content s') := by
      show (s.step op).map _ = _
      rw [hs, hc]
      rfl
    obtain rfl := Option.some_inj.1 (hp.symm.trans hstep)
    exact ⟨hinv', rfl⟩

/-- What a write leaves, byte by byte. -/
theorem writeBytes_content {s : BufferStream} (h : Inv s) (bytes : List UInt8)
    (garbage : Nat → UInt8) :
    ∃ s', s.writeBytes bytes garbage = some s' ∧
      s'.size = max s.size (s.position + bytes.length) ∧
      ∀ i, (content s').data[i]? =
        if s.position ≤ i ∧ i < s.position + bytes.length then bytes[i - s.position]?
        else (content s).data[i]? := by
  obtain ⟨s', hwrite, hinv, hwritten⟩ := writeBytes_spec h bytes garbage
  have hbefore : (content s).position ≤ (content s).data.length := by
    rw [length_content h]
    exact h.position
  refine ⟨s', hwrite, ?_, fun i => ?_⟩
  · rw [← length_content hinv, hwritten, length_writeBytes _ hbefore, length_content h]
    rfl
  · rw [hwritten, writeBytes_getElem _ hbefore]
    rfl

/-- **A buffer stream is a string of bytes with a cursor.**  In every state of a run the array holds
the bytes; each further operation stays inside of it and does what it does on the cursor; a write
replaces the bytes under the cursor and no others, also where a seek has put the cursor back. -/
theorem buffer_refines {p : BufferStream × Cursor} (h : machine.ReachableWith Ok p) :
    Inv p.1 ∧ content p.1 = p.2 ∧
      (∀ op, Ok p op → ∃ s out, p.1.step op = some (s, out) ∧ Inv s ∧
        Cursor.step p.2 op = (content s, out)) ∧
      (∀ (bytes : List UInt8) (garbage : Nat → UInt8),
        ∃ s, p.1.writeBytes bytes garbage = some s ∧
          s.size = max p.1.size (p.1.position + bytes.length) ∧
          ∀ i, (content s).data[i]? =
            if p.1.position ≤ i ∧ i < p.1.position + bytes.length then bytes[i - p.1.position]?
            else p.2.data[i]?) ∧
      ∀ (place : Nat) (bytes : List UInt8) (garbage : Nat → UInt8),
        place + bytes.length ≤ p.1.size → p.1.size + place < 2 ^ 31 →
        ∃ s, (p.1.seek place .set).writeBytes bytes garbage = some s ∧
          ∀ i, (content s).data[i]? =
            if place ≤ i ∧ i < place + bytes.length then bytes[i - place]? else p.2.data[i]? := by
  obtain ⟨hinv, hcontent⟩ := inv_reachable h
  refine ⟨hinv, hcontent, fun op hok => ?_, fun bytes garbage => ?_,
    fun place bytes garbage hin hsmall => ?_⟩
  · rw [← hcontent]
    refine step_spec hinv ?_
    rw [hcontent]
    exact hok
  · rw [← hcontent]
    exact writeBytes_content hinv bytes garbage
  · obtain ⟨hseek, htarget⟩ := seek_spec hinv place .set (by omega)
    have hlen := length_content hinv
    have hposition : (p.1.seek place .set).position = place := by
      have hclamped := congrArg Dirtsand.BufferStream.position htarget
      have hin' : (max 0 (min (place : Int) (content p.1).data.length)).toNat = place := by omega
      exact hclamped.trans hin'
    obtain ⟨s, hwrite, -, hwritten⟩ := writeBytes_content hseek bytes garbage
    refine ⟨s, hwrite, fun i => ?_⟩
    rw [hwritten, hposition, htarget, ← hcontent]
    rfl

instance (p : BufferStream × Cursor) (op : Op) : Decidable (Ok p op) := by
  cases op <;> unfold Ok <;> infer_instance

/-- Four bytes, of which the second is written again. -/
theorem patched_refines : ∃ p, machine.ReachableWith Ok p ∧
    p.2.data = [1, 9, 3, 4] ∧ Inv p.1 ∧ content p.1 = p.2 := by
  have hok : machine.OkRun Ok ({}, {})
      [.steal [1, 2, 3, 4], .seek 1 .set, .write [9] fun _ => 0] :=
    Lib.Machine.okRun_of_allRun (p := fun p op => decide (Ok p op)) (fun p op => of_decide_eq_true)
      (by decide)
  obtain ⟨p, hrun, hp⟩ := Lib.Machine.ReachableWith.run (.start rfl) hok
  obtain ⟨hinv, hcontent, -⟩ := buffer_refines hp
  refine ⟨p, hp, ?_, hinv, hcontent⟩
  have hfinal : machine.run ({}, {})
      [.steal [1, 2, 3, 4], .seek 1 .set, .write [9] fun _ => 0] =
        some (⟨[1, 9, 3, 4], 2, 4, 4⟩, ⟨[1, 9, 3, 4], 2⟩) := rfl
  obtain rfl := Option.some_inj.1 (hfinal.symm.trans hrun)
  rfl

end Dirtsand.RamBuffer
