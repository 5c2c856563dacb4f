import Dirtsand.Lib.Reader
import Mathlib.Logic.Equiv.Prod
import Mathlib.Logic.Equiv.Sum

/-!
# Codecs

A `Codec` reads a value and writes one, and says what one has to do with the other.
Both are given what is in the memory of the machine, on which neither should depend.

* `Kept` — the values that are read as they were written, whatever follows them and
  whatever is in the memory.
* `Came` — what is so of every value that was read.

Codecs are put together from those of the parts, one after the other, and the two
laws with them.  A codec is `Plain` if every value that was read is kept, and `Sure`
if every value is.
-/

namespace Dirtsand.Lib

open Reader (Reads Yields given)

structure Codec (μ ε α : Type) where
  read : μ → Reader ε α
  write : μ → α → Except ε (List UInt8)
  Kept : α → Prop
  Came : α → Prop
  back : ∀ m a, Kept a → ∃ bytes, write m a = .ok bytes ∧ ∀ m', Reads (read m') bytes a
  came : ∀ m, Yields (read m) Came

namespace Codec

variable {μ ε α β : Type}

/-- What was read is written as it was. -/
class Plain (c : Codec μ ε α) : Prop where
  kept : ∀ a, c.Came a → c.Kept a

class Sure (c : Codec μ ε α) : Prop where
  kept : ∀ a, c.Kept a

instance (c : Codec μ ε α) [Sure c] : Plain c := ⟨fun a _ => Sure.kept a⟩

theorem reads_written {c : Codec μ ε α} {m : μ} {a : α} {bytes : List UInt8} (ha : c.Kept a)
    (h : c.write m a = .ok bytes) (m' : μ) : Reads (c.read m') bytes a := by
  obtain ⟨bytes', hwrite, hreads⟩ := c.back m a ha
  rw [h] at hwrite
  rw [Except.ok.inj hwrite]
  exact hreads m'

/-! ## One thing -/

/-- A writer that never fails, of which nothing is lost. -/
def of (read : Reader ε α) (write : α → List UInt8) (h : ∀ a, Reads read (write a) a) :
    Codec μ ε α where
  read _ := read
  write _ a := .ok (write a)
  Kept _ := True
  Came _ := True
  back _ a _ := ⟨write a, rfl, fun _ => h a⟩
  came _ := .any read

instance (read : Reader ε α) (write : α → List UInt8) (h : ∀ a, Reads read (write a) a) :
    Sure (of read write h : Codec μ ε α) := ⟨fun _ => trivial⟩

/-- A writer of which only some values are kept, and no others are read. -/
def only (read : Reader ε α) (write : α → List UInt8) (Kept : α → Prop)
    (h : ∀ a, Kept a → Reads read (write a) a) (came : Yields read Kept) : Codec μ ε α where
  read _ := read
  write _ a := .ok (write a)
  Kept := Kept
  Came := Kept
  back _ a ha := ⟨write a, rfl, fun _ => h a ha⟩
  came _ := came

instance (read : Reader ε α) (write : α → List UInt8) (Kept : α → Prop)
    (h : ∀ a, Kept a → Reads read (write a) a) (came : Yields read Kept) :
    Plain (only read write Kept h came : Codec μ ε α) := ⟨fun _ ha => ha⟩

def empty : Codec μ ε Unit := of (pure ()) (fun _ => []) fun _ => .pure ()

instance : Sure (empty : Codec μ ε Unit) := ⟨fun _ => trivial⟩

/-- The same bytes for values of another type. -/
def iso (c : Codec μ ε α) (e : α ≃ β) : Codec μ ε β where
  read m := do
    let a ← c.read m
    pure (e a)
  write m b := c.write m (e.symm b)
  Kept b := c.Kept (e.symm b)
  Came b := c.Came (e.symm b)
  back m b hb := by
    obtain ⟨bytes, hwrite, hreads⟩ := c.back m _ hb
    refine ⟨bytes, hwrite, fun m' => (hreads m').andThen ?_⟩
    rw [e.apply_symm_apply]
    exact .pure b
  came m := by
    refine (c.came m).bind fun a ha => .pure ?_
    rwa [e.symm_apply_apply]

instance (c : Codec μ ε α) (e : α ≃ β) [Plain c] : Plain (c.iso e) :=
  ⟨fun _ hb => Plain.kept (c := c) _ hb⟩

instance (c : Codec μ ε α) (e : α ≃ β) [Sure c] : Sure (c.iso e) :=
  ⟨fun _ => Sure.kept (c := c) _⟩

/-- A value that is refused if it fails a test. -/
def check (c : Codec μ ε α) (p : α → Bool) (e : ε) : Codec μ ε α where
  read m := do
    let a ← c.read m
    if p a = true then pure a else Reader.fail e
  write := c.write
  Kept a := c.Kept a ∧ p a = true
  Came a := c.Came a ∧ p a = true
  back m a ha := by
    obtain ⟨bytes, hwrite, hreads⟩ := c.back m a ha.1
    refine ⟨bytes, hwrite, fun m' => (hreads m').andThen ?_⟩
    rw [if_pos ha.2]
    exact .pure a
  came m := by
    refine (c.came m).bind fun a ha => ?_
    split
    · rename_i hp
      exact .pure ⟨ha, hp⟩
    · exact .fail

instance (c : Codec μ ε α) (p : α → Bool) (e : ε) [Plain c] : Plain (c.check p e) :=
  ⟨fun _ ha => ⟨Plain.kept (c := c) _ ha.1, ha.2⟩⟩

/-- A value that stands for another one, where it stands for any. -/
def enum (c : Codec μ ε α) (decode : α → Option β) (encode : β → α)
    (h : ∀ b, decode (encode b) = some b) (e : ε) : Codec μ ε β where
  read m := do
    let a ← c.read m
    match decode a with
    | some b => pure b
    | none => Reader.fail e
  write m b := c.write m (encode b)
  Kept b := c.Kept (encode b)
  Came _ := True
  back m b hb := by
    obtain ⟨bytes, hwrite, hreads⟩ := c.back m _ hb
    refine ⟨bytes, hwrite, fun m' => (hreads m').andThen ?_⟩
    rw [h]
    exact .pure b
  came m := .any _

instance (c : Codec μ ε α) (decode : α → Option β) (encode : β → α)
    (h : ∀ b, decode (encode b) = some b) (e : ε) [Sure c] : Sure (c.enum decode encode h e) :=
  ⟨fun _ => Sure.kept (c := c) _⟩

/-! ## One thing after the other -/

section

variable {τ : Type} {γ : τ → Type}

/-- What follows depends on what was read first. -/
def tagged (c : Codec μ ε τ) (d : (t : τ) → Codec μ ε (γ t)) : Codec μ ε ((t : τ) × γ t) where
  read m := do
    let t ← c.read m
    let x ← (d t).read m
    pure ⟨t, x⟩
  write m x := do
    let bytes ← c.write m x.1
    let bytes' ← (d x.1).write m x.2
    pure (bytes ++ bytes')
  Kept x := c.Kept x.1 ∧ (d x.1).Kept x.2
  Came x := c.Came x.1 ∧ (d x.1).Came x.2
  back m x hx := by
    obtain ⟨bytes, hwrite, hreads⟩ := c.back m x.1 hx.1
    obtain ⟨bytes', hwrite', hreads'⟩ := (d x.1).back m x.2 hx.2
    refine ⟨bytes ++ bytes', ?_, fun m' => (hreads m').bind ((hreads' m').andThen (.pure x))⟩
    rw [hwrite, hwrite']
    rfl
  came m := (c.came m).bind fun _ ht => ((d _).came m).bind fun _ hx => .pure ⟨ht, hx⟩

instance (c : Codec μ ε τ) (d : (t : τ) → Codec μ ε (γ t)) [Plain c] [∀ t, Plain (d t)] :
    Plain (c.tagged d) := ⟨fun _ hx => ⟨Plain.kept _ hx.1, Plain.kept _ hx.2⟩⟩

instance (c : Codec μ ε τ) (d : (t : τ) → Codec μ ε (γ t)) [Sure c] [∀ t, Sure (d t)] :
    Sure (c.tagged d) := ⟨fun _ => ⟨Sure.kept _, Sure.kept _⟩⟩

end

/-- As `tagged`, where all that can follow is of one type. -/
def dep (c : Codec μ ε α) (d : α → Codec μ ε β) : Codec μ ε (α × β) :=
  (c.tagged d).iso (Equiv.sigmaEquivProd α β)

instance (c : Codec μ ε α) (d : α → Codec μ ε β) [Plain c] [∀ a, Plain (d a)] : Plain (c.dep d) :=
  inferInstanceAs (Plain ((c.tagged d).iso _))

instance (c : Codec μ ε α) (d : α → Codec μ ε β) [Sure c] [∀ a, Sure (d a)] : Sure (c.dep d) :=
  inferInstanceAs (Sure ((c.tagged d).iso _))

def seq (c : Codec μ ε α) (d : Codec μ ε β) : Codec μ ε (α × β) := c.dep fun _ => d

instance (c : Codec μ ε α) (d : Codec μ ε β) [Plain c] [Plain d] : Plain (c.seq d) :=
  inferInstanceAs (Plain (c.dep fun _ => d))

instance (c : Codec μ ε α) (d : Codec μ ε β) [Sure c] [Sure d] : Sure (c.seq d) :=
  inferInstanceAs (Sure (c.dep fun _ => d))

/-! ## What may be absent -/

/-- A value that is there under a condition, and else has its default. -/
def when (p : Prop) [Decidable p] (d : α) (c : Codec μ ε α) : Codec μ ε α where
  read m := given p (c.read m) d
  write m a := if p then c.write m a else .ok []
  Kept a := if p then c.Kept a else a = d
  Came a := if p then c.Came a else a = d
  back m a ha := by
    by_cases hp : p
    · rw [if_pos hp] at ha
      rw [if_pos hp]
      obtain ⟨bytes, hwrite, hreads⟩ := c.back m a ha
      refine ⟨bytes, hwrite, fun m' => ?_⟩
      rw [given, if_pos hp]
      exact hreads m'
    · rw [if_neg hp] at ha
      rw [if_neg hp, ha]
      refine ⟨[], rfl, fun m' => ?_⟩
      rw [given, if_neg hp]
      exact .pure d
  came m := by
    refine Reader.yields_given (fun hp => ?_) fun hp => ?_
    · rw [show (fun a => if p then c.Came a else a = d) = c.Came from funext fun a => if_pos hp]
      exact c.came m
    · rw [if_neg hp]

instance (p : Prop) [Decidable p] (d : α) (c : Codec μ ε α) [Plain c] : Plain (when p d c) where
  kept a ha := by
    show if p then c.Kept a else a = d
    by_cases hp : p
    · rw [if_pos hp]
      exact Plain.kept a ((if_pos hp).mp ha)
    · rw [if_neg hp]
      exact (if_neg hp).mp ha

/-- Behind a flag that says whether it is there. -/
def optional (flag : Codec μ ε Bool) (c : Codec μ ε α) : Codec μ ε (Option α) where
  read m := do
    if ← flag.read m then
      let a ← c.read m
      pure (some a)
    else pure none
  write m
    | none => flag.write m false
    | some a => do
      let bytes ← flag.write m true
      let bytes' ← c.write m a
      pure (bytes ++ bytes')
  Kept x := flag.Kept x.isSome ∧ ∀ a ∈ x, c.Kept a
  Came x := ∀ a ∈ x, c.Came a
  back m x hx := by
    obtain ⟨bytes, hwrite, hreads⟩ := flag.back m _ hx.1
    cases x with
    | none => exact ⟨bytes, hwrite, fun m' => (hreads m').andThen (.pure none)⟩
    | some a =>
      rw [Option.isSome_some] at hwrite hreads
      obtain ⟨bytes', hwrite', hreads'⟩ := c.back m a (hx.2 a rfl)
      refine ⟨bytes ++ bytes', ?_,
        fun m' => (hreads m').bind ((hreads' m').andThen (.pure (some a)))⟩
      dsimp only
      rw [hwrite, hwrite']
      rfl
  came m := by
    refine (Yields.any (flag.read m)).bind fun b _ => ?_
    cases b with
    | false => exact .pure nofun
    | true =>
      refine (c.came m).bind fun a ha => .pure fun a' ha' => ?_
      rwa [← Option.some.inj ha']

instance (flag : Codec μ ε Bool) (c : Codec μ ε α) [Sure flag] [Plain c] :
    Plain (optional flag c) :=
  ⟨fun _ hx => ⟨Sure.kept _, fun a ha => Plain.kept a (hx a ha)⟩⟩

/-- Behind a flag, with a value that is not written but for the flag. -/
def except (flag : Codec μ ε Bool) (z : α) (isNull : α → Bool) (h : ∀ a, isNull a = true ↔ a = z)
    (c : Codec μ ε α) : Codec μ ε α where
  read m := do
    if ← flag.read m then c.read m else pure z
  write m a :=
    if isNull a = true then flag.write m false
    else do
      let bytes ← flag.write m true
      let bytes' ← c.write m a
      pure (bytes ++ bytes')
  Kept a := flag.Kept (!isNull a) ∧ (isNull a = false → c.Kept a)
  Came a := isNull a = false → c.Came a
  back m a ha := by
    obtain ⟨bytes, hwrite, hreads⟩ := flag.back m _ ha.1
    cases hz : isNull a with
    | true =>
      rw [hz, Bool.not_true] at hwrite hreads
      obtain rfl := (h a).1 hz
      rw [if_pos rfl]
      exact ⟨bytes, hwrite, fun m' => (hreads m').andThen (.pure a)⟩
    | false =>
      rw [hz, Bool.not_false] at hwrite hreads
      obtain ⟨bytes', hwrite', hreads'⟩ := c.back m a (ha.2 hz)
      refine ⟨bytes ++ bytes', ?_, fun m' => (hreads m').bind (hreads' m')⟩
      rw [if_neg Bool.false_ne_true, hwrite, hwrite']
      rfl
  came m := by
    refine (Yields.any (flag.read m)).bind fun b _ => ?_
    cases b with
    | false =>
      refine .pure fun hz => ?_
      rw [(h z).2 rfl] at hz
      cases hz
    | true => exact (c.came m).mono fun a ha _ => ha

instance (flag : Codec μ ε Bool) (z : α) (isNull : α → Bool) (h : ∀ a, isNull a = true ↔ a = z)
    (c : Codec μ ε α) [Sure flag] [Plain c] : Plain (except flag z isNull h c) :=
  ⟨fun _ ha => ⟨Sure.kept _, fun hz => Plain.kept _ (ha hz)⟩⟩

/-- A pointer that is not written where it is null, but for a flag. -/
def behind (flag : Codec μ ε Bool) (c : Codec μ ε (Option α)) : Codec μ ε (Option α) :=
  except flag none Option.isNone (fun _ => Option.isNone_iff_eq_none) c

/-- A pointer that must not be null. -/
def required (c : Codec μ ε (Option α)) (e : ε) : Codec μ ε α where
  read m := do
    match ← c.read m with
    | some a => pure a
    | none => Reader.fail e
  write m a := c.write m (some a)
  Kept a := c.Kept (some a)
  Came a := c.Came (some a)
  back m a ha := by
    obtain ⟨bytes, hwrite, hreads⟩ := c.back m _ ha
    exact ⟨bytes, hwrite, fun m' => (hreads m').andThen (.pure a)⟩
  came m := by
    refine (c.came m).bind fun x hx => ?_
    cases x with
    | none => exact .fail
    | some a => exact .pure hx

/-! ## Lists -/

def times : Nat → Reader ε α → Reader ε (List α)
  | 0, _ => pure []
  | n + 1, r => do
    let a ← r
    let as ← times n r
    pure (a :: as)

def writeAll (w : α → Except ε (List UInt8)) : List α → Except ε (List UInt8)
  | [] => .ok []
  | a :: as => do
    let bytes ← w a
    let bytes' ← writeAll w as
    pure (bytes ++ bytes')

theorem back_times (c : Codec μ ε α) (m : μ) {as : List α} (h : ∀ a ∈ as, c.Kept a) :
    ∃ bytes, writeAll (c.write m) as = .ok bytes ∧
      ∀ m', Reads (times as.length (c.read m')) bytes as := by
  induction as with
  | nil => exact ⟨[], rfl, fun _ => .pure []⟩
  | cons a as ih =>
    obtain ⟨bytes, hwrite, hreads⟩ := c.back m a (h a List.mem_cons_self)
    obtain ⟨bytes', hwrite', hreads'⟩ := ih fun b hb => h b (List.mem_cons_of_mem a hb)
    refine ⟨bytes ++ bytes', ?_,
      fun m' => (hreads m').bind ((hreads' m').andThen (.pure (a :: as)))⟩
    rw [writeAll, hwrite, hwrite']
    rfl

theorem yields_times (c : Codec μ ε α) (m : μ) (n : Nat) :
    Yields (times n (c.read m)) fun as => as.length = n ∧ ∀ a ∈ as, c.Came a := by
  induction n with
  | zero => exact .pure ⟨rfl, nofun⟩
  | succ n ih =>
    refine (c.came m).bind fun a ha => ih.bind fun as has => .pure ⟨?_, fun b hb => ?_⟩
    · rw [List.length_cons, has.1]
    · obtain rfl | hb := List.mem_cons.1 hb
      · exact ha
      · exact has.2 b hb

/-- Its length comes first, then something else, then the list. -/
def listAfter (count : Codec μ ε Nat) (h : Codec μ ε β) (c : Codec μ ε α) :
    Codec μ ε (β × List α) where
  read m := do
    let n ← count.read m
    let b ← h.read m
    let as ← times n (c.read m)
    pure (b, as)
  write m x := do
    let bytes ← count.write m x.2.length
    let bytes' ← h.write m x.1
    let bytes'' ← writeAll (c.write m) x.2
    pure (bytes ++ (bytes' ++ bytes''))
  Kept x := count.Kept x.2.length ∧ h.Kept x.1 ∧ ∀ a ∈ x.2, c.Kept a
  Came x := count.Came x.2.length ∧ h.Came x.1 ∧ ∀ a ∈ x.2, c.Came a
  back m x hx := by
    obtain ⟨bytes, hwrite, hreads⟩ := count.back m _ hx.1
    obtain ⟨bytes', hwrite', hreads'⟩ := h.back m _ hx.2.1
    obtain ⟨bytes'', hwrite'', hreads''⟩ := c.back_times m hx.2.2
    refine ⟨bytes ++ (bytes' ++ bytes''), ?_, fun m' =>
      (hreads m').bind ((hreads' m').bind ((hreads'' m').andThen (.pure x)))⟩
    rw [hwrite, hwrite', hwrite'']
    rfl
  came m := by
    refine (count.came m).bind fun n hn => (h.came m).bind fun b hb =>
      (c.yields_times m n).bind fun as has => .pure ⟨?_, hb, has.2⟩
    rwa [has.1]

instance (count : Codec μ ε Nat) (h : Codec μ ε β) (c : Codec μ ε α) [Plain count] [Plain h]
    [Plain c] : Plain (listAfter count h c) :=
  ⟨fun _ hx => ⟨Plain.kept _ hx.1, Plain.kept _ hx.2.1, fun a ha => Plain.kept a (hx.2.2 a ha)⟩⟩

def list (count : Codec μ ε Nat) (c : Codec μ ε α) : Codec μ ε (List α) :=
  (listAfter count empty c).iso (Equiv.punitProd (List α))

instance (count : Codec μ ε Nat) (c : Codec μ ε α) [Plain count] [Plain c] :
    Plain (list count c) :=
  inferInstanceAs (Plain ((listAfter count empty c).iso _))

theorem list_kept {count : Codec μ ε Nat} {c : Codec μ ε α} {as : List α} :
    (list count c).Kept as ↔ count.Kept as.length ∧ ∀ a ∈ as, c.Kept a :=
  ⟨fun h => ⟨h.1, h.2.2⟩, fun h => ⟨h.1, trivial, h.2⟩⟩

theorem list_came {count : Codec μ ε Nat} {c : Codec μ ε α} {as : List α} :
    (list count c).Came as ↔ count.Came as.length ∧ ∀ a ∈ as, c.Came a :=
  ⟨fun h => ⟨h.1, h.2.2⟩, fun h => ⟨h.1, trivial, h.2⟩⟩

/-- A length of `n` bytes. -/
def count (e : ε) (n : Nat) : Codec μ ε Nat :=
  only (Reader.nat e n) (Reader.leBytes n) (· < 256 ^ n) (fun _ hv => Reader.reads_nat e hv) (by
    refine (Reader.yields_take e n).bind fun bytes hbytes => .pure ?_
    have hlt := Reader.leValue_lt bytes
    rwa [hbytes] at hlt)

instance (e : ε) (n : Nat) : Plain (count e n : Codec μ ε Nat) := ⟨fun _ hv => hv⟩

/-! ## Bytes inside of others -/

/-- A value in a stream of its own, which may have more in it. -/
def within (c : Codec μ ε (α × List UInt8)) (d : Codec μ ε β) : Codec μ ε (α × β) where
  read m := do
    let (a, bytes) ← c.read m
    let (b, _) ← Reader.ofExcept (d.read m bytes)
    pure (a, b)
  write m x := do
    let bytes ← d.write m x.2
    c.write m (x.1, bytes)
  Kept x := d.Kept x.2 ∧ ∀ m bytes, d.write m x.2 = .ok bytes → c.Kept (x.1, bytes)
  Came x := (∃ bytes, c.Came (x.1, bytes)) ∧ d.Came x.2
  back m x hx := by
    obtain ⟨bytes, hwrite, hreads⟩ := d.back m x.2 hx.1
    obtain ⟨out, hout, houter⟩ := c.back m (x.1, bytes) (hx.2 m bytes hwrite)
    refine ⟨out, ?_, fun m' => (houter m').andThen ?_⟩
    · rw [hwrite]
      exact hout
    · have hinner := hreads m' []
      rw [List.append_nil] at hinner
      exact (Reads.ofExcept hinner).after (.pure x)
  came m := by
    refine (c.came m).bind fun ab hab => ?_
    obtain ⟨a, bytes⟩ := ab
    refine (Yields.ofExcept (P := fun r => d.Came r.1) fun r hr => d.came m bytes r.1 r.2 hr).bind
      fun r hr => .pure ⟨⟨bytes, hab⟩, hr⟩

end Codec

end Dirtsand.Lib
