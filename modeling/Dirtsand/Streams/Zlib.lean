import Dirtsand.Lib.Unset
import Dirtsand.Streams

/-!
# zlib

`compress` and `uncompress`, as messages use them.  They put bytes into an array
until there are no more, or until as many as the caller says there is room for.
What is in a compressed text is a parameter.

* `Zlib.Correct` — what the manual says of them.
-/

namespace Dirtsand

open Lib (filled)

structure Zlib where
  compressBound : Nat → Nat
  /-- All of the compressed text. -/
  deflate : List UInt8 → List UInt8
  /-- What comes out of a compressed text, and whether it is whole. -/
  inflate : List UInt8 → List UInt8 × Bool

namespace Zlib

variable (Z : Zlib)

/-- What `compress` leaves in its array, where it returns `Z_OK`. -/
def compress (room : Nat) (source : List UInt8) : Option (List UInt8) :=
  if (Z.deflate source).length ≤ room then some (Z.deflate source) else none

/-- How many bytes `compress` writes. -/
def compressWrites (room : Nat) (source : List UInt8) : Nat := min (Z.deflate source).length room

def uncompress (room : Nat) (source : List UInt8) : Option (List UInt8) :=
  if (Z.inflate source).2 ∧ (Z.inflate source).1.length ≤ room then some (Z.inflate source).1
  else none

/-- How many bytes `uncompress` writes, also where it fails. -/
def uncompressWrites (room : Nat) (source : List UInt8) : Nat := min (Z.inflate source).1.length room

/-- A text has room in as many bytes as `compressBound` says, and comes out as it went in. -/
structure Correct (Z : Zlib) : Prop where
  bound : ∀ text, (Z.deflate text).length ≤ Z.compressBound text.length
  inflate : ∀ text, Z.inflate (Z.deflate text) = (text, true)

variable {Z : Zlib}

theorem uncompress_eq_some {room : Nat} {source text : List UInt8} :
    Z.uncompress room source = some text ↔ Z.inflate source = (text, true) ∧ text.length ≤ room := by
  rw [uncompress]
  constructor
  · intro h
    split at h
    · rename_i hok
      obtain rfl := Option.some.inj h
      exact ⟨Prod.ext rfl hok.1, hok.2⟩
    · cases h
  · rintro ⟨h, hroom⟩
    rw [h, if_pos ⟨rfl, hroom⟩]

/-- Texts that are kept as they are, behind a byte; the empty one is compressed as by zlib. -/
def stored : Zlib where
  compressBound n := n + n / 2 ^ 12 + n / 2 ^ 14 + n / 2 ^ 25 + 13
  deflate text := if text = [] then [0x78, 0x9C, 3, 0, 0, 0, 0, 1] else 0 :: text
  inflate source :=
    if source = [0x78, 0x9C, 3, 0, 0, 0, 0, 1] then ([], true)
    else match source with
      | 0 :: text => (text, true)
      | _ => ([], false)

theorem stored_correct : stored.Correct where
  bound text := by
    cases text with
    | nil => decide
    | cons b text =>
      show (b :: text).length + 1 ≤ _ + 13
      omega
  inflate text := by
    cases text with
    | nil => rfl
    | cons b text => rfl

end Zlib

/-- `new` for so many bytes, and `readBytes` into them: the end of the stream may come first. -/
def Streams.readArray (memory : Nat → UInt8) (size : Nat) : Read (List UInt8) := fun bytes =>
  .ok (filled memory size (bytes.take size), bytes.drop size)

theorem Streams.reads_array (memory : Nat → UInt8) {bytes : List UInt8} {size : Nat}
    (h : bytes.length = size) : Lib.Reader.Reads (readArray memory size) bytes bytes := by
  intro rest
  subst h
  rw [readArray, List.take_left, List.drop_left, Lib.filled_eq le_rfl]

/-- How it ends; what is undefined is taken for going outside of an array. -/
def Streams.ended {α : Type} : Except StreamError α → Lib.Outcome α
  | .error .crash => .outside
  | .error _ => .threw
  | .ok a => .value a

/-- How reading from these bytes ends; a reader of nothing went outside of an array. -/
def Streams.outcome {α : Type} (r : Read (Option α)) (bytes : List UInt8) :
    Lib.Outcome (α × List UInt8) :=
  match r bytes with
  | .error .crash => .outside
  | .error _ => .threw
  | .ok (none, _) => .outside
  | .ok (some a, rest) => .value (a, rest)

theorem Streams.outcome_threw {α : Type} {r : Read (Option α)} {bytes : List UInt8} {e : StreamError}
    (h : r bytes = .error e) (he : e ≠ .crash) : outcome r bytes = .threw := by
  rw [outcome, h]
  cases e with
  | crash => exact absurd rfl he
  | _ => rfl

end Dirtsand
