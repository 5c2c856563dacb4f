import Dirtsand.Lib.Reader

/-!
# The Secure Hash Algorithm of 1993

As in FIPS 180, for messages of whole bytes: the message is padded to whole blocks,
of which each one changes five words.  The schedule of a block is not rotated.

* `length_padded` — the padded message is whole blocks.
-/

namespace Dirtsand.Lib.Sha

open Reader (leBytes leValue length_leBytes)

/-- The five words. -/
structure State where
  a : UInt32
  b : UInt32
  c : UInt32
  d : UInt32
  e : UInt32
deriving DecidableEq

/-- The circular left shift. -/
def rotate (n x : UInt32) : UInt32 := (x <<< n) ||| (x >>> (32 - n))

/-- The function of step `t`. -/
def f (t : Nat) (b c d : UInt32) : UInt32 :=
  if t < 20 then (b &&& c) ||| (~~~b &&& d)
  else if t < 40 then b ^^^ c ^^^ d
  else if t < 60 then (b &&& c) ||| (b &&& d) ||| (c &&& d)
  else b ^^^ c ^^^ d

/-- The constant of step `t`. -/
def k (t : Nat) : UInt32 :=
  if t < 20 then 0x5A827999
  else if t < 40 then 0x6ED9EBA1
  else if t < 60 then 0x8F1BBCDC
  else 0xCA62C1D6

/-- The schedule of a block of sixteen words. -/
def w (m : Nat → UInt32) (t : Nat) : UInt32 :=
  if t < 16 then m t
  else w m (t - 3) ^^^ w m (t - 8) ^^^ w m (t - 14) ^^^ w m (t - 16)
termination_by t

def step (m : Nat → UInt32) (t : Nat) (s : State) : State where
  a := rotate 5 s.a + f t s.b s.c s.d + s.e + w m t + k t
  b := s.a
  c := rotate 30 s.b
  d := s.c
  e := s.d

def steps (m : Nat → UInt32) : Nat → State → State
  | 0, s => s
  | t + 1, s => step m t (steps m t s)

/-- The words after a block. -/
def compress (h : State) (m : Nat → UInt32) : State :=
  let s := steps m 80 h
  ⟨h.a + s.a, h.b + s.b, h.c + s.c, h.d + s.d, h.e + s.e⟩

def initial : State := ⟨0x67452301, 0xEFCDAB89, 0x98BADCFE, 0x10325476, 0xC3D2E1F0⟩

/-- How many bytes of zeros go before the length. -/
def zeros (length : Nat) : Nat := (119 - length % 64) % 64

/-- A one and zeros, and the length in bits. -/
def padded (message : List UInt8) : List UInt8 :=
  message ++ (0x80 :: List.replicate (zeros message.length) 0 ++
    (leBytes 8 (8 * message.length)).reverse)

/-- A word in a text, of four bytes of which the first one is the highest. -/
def word (text : List UInt8) (i : Nat) : UInt32 :=
  UInt32.ofNat (leValue ((text.drop (4 * i)).take 4).reverse)

/-- The words after so many blocks. -/
def chain (text : List UInt8) : Nat → State
  | 0 => initial
  | n + 1 => compress (chain text n) fun i => word text (16 * n + i)

def wordBytes (x : UInt32) : List UInt8 := (leBytes 4 x.toNat).reverse

def digest (message : List UInt8) : List UInt8 :=
  let s := chain (padded message) ((padded message).length / 64)
  wordBytes s.a ++ (wordBytes s.b ++ (wordBytes s.c ++ (wordBytes s.d ++ wordBytes s.e)))

theorem w_of_lt {m : Nat → UInt32} {t : Nat} (h : t < 16) : w m t = m t := by
  rw [w, if_pos h]

theorem w_of_le {m : Nat → UInt32} {t : Nat} (h : 16 ≤ t) :
    w m t = w m (t - 3) ^^^ w m (t - 8) ^^^ w m (t - 14) ^^^ w m (t - 16) := by
  rw [w, if_neg (not_lt.2 h)]

theorem length_padded (message : List UInt8) :
    (padded message).length = message.length + 1 + zeros message.length + 8 := by
  rw [padded, List.length_append, List.length_append, List.length_cons, List.length_replicate,
    List.length_reverse, length_leBytes]
  omega

/-- **The padded message is whole blocks**, and no more of them than it needs. -/
theorem length_padded_blocks (message : List UInt8) :
    (padded message).length % 64 = 0 ∧ (padded message).length < message.length + 9 + 64 := by
  rw [length_padded, zeros]
  omega

end Dirtsand.Lib.Sha
