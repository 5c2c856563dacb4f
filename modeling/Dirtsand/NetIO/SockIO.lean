import Mathlib.Data.List.Basic
import Mathlib.Tactic.Common

/-!
# Receiving from a socket

`recvBuffer` is `DS::RecvBuffer` (NetIO/SockIO.cpp): it calls `recv` until the
buffer is full, retries when a signal interrupts the call, and throws `SockHup`
on any other error and on an orderly close.  A socket is the list of what its
successive `recv` calls find, so one client stream has many sockets, one for
each way the network can cut it up.

The buffer has a capacity of its own, beside the size the caller asks for.  A
`recv` that stores past the capacity ends the run in `overrun`: nothing that
the C++ does after it is defined.

* `recvBuffer_stream` — a receive depends only on the bytes of the stream and
  on whether the stream ends in a hang-up, never on how it was cut up.
* `Refines.bind` — so the same holds of every program made of receives.
-/

namespace Dirtsand.NetIO

/-- What one call of `recv` finds: at least one byte, an `EINTR`, or a socket
that is closed or broken. -/
inductive Arrival where
  | segment (head : UInt8) (tail : List UInt8)
  | interrupted
  | hangup
deriving DecidableEq, Repr

/-- The arrivals still to come.  Past the end of the list nothing arrives any
more, and `recv` blocks. -/
abbrev Socket := List Arrival

/-- What the client sent, without the cuts: its bytes, and whether it hung up
after them. -/
structure Stream where
  bytes : List UInt8
  hup : Bool
deriving DecidableEq, Repr

def Socket.stream : Socket → Stream
  | [] => ⟨[], false⟩
  | .interrupted :: s => Socket.stream s
  | .hangup :: _ => ⟨[], true⟩
  | .segment b bs :: s => ⟨b :: bs ++ (Socket.stream s).bytes, (Socket.stream s).hup⟩

/-- How a program that receives ends.  `sockHup` and `invalidHeader` are the
exceptions `DS::SockHup` and `DS::InvalidConnectionHeader`. -/
inductive Result (σ α : Type) where
  | ok (a : α) (rest : σ)
  | blocked
  | sockHup
  | invalidHeader
  | overrun
deriving DecidableEq, Repr

/-- A program that receives from a source of type `σ`. -/
def Recv (σ α : Type) := σ → Result σ α

namespace Recv

variable {σ α β : Type}

protected def pure (a : α) : Recv σ α := fun s => .ok a s

protected def bind (p : Recv σ α) (f : α → Recv σ β) : Recv σ β := fun s =>
  match p s with
  | .ok a s' => f a s'
  | .blocked => .blocked
  | .sockHup => .sockHup
  | .invalidHeader => .invalidHeader
  | .overrun => .overrun

instance : Monad (Recv σ) where
  pure := Recv.pure
  bind := Recv.bind

/-- `throw DS::InvalidConnectionHeader()`. -/
def throwInvalidHeader : Recv σ α := fun _ => .invalidHeader

theorem pure_apply (a : α) (s : σ) : (pure a : Recv σ α) s = .ok a s := rfl

theorem bind_apply (p : Recv σ α) (f : α → Recv σ β) (s : σ) :
    (p >>= f) s = match p s with
      | .ok a s' => f a s'
      | .blocked => .blocked
      | .sockHup => .sockHup
      | .invalidHeader => .invalidHeader
      | .overrun => .overrun := rfl

end Recv

/-- The loop of `RecvBuffer`, with the bytes stored so far. -/
def recvLoop (cap : Nat) (got : List UInt8) (size : Nat) : Recv Socket (List UInt8)
  | [] => if size = 0 then .ok got [] else .blocked
  | a :: s =>
    if size = 0 then .ok got (a :: s) else
    match a with
    | .interrupted => recvLoop cap got size s
    | .hangup => .sockHup
    | .segment b bs =>
      let bytes := (b :: bs).take size
      if cap < got.length + bytes.length then .overrun else
      match (b :: bs).drop size with
      | [] => recvLoop cap (got ++ bytes) (size - bytes.length) s
      | b' :: bs' => .ok (got ++ bytes) (.segment b' bs' :: s)

/-- `DS::RecvBuffer(sock, buffer, size)`, with a buffer of `cap` bytes. -/
def recvBuffer (cap size : Nat) : Recv Socket (List UInt8) :=
  recvLoop cap [] size

/-- What receiving `size` bytes into a buffer of `cap` bytes comes to, read off
the stream at once. -/
def recvStream (cap size : Nat) : Recv Stream (List UInt8) := fun s =>
  if cap < min size s.bytes.length then .overrun
  else if size ≤ s.bytes.length then .ok (s.bytes.take size) ⟨s.bytes.drop size, s.hup⟩
  else if s.hup then .sockHup else .blocked

/-! ## A receive does not see how the stream was cut up -/

/-- A result over sockets and one over streams say the same. -/
def Result.toStream {α : Type} : Result Socket α → Result Stream α
  | .ok a s => .ok a s.stream
  | .blocked => .blocked
  | .sockHup => .sockHup
  | .invalidHeader => .invalidHeader
  | .overrun => .overrun

/-- `p` on a socket does what `q` does on the stream the socket delivers. -/
def Refines {α : Type} (p : Recv Socket α) (q : Recv Stream α) : Prop :=
  ∀ s, (p s).toStream = q s.stream

theorem Refines.pure {α : Type} (a : α) : Refines (pure a) (pure a) :=
  fun _ => rfl

theorem Refines.throwInvalidHeader {α : Type} :
    Refines (α := α) Recv.throwInvalidHeader Recv.throwInvalidHeader :=
  fun _ => rfl

/-- **Refinement composes.**  A program made of receives sees the stream only. -/
theorem Refines.bind {α β : Type} {p : Recv Socket α} {q : Recv Stream α}
    {f : α → Recv Socket β} {g : α → Recv Stream β}
    (hp : Refines p q) (hf : ∀ a, Refines (f a) (g a)) : Refines (p >>= f) (q >>= g) := by
  intro s
  have h := hp s
  rw [Recv.bind_apply, Recv.bind_apply, ← h]
  cases p s with
  | ok a s' => exact hf a s'
  | blocked => rfl
  | sockHup => rfl
  | invalidHeader => rfl
  | overrun => rfl

theorem Refines.ite {α : Type} {c : Prop} [Decidable c] {p p' : Recv Socket α}
    {q q' : Recv Stream α} (h : Refines p q) (h' : Refines p' q') :
    Refines (if c then p else p') (if c then q else q') := by
  split
  · exact h
  · exact h'

/-- The stream seen from the middle of the loop: `got` is stored, `size` bytes
are still wanted. -/
def recvStreamFrom (cap : Nat) (got : List UInt8) (size : Nat) : Recv Stream (List UInt8) :=
  fun s =>
    if cap < got.length + min size s.bytes.length then .overrun
    else if size ≤ s.bytes.length then
      .ok (got ++ s.bytes.take size) ⟨s.bytes.drop size, s.hup⟩
    else if s.hup then .sockHup else .blocked

theorem recvStreamFrom_nil (cap size : Nat) : recvStreamFrom cap [] size = recvStream cap size := by
  funext s
  simp only [recvStreamFrom, recvStream, List.length_nil, Nat.zero_add, List.nil_append]

theorem recvStreamFrom_zero {cap : Nat} {got : List UInt8} (h : got.length ≤ cap) (s : Stream) :
    recvStreamFrom cap got 0 s = .ok got s := by
  have hcap : ¬ cap < got.length := by omega
  simp [recvStreamFrom, hcap]

/-- A segment shorter than what is wanted goes to the buffer whole. -/
theorem recvStreamFrom_append {cap size : Nat} {got bs : List UInt8} {s : Stream}
    (hbs : bs.length ≤ size) :
    recvStreamFrom cap got size ⟨bs ++ s.bytes, s.hup⟩ =
      recvStreamFrom cap (got ++ bs) (size - bs.length) s := by
  have hmin : got.length + min size (bs ++ s.bytes).length =
      (got ++ bs).length + min (size - bs.length) s.bytes.length := by
    simp only [List.length_append]; omega
  have hle : (size ≤ (bs ++ s.bytes).length) = (size - bs.length ≤ s.bytes.length) := by
    simp only [List.length_append, eq_iff_iff]; omega
  have htake : got ++ (bs ++ s.bytes).take size =
      got ++ bs ++ s.bytes.take (size - bs.length) := by
    rw [List.take_append, List.take_of_length_le hbs, List.append_assoc]
  have hdrop : (bs ++ s.bytes).drop size = s.bytes.drop (size - bs.length) := by
    rw [List.drop_append, List.drop_eq_nil_of_le hbs, List.nil_append]
  simp only [recvStreamFrom, hmin, hle, htake, hdrop]

/-- A segment that holds all that is wanted ends the loop. -/
theorem recvStreamFrom_full {cap size : Nat} {got bs : List UInt8} {s : Stream}
    (hbs : size ≤ bs.length) (hcap : got.length + size ≤ cap) :
    recvStreamFrom cap got size ⟨bs ++ s.bytes, s.hup⟩ =
      .ok (got ++ bs.take size) ⟨bs.drop size ++ s.bytes, s.hup⟩ := by
  have hlen : size ≤ (bs ++ s.bytes).length := by simp only [List.length_append]; omega
  have hno : ¬ cap < got.length + min size (bs ++ s.bytes).length := by omega
  simp only [recvStreamFrom, if_neg hno, if_pos hlen, List.take_append_of_le_length hbs,
    List.drop_append_of_le_length hbs]

theorem recvLoop_stream {cap : Nat} (s : Socket) : ∀ (got : List UInt8) (size : Nat),
    got.length ≤ cap →
      (recvLoop cap got size s).toStream = recvStreamFrom cap got size s.stream := by
  induction s with
  | nil =>
    intro got size hcap
    by_cases h0 : size = 0
    · subst h0; rw [recvStreamFrom_zero hcap]; simp [recvLoop, Result.toStream]
    · have hno : ¬ cap < got.length := by omega
      simp [recvLoop, h0, Result.toStream, recvStreamFrom, Socket.stream, hno]
  | cons a s ih =>
    intro got size hcap
    by_cases h0 : size = 0
    · subst h0; rw [recvStreamFrom_zero hcap]; simp [recvLoop, Result.toStream]
    cases a with
    | interrupted =>
      simp only [recvLoop, if_neg h0, Socket.stream]
      exact ih got size hcap
    | hangup =>
      have hno : ¬ cap < got.length := by omega
      simp [recvLoop, h0, Result.toStream, recvStreamFrom, Socket.stream, hno]
    | segment b bs =>
      simp only [recvLoop, if_neg h0, Socket.stream]
      by_cases hover : cap < got.length + ((b :: bs).take size).length
      · have hmin : cap < got.length + min size ((b :: bs) ++ (Socket.stream s).bytes).length := by
          simp only [List.length_take, List.length_append] at hover ⊢; omega
        rw [if_pos hover]
        simp only [Result.toStream, recvStreamFrom, if_pos hmin]
      · rw [if_neg hover]
        cases hdrop : (b :: bs).drop size with
        | nil =>
          have hle : (b :: bs).length ≤ size := List.drop_eq_nil_iff.1 hdrop
          have htake : (b :: bs).take size = b :: bs := List.take_of_length_le hle
          rw [htake] at hover ⊢
          rw [recvStreamFrom_append hle]
          exact ih _ _ (by simp only [List.length_append]; omega)
        | cons b' bs' =>
          have hlt : size ≤ (b :: bs).length := by
            by_contra hge
            rw [List.drop_eq_nil_of_le (by omega)] at hdrop
            cases hdrop
          rw [List.length_take, Nat.min_eq_left hlt] at hover
          rw [recvStreamFrom_full hlt (by omega), hdrop]
          rfl

/-- **`RecvBuffer` depends on the stream only.**  However the network cuts the
stream up and whichever calls a signal interrupts, the buffer ends up with the
same bytes, or the receive ends the same way. -/
theorem recvBuffer_stream (cap size : Nat) :
    Refines (recvBuffer cap size) (recvStream cap size) := by
  intro s
  rw [← recvStreamFrom_nil]
  exact recvLoop_stream s [] size (Nat.zero_le cap)

end Dirtsand.NetIO
