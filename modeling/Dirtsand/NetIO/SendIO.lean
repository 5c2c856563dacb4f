import Mathlib.Data.List.Basic
import Mathlib.Tactic

/-!
# Sending to a socket

`DS::SendBuffer` and `DS::SendFile` (NetIO/SockIO.cpp).  The kernel takes as much
of what it is given as it likes.  A socket is the list of what its successive
`send` and `sendfile` calls answer, and what is sent is a list of bytes.

* `Sends` — a program sends these bytes, or a part of them from the beginning
  where the connection is lost.
* `Sends.bind` — what two programs send, one after the other.
* `sends_sendFile` — a buffer, and a part of a file behind it.
-/

namespace Dirtsand.NetIO

/-- What one call answers: it takes up to `n + 1` bytes, it is to be made again, or it
fails. -/
inductive Answer where
  | taken (n : Nat)
  | again
  | hangup
deriving DecidableEq, Repr

/-- The answers still to come.  Past the end of the list a call blocks. -/
abbrev Kernel := List Answer

/-- How a program that sends ends, with all that was sent.  `sockHup` is the exception
`DS::SockHup`. -/
inductive Sent (α : Type) where
  | done (a : α) (out : List UInt8) (rest : Kernel)
  | blocked (out : List UInt8)
  | sockHup (out : List UInt8)
deriving DecidableEq, Repr

/-- A program that sends, behind what was sent before. -/
def Send (α : Type) := List UInt8 → Kernel → Sent α

namespace Send

variable {α β : Type}

protected def pure (a : α) : Send α := fun out ks => .done a out ks

protected def bind (p : Send α) (f : α → Send β) : Send β := fun out ks =>
  match p out ks with
  | .done a out ks => f a out ks
  | .blocked out => .blocked out
  | .sockHup out => .sockHup out

instance : Monad Send where
  pure := Send.pure
  bind := Send.bind

end Send

/-- The loop over `send`.  Any error ends it. -/
def sendLoop : Kernel → List UInt8 → List UInt8 → Sent Unit
  | [], buffer, out => if buffer = [] then .done () out [] else .blocked out
  | a :: ks, buffer, out =>
    if buffer = [] then .done () out (a :: ks) else
    match a with
    | .taken n => sendLoop ks (buffer.drop (n + 1)) (out ++ buffer.take (n + 1))
    | .again | .hangup => .sockHup out

/-- `DS::SendBuffer`, of a buffer that is not empty. -/
def sendBuffer (buffer : List UInt8) : Send Unit := fun out ks => sendLoop ks buffer out

/-- The loop over `sendfile`, which reads at the offset and moves it by what it sends.  At
the end of the file it sends nothing. -/
def sendfileLoop (file : List UInt8) : Kernel → Nat → Nat → List UInt8 → Sent Nat
  | [], offset, fdsz, out => if fdsz = 0 then .done offset out [] else .blocked out
  | a :: ks, offset, fdsz, out =>
    if fdsz = 0 then .done offset out (a :: ks) else
    match a with
    | .taken n =>
      let bytes := (file.drop offset).take (min (n + 1) fdsz)
      if bytes = [] then .sockHup out
      else sendfileLoop file ks (offset + bytes.length) (fdsz - bytes.length) (out ++ bytes)
    | .again => sendfileLoop file ks offset fdsz out
    | .hangup => .sockHup out

/-- `DS::SendFile`: a buffer, and so many bytes of a file from the offset on. -/
def sendFile (buffer file : List UInt8) (offset fdsz : Nat) : Send Nat := do
  sendBuffer buffer
  fun out ks => sendfileLoop file ks offset fdsz out

/-! ## What is sent -/

/-- Every call takes something. -/
def Serves (ks : Kernel) : Prop := ∀ a ∈ ks, ∃ n, a = .taken n

theorem Serves.tail {a : Answer} {ks : Kernel} (h : Serves (a :: ks)) : Serves ks :=
  fun b hb => h b (List.mem_cons_of_mem a hb)

theorem Serves.suffix {ks rest : Kernel} (h : Serves ks) (hrest : rest <:+ ks) : Serves rest :=
  fun a ha => h a (hrest.subset ha)

/-- How the sending of some bytes ends: with all of them sent, or else with a part of them, and
then there are too few answers or one that takes nothing. -/
inductive Ends {α : Type} (bytes out : List UInt8) (ks : Kernel) (P : α → Prop) : Sent α → Prop
  | done {a : α} {rest : Kernel} (h : P a) (hrest : rest <:+ ks)
      (hused : Serves ks → ks.length ≤ rest.length + bytes.length) :
      Ends bytes out ks P (.done a (out ++ bytes) rest)
  | blocked {part : List UInt8} (hpart : part <+: bytes)
      (hshort : Serves ks → ks.length < bytes.length) : Ends bytes out ks P (.blocked (out ++ part))
  | sockHup {part : List UInt8} (hpart : part <+: bytes) (hfault : ¬ Serves ks) :
      Ends bytes out ks P (.sockHup (out ++ part))

/-- A program sends these bytes. -/
def Sends {α : Type} (p : Send α) (bytes : List UInt8) (P : α → Prop) : Prop :=
  ∀ out ks, Ends bytes out ks P (p out ks)

section

variable {α β : Type} {P : α → Prop} {Q : β → Prop} {bytes bytes' : List UInt8}

theorem Ends.nothing {a : α} (h : P a) (out : List UInt8) (ks : Kernel) :
    Ends [] out ks P (.done a out ks) := by
  have hdone : Ends [] out ks P (.done a (out ++ []) ks) := .done h List.suffix_rfl fun _ => le_rfl
  rw [List.append_nil] at hdone
  exact hdone

theorem Ends.stuck (h : bytes ≠ []) (out : List UInt8) : Ends bytes out [] P (.blocked out) := by
  have hblocked : Ends bytes out [] P (.blocked (out ++ [])) :=
    .blocked List.nil_prefix fun _ => List.length_pos_of_ne_nil h
  rw [List.append_nil] at hblocked
  exact hblocked

theorem Ends.lost {ks : Kernel} (h : ¬ Serves ks) (out : List UInt8) :
    Ends bytes out ks P (.sockHup out) := by
  have hhup : Ends bytes out ks P (.sockHup (out ++ [])) := .sockHup List.nil_prefix h
  rw [List.append_nil] at hhup
  exact hhup

theorem Sends.pure {a : α} (h : P a) : Sends (pure a) [] P := fun out ks => .nothing h out ks

/-- What follows on what was sent. -/
theorem Ends.after {out : List UInt8} {ks rest : Kernel} {r : Sent β}
    (h : Ends bytes' (out ++ bytes) rest Q r) (hrest : rest <:+ ks)
    (hused : Serves ks → ks.length ≤ rest.length + bytes.length) :
    Ends (bytes ++ bytes') out ks Q r := by
  cases h with
  | done hQ hrest' hused' =>
    rw [List.append_assoc]
    refine .done hQ (hrest'.trans hrest) fun hs => ?_
    have hfirst := hused hs
    have hthen := hused' (hs.suffix hrest)
    rw [List.length_append]
    omega
  | blocked hpart hshort =>
    rw [List.append_assoc]
    refine .blocked ((List.prefix_append_right_inj bytes).2 hpart) fun hs => ?_
    have hfirst := hused hs
    have hthen := hshort (hs.suffix hrest)
    rw [List.length_append]
    omega
  | sockHup hpart hfault =>
    rw [List.append_assoc]
    exact .sockHup ((List.prefix_append_right_inj bytes).2 hpart) fun hs => hfault (hs.suffix hrest)

/-- A call that takes something. -/
theorem Ends.taken {out : List UInt8} {ks : Kernel} {r : Sent α} {n : Nat} (hne : bytes ≠ [])
    (h : Ends bytes' (out ++ bytes) ks P r) : Ends (bytes ++ bytes') out (.taken n :: ks) P r := by
  refine h.after (List.suffix_cons _ ks) fun _ => ?_
  have hpos := List.length_pos_of_ne_nil hne
  rw [List.length_cons]
  omega

/-- A call that takes nothing. -/
theorem Ends.again {out : List UInt8} {ks : Kernel} {r : Sent α}
    (h : Ends bytes out ks P r) : Ends bytes out (.again :: ks) P r := by
  have hno : ¬ Serves (.again :: ks) := by
    intro hs
    obtain ⟨n, hn⟩ := hs _ List.mem_cons_self
    cases hn
  cases h with
  | done hP hrest hused => exact .done hP (hrest.trans (List.suffix_cons _ ks)) fun hs => absurd hs hno
  | blocked hpart hshort => exact .blocked hpart fun hs => absurd hs hno
  | sockHup hpart hfault => exact .sockHup hpart hno

/-- **One program after the other.** -/
theorem Sends.bind {p : Send α} {f : α → Send β} (hp : Sends p bytes P)
    (hf : ∀ a, P a → Sends (f a) bytes' Q) : Sends (p >>= f) (bytes ++ bytes') Q := by
  intro out ks
  have h := hp out ks
  show Ends _ _ _ _ (Send.bind p f out ks)
  unfold Send.bind
  cases hcase : p out ks with
  | done a out' rest =>
    rw [hcase] at h
    cases h with
    | done hP hrest hused => exact (hf a hP _ rest).after hrest hused
  | blocked out' =>
    rw [hcase] at h
    cases h with
    | blocked hpart hshort =>
      refine .blocked (hpart.trans (List.prefix_append bytes bytes')) fun hs => ?_
      have hless := hshort hs
      rw [List.length_append]
      omega
  | sockHup out' =>
    rw [hcase] at h
    cases h with
    | sockHup hpart hfault =>
      exact .sockHup (hpart.trans (List.prefix_append bytes bytes')) hfault

theorem Ends.mono {out : List UInt8} {ks : Kernel} {r : Sent α} {P' : α → Prop}
    (h : Ends bytes out ks P r) (hle : ∀ a, P a → P' a) : Ends bytes out ks P' r := by
  cases h with
  | done hP hrest hused => exact .done (hle _ hP) hrest hused
  | blocked hpart hshort => exact .blocked hpart hshort
  | sockHup hpart hfault => exact .sockHup hpart hfault

theorem Ends.value {out out' : List UInt8} {ks rest : Kernel} {a : α}
    (h : Ends bytes out ks P (.done a out' rest)) : P a := by
  cases h with
  | done hP hrest hused => exact hP

theorem Ends.sent {out out' : List UInt8} {ks rest : Kernel} {a : α}
    (h : Ends bytes out ks P (.done a out' rest)) : out' = out ++ bytes := by
  cases h with
  | done hP hrest hused => rfl

/-- **A kernel that takes something with each call gets all of it.** -/
theorem Sends.complete {p : Send α} (h : Sends p bytes P) (out : List UInt8) {ks : Kernel}
    (hserves : Serves ks) (hlen : bytes.length ≤ ks.length) :
    ∃ a rest, p out ks = .done a (out ++ bytes) rest ∧ P a := by
  have hends := h out ks
  cases hcase : p out ks with
  | done a out' rest =>
    rw [hcase] at hends
    cases hends with
    | done hP hrest hused => exact ⟨a, rest, rfl, hP⟩
  | blocked out' =>
    rw [hcase] at hends
    cases hends with
    | blocked hpart hshort => exact absurd (hshort hserves) (not_lt.2 hlen)
  | sockHup out' =>
    rw [hcase] at hends
    cases hends with
    | sockHup hpart hfault => exact absurd hserves hfault

end

/-! ## The loops -/

theorem not_serves {a : Answer} (ha : ∀ n, a ≠ .taken n) (ks : Kernel) : ¬ Serves (a :: ks) := by
  intro hs
  obtain ⟨n, hn⟩ := hs a List.mem_cons_self
  exact ha n hn

theorem ends_sendLoop (ks : Kernel) (buffer out : List UInt8) :
    Ends buffer out ks (fun _ => True) (sendLoop ks buffer out) := by
  induction ks generalizing buffer out with
  | nil =>
    rw [sendLoop]
    split
    · rename_i hnil
      subst hnil
      exact .nothing trivial out []
    · rename_i hne
      exact .stuck hne out
  | cons a ks ih =>
    by_cases hne : buffer = []
    · have hdone : sendLoop (a :: ks) buffer out = .done () out (a :: ks) := by
        rw [sendLoop.eq_def]
        exact if_pos hne
      rw [hdone, hne]
      exact .nothing trivial out (a :: ks)
    · cases a with
      | taken n =>
        rw [sendLoop, if_neg hne]
        have hsome : buffer.take (n + 1) ≠ [] := by
          rw [ne_eq, List.take_eq_nil_iff]
          exact fun h => h.elim (Nat.succ_ne_zero n) hne
        have htaken := (ih (buffer.drop (n + 1)) (out ++ buffer.take (n + 1))).taken (n := n) hsome
        rw [List.take_append_drop] at htaken
        exact htaken
      | again =>
        rw [sendLoop, if_neg hne]
        exact .lost (not_serves (fun n h => by cases h) ks) out
      | hangup =>
        rw [sendLoop, if_neg hne]
        exact .lost (not_serves (fun n h => by cases h) ks) out

theorem sends_sendBuffer (buffer : List UInt8) : Sends (sendBuffer buffer) buffer fun _ => True :=
  fun out ks => ends_sendLoop ks buffer out

theorem ends_sendfileLoop (file : List UInt8) (ks : Kernel) (offset : Nat) {fdsz : Nat}
    (hfile : offset + fdsz ≤ file.length) (out : List UInt8) :
    Ends ((file.drop offset).take fdsz) out ks (fun o => o = offset + fdsz)
      (sendfileLoop file ks offset fdsz out) := by
  induction ks generalizing offset fdsz out with
  | nil =>
    rw [sendfileLoop]
    split
    · rename_i hzero
      subst hzero
      rw [List.take_zero, Nat.add_zero]
      exact Ends.nothing (P := fun o => o = offset) rfl out []
    · rename_i hpos
      refine .stuck ?_ out
      rw [ne_eq, List.take_eq_nil_iff, List.drop_eq_nil_iff]
      omega
  | cons a ks ih =>
    by_cases hpos : fdsz = 0
    · have hdone : sendfileLoop file (a :: ks) offset fdsz out = .done offset out (a :: ks) := by
        rw [sendfileLoop.eq_def]
        exact if_pos hpos
      rw [hdone, hpos, List.take_zero, Nat.add_zero]
      exact Ends.nothing (P := fun o => o = offset) rfl out (a :: ks)
    · cases a with
      | taken n =>
        rw [sendfileLoop, if_neg hpos]
        set bytes := (file.drop offset).take (min (n + 1) fdsz) with hbytes
        have hlen : bytes.length = min (n + 1) fdsz := by
          rw [hbytes, List.length_take, List.length_drop]
          omega
        have hne : bytes ≠ [] := by
          intro hnil
          rw [hnil, List.length_nil] at hlen
          omega
        have hsplit : (file.drop offset).take fdsz =
            bytes ++ (file.drop (offset + bytes.length)).take (fdsz - bytes.length) := by
          rw [hlen, hbytes, ← List.drop_drop, ← List.take_add]
          congr 1
          omega
        have hleft : offset + bytes.length + (fdsz - bytes.length) ≤ file.length := by omega
        have hrest := ih (offset + bytes.length) hleft (out ++ bytes)
        have hend : offset + bytes.length + (fdsz - bytes.length) = offset + fdsz := by omega
        rw [hend] at hrest
        rw [hsplit]
        show Ends _ _ _ _ (if bytes = [] then _ else _)
        rw [if_neg hne]
        exact hrest.taken hne
      | again =>
        rw [sendfileLoop, if_neg hpos]
        exact (ih offset hfile out).again
      | hangup =>
        rw [sendfileLoop, if_neg hpos]
        exact .lost (not_serves (fun n h => by cases h) ks) out

/-- **A buffer, and a part of a file behind it.** -/
theorem sends_sendFile (buffer : List UInt8) {file : List UInt8} {offset fdsz : Nat}
    (hfile : offset + fdsz ≤ file.length) : Sends (sendFile buffer file offset fdsz)
      (buffer ++ (file.drop offset).take fdsz) fun o => o = offset + fdsz :=
  (sends_sendBuffer buffer).bind fun _ _ out ks => ends_sendfileLoop file ks offset hfile out

end Dirtsand.NetIO
