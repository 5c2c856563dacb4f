import Dirtsand.Lib.Transition
import Mathlib.Data.Nat.Init
import Mathlib.Data.List.Basic
import Mathlib.Order.Nat
import Mathlib.Tactic.Push

/-!
# The message channel

`DS::MsgChannel` (NetIO/MsgChannel.cpp): a queue under a mutex, and an event
semaphore that counts what is in it.  `putMessage` pushes first and increments
then; `getMessage` waits for the semaphore first and pops then, and any number
of threads may be between their two steps.  Whatever happens under the mutex,
or in one system call, is one step here.

* `Counted` — the semaphore, the calls of `putMessage` between their steps and
  those of `getMessage` between theirs add up to the length of the queue.
* `Counted.step` — every step of every thread keeps that, and what was pushed
  is what was returned followed by the queue.
* `delivers_once_in_order` — no `pop` finds the queue empty, the messages are
  returned in the order they were pushed, each by one `getMessage`, and where
  the threads go on and ask for messages, every one is returned.
* `refines_fifo` — seen from outside the channel is a queue whose `put` and
  `get` are single steps.
-/

namespace Dirtsand.NetIO

structure FifoMessage (π : Type) where
  messageType : Int32
  payload : Option π
deriving DecidableEq, Repr

/-- `none` for `semaphore` is the `-1` of a channel whose event semaphore was not made yet. -/
structure MsgChannel (π : Type) where
  semaphore : Option Nat := none
  queue : List (FifoMessage π) := []

namespace MsgChannel

variable {π : Type} (c : MsgChannel π)

/-- The largest value an event semaphore takes. -/
def eventfdMax : Nat := 0xFFFFFFFFFFFFFFFE

def value : Nat := c.semaphore.getD 0

/-- `fd()` makes the event semaphore where there is none. -/
def fd : MsgChannel π := { c with semaphore := some c.value }

def push (msg : FifoMessage π) : MsgChannel π := { c with queue := c.queue ++ [msg] }

/-- `eventfd_write(fd(), 1)`; it blocks where the value cannot grow. -/
def eventfdWrite : Option (MsgChannel π) :=
  if c.fd.value < eventfdMax then some { c.fd with semaphore := some (c.fd.value + 1) } else none

/-- `eventfd_read(fd(), &value)`; it blocks at zero. -/
def eventfdRead : Option (MsgChannel π) :=
  if 0 < c.fd.value then some { c.fd with semaphore := some (c.fd.value - 1) } else none

/-- `front()` and `pop()`; there is no `front()` of an empty queue. -/
def pop : Option (FifoMessage π) × MsgChannel π :=
  (c.queue.head?, { c with queue := c.queue.tail })

def hasMessage : Bool := !c.queue.isEmpty

@[simp] theorem fd_value : c.fd.value = c.value := rfl

@[simp] theorem fd_queue : c.fd.queue = c.queue := rfl

@[simp] theorem push_value (msg : FifoMessage π) : (c.push msg).value = c.value := rfl

@[simp] theorem push_queue (msg : FifoMessage π) : (c.push msg).queue = c.queue ++ [msg] := rfl

@[simp] theorem pop_value : c.pop.2.value = c.value := rfl

@[simp] theorem pop_queue : c.pop.2.queue = c.queue.tail := rfl

variable {c} {c' : MsgChannel π}

theorem eventfdWrite_spec (h : c.eventfdWrite = some c') :
    c'.value = c.value + 1 ∧ c'.queue = c.queue := by
  rw [eventfdWrite] at h
  split at h
  · cases h
    exact ⟨rfl, rfl⟩
  · cases h

theorem eventfdRead_spec (h : c.eventfdRead = some c') :
    c.value = c'.value + 1 ∧ c'.queue = c.queue := by
  rw [eventfdRead] at h
  split at h
  · rename_i hpos
    cases h
    refine ⟨?_, rfl⟩
    have hv : ({ c.fd with semaphore := some (c.fd.value - 1) } : MsgChannel π).value =
        c.value - 1 := rfl
    rw [fd_value] at hpos
    omega
  · cases h

end MsgChannel

/-! ## The threads -/

/-- A channel and the threads that use it: `putting` and `getting` are the
threads between the two steps of `putMessage` and of `getMessage`; `pushed` and
`returned` are what the calls pushed and returned so far, with their threads. -/
structure Threads (τ π : Type) where
  channel : MsgChannel π := {}
  putting : List τ := []
  getting : List τ := []
  pushed : List (τ × FifoMessage π) := []
  returned : List (τ × Option (FifoMessage π)) := []

inductive Act (τ π : Type) where
  | fd
  | push (t : τ) (msg : FifoMessage π)
  | post (t : τ)
  | wait (t : τ)
  | pop (t : τ)

namespace Threads

variable {τ π : Type} [DecidableEq τ]

/-- A thread makes one call at a time. -/
def idle (s : Threads τ π) (t : τ) : Bool := t ∉ s.putting ∧ t ∉ s.getting

def step (s : Threads τ π) : Act τ π → Option (Threads τ π)
  | .fd => some { s with channel := s.channel.fd }
  | .push t msg =>
    if s.idle t then
      some { s with
        channel := s.channel.push msg
        putting := t :: s.putting
        pushed := s.pushed ++ [(t, msg)] }
    else none
  | .post t =>
    if t ∈ s.putting then
      s.channel.eventfdWrite.map fun c => { s with channel := c, putting := s.putting.erase t }
    else none
  | .wait t =>
    if s.idle t then
      s.channel.eventfdRead.map fun c => { s with channel := c, getting := t :: s.getting }
    else none
  | .pop t =>
    if t ∈ s.getting then
      some { s with
        channel := s.channel.pop.2
        getting := s.getting.erase t
        returned := s.returned ++ [(t, s.channel.pop.1)] }
    else none

variable (τ π) in
def machine : Lib.Machine (Threads τ π) (Act τ π) where
  start s := s = {}
  step := step

variable {s s' : Threads τ π} {t : τ}

theorem step_push {msg : FifoMessage π} (h : s.step (.push t msg) = some s') :
    s.idle t ∧ s' = ⟨s.channel.push msg, t :: s.putting, s.getting, s.pushed ++ [(t, msg)],
      s.returned⟩ := by
  rw [step] at h
  split at h
  · rename_i hidle
    cases h
    exact ⟨hidle, rfl⟩
  · cases h

theorem step_post (h : s.step (.post t) = some s') :
    t ∈ s.putting ∧ ∃ c, s.channel.eventfdWrite = some c ∧
      s' = ⟨c, s.putting.erase t, s.getting, s.pushed, s.returned⟩ := by
  rw [step] at h
  split at h
  · rename_i ht
    obtain ⟨c, hc, rfl⟩ := Option.map_eq_some_iff.1 h
    exact ⟨ht, c, hc, rfl⟩
  · cases h

theorem step_wait (h : s.step (.wait t) = some s') :
    s.idle t ∧ ∃ c, s.channel.eventfdRead = some c ∧
      s' = ⟨c, s.putting, t :: s.getting, s.pushed, s.returned⟩ := by
  rw [step] at h
  split at h
  · rename_i hidle
    obtain ⟨c, hc, rfl⟩ := Option.map_eq_some_iff.1 h
    exact ⟨hidle, c, hc, rfl⟩
  · cases h

theorem step_pop (h : s.step (.pop t) = some s') :
    t ∈ s.getting ∧ s' = ⟨s.channel.pop.2, s.putting, s.getting.erase t, s.pushed,
      s.returned ++ [(t, s.channel.pop.1)]⟩ := by
  rw [step] at h
  split at h
  · rename_i ht
    cases h
    exact ⟨ht, rfl⟩
  · cases h

/-! ## The invariant -/

/-- The messages of the queue are those counted and those of the calls between
their steps; what was pushed is what was returned, and then the queue. -/
structure Counted (s : Threads τ π) : Prop where
  count : s.channel.value + s.putting.length + s.getting.length = s.channel.queue.length
  order : s.pushed.map (fun p => some p.2) =
    s.returned.map Prod.snd ++ s.channel.queue.map some

omit [DecidableEq τ] in
/-- Who is about to pop finds a message. -/
theorem Counted.exists_front (h : s.Counted) (ht : t ∈ s.getting) :
    ∃ msg rest, s.channel.queue = msg :: rest := by
  have hpos := List.length_pos_of_mem ht
  have hcount := h.count
  apply List.exists_cons_of_length_pos
  omega

omit [DecidableEq τ] in
theorem counted_start : ({} : Threads τ π).Counted := ⟨rfl, rfl⟩

theorem Counted.step {a : Act τ π} (h : s.Counted) (hs : s.step a = some s') : s'.Counted := by
  obtain ⟨hcount, horder⟩ := h
  cases a with
  | fd =>
    cases hs
    exact ⟨hcount, horder⟩
  | push t msg =>
    obtain ⟨-, rfl⟩ := step_push hs
    constructor
    · simp only [MsgChannel.push_value, MsgChannel.push_queue, List.length_cons,
        List.length_append, List.length_nil]
      omega
    · simp only [MsgChannel.push_queue, List.map_append, horder, List.append_assoc]
      rfl
  | post t =>
    obtain ⟨ht, c, hc, rfl⟩ := step_post hs
    obtain ⟨hvalue, hqueue⟩ := MsgChannel.eventfdWrite_spec hc
    have hpos := List.length_pos_of_mem ht
    constructor
    · simp only [hvalue, hqueue, List.length_erase_of_mem ht]
      omega
    · simp only [hqueue]
      exact horder
  | wait t =>
    obtain ⟨-, c, hc, rfl⟩ := step_wait hs
    obtain ⟨hvalue, hqueue⟩ := MsgChannel.eventfdRead_spec hc
    constructor
    · simp only [hqueue, List.length_cons]
      omega
    · simp only [hqueue]
      exact horder
  | pop t =>
    obtain ⟨ht, rfl⟩ := step_pop hs
    have hpos := List.length_pos_of_mem ht
    obtain ⟨msg, rest, hq⟩ := Counted.exists_front ⟨hcount, horder⟩ ht
    constructor
    · simp only [MsgChannel.pop_value, MsgChannel.pop_queue, List.length_tail,
        List.length_erase_of_mem ht]
      omega
    · simp only [horder, List.map_append, MsgChannel.pop, hq, List.append_assoc]
      rfl

theorem counted (h : (machine τ π).Reachable s) : s.Counted :=
  h.invariant (fun _ hs => by cases hs; exact counted_start) fun _ _ _ hi _ hs => hi.step hs

/-! ## The channel as one queue -/

/-- What a queue does at a step: a thread puts a message at its end, gets the one at its
front, or nothing happens to it. -/
inductive FifoStep : List (FifoMessage π) → List (FifoMessage π) → Prop where
  | put (q : List (FifoMessage π)) (msg : FifoMessage π) : FifoStep q (q ++ [msg])
  | get (q : List (FifoMessage π)) (msg : FifoMessage π) : FifoStep (msg :: q) q
  | skip (q : List (FifoMessage π)) : FifoStep q q

/-- **The channel is a queue whose `put` and `get` are single steps.** -/
theorem refines_fifo {a : Act τ π} (h : (machine τ π).Reachable s) (hs : s.step a = some s') :
    FifoStep s.channel.queue s'.channel.queue := by
  cases a with
  | fd =>
    cases hs
    exact .skip _
  | push t msg =>
    obtain ⟨-, rfl⟩ := step_push hs
    exact .put _ msg
  | post t =>
    obtain ⟨-, c, hc, rfl⟩ := step_post hs
    rw [(MsgChannel.eventfdWrite_spec hc).2]
    exact .skip _
  | wait t =>
    obtain ⟨-, c, hc, rfl⟩ := step_wait hs
    rw [(MsgChannel.eventfdRead_spec hc).2]
    exact .skip _
  | pop t =>
    obtain ⟨ht, rfl⟩ := step_pop hs
    obtain ⟨msg, rest, hq⟩ := (counted h).exists_front ht
    rw [MsgChannel.pop_queue, hq]
    exact .get rest msg

/-! ## Fair runs -/

/-- A run without end in which the threads go on: every call that took its first
step takes its second one, and the channel is not left for good with its
semaphore above zero and nobody calling `getMessage`. -/
structure FairRun (ρ : Nat → Threads τ π) (act : Nat → Option (Act τ π)) : Prop where
  start : ρ 0 = {}
  next : ∀ n, match act n with
    | some a => (ρ n).step a = some (ρ (n + 1))
    | none => ρ (n + 1) = ρ n
  puts : ∀ n, ∀ t ∈ (ρ n).putting, ∃ m, n ≤ m ∧ act m = some (.post t)
  gets : ∀ n, ∀ t ∈ (ρ n).getting, ∃ m, n ≤ m ∧ act m = some (.pop t)
  asks : ∀ n, ∃ m, n ≤ m ∧ ((ρ m).channel.value = 0 ∨ ∃ t, act m = some (.wait t))

variable {ρ : Nat → Threads τ π} {act : Nat → Option (Act τ π)}

theorem FairRun.step (h : FairRun ρ act) {n : Nat} {a : Act τ π} (ha : act n = some a) :
    (ρ n).step a = some (ρ (n + 1)) := by
  have hn := h.next n
  rwa [ha] at hn

theorem FairRun.reachable (h : FairRun ρ act) (n : Nat) : (machine τ π).Reachable (ρ n) := by
  induction n with
  | zero => exact .start h.start
  | succ n ih =>
    cases ha : act n with
    | none =>
      have hn := h.next n
      rw [ha] at hn
      rwa [hn]
    | some a => exact ih.step trivial (h.step ha)

/-- Only a `pop` adds to what was returned, and only a `wait` lowers the semaphore. -/
theorem step_other {a : Act τ π} (hs : s.step a = some s') :
    (s'.returned.length = s.returned.length ∨
      (∃ t, a = .pop t) ∧ s'.returned.length = s.returned.length + 1) ∧
    ((∃ t, a = .wait t) ∨ s.channel.value ≤ s'.channel.value) ∧
    ∃ log, s'.pushed = s.pushed ++ log := by
  cases a with
  | fd =>
    cases hs
    exact ⟨.inl rfl, .inr le_rfl, [], (List.append_nil _).symm⟩
  | push t msg =>
    obtain ⟨-, rfl⟩ := step_push hs
    exact ⟨.inl rfl, .inr le_rfl, _, rfl⟩
  | post t =>
    obtain ⟨-, c, hc, rfl⟩ := step_post hs
    have hvalue := (MsgChannel.eventfdWrite_spec hc).1
    refine ⟨.inl rfl, .inr ?_, [], (List.append_nil _).symm⟩
    simp only [hvalue]
    omega
  | wait t =>
    obtain ⟨-, c, hc, rfl⟩ := step_wait hs
    exact ⟨.inl rfl, .inl ⟨t, rfl⟩, [], (List.append_nil _).symm⟩
  | pop t =>
    obtain ⟨-, rfl⟩ := step_pop hs
    refine ⟨.inr ⟨⟨t, rfl⟩, ?_⟩, .inr le_rfl, [], (List.append_nil _).symm⟩
    rw [List.length_append, List.length_singleton]

namespace FairRun

variable (h : FairRun ρ act) {n m k : Nat}
include h

theorem returned_succ (n : Nat) : (ρ n).returned.length ≤ (ρ (n + 1)).returned.length := by
  cases ha : act n with
  | none =>
    have hn := h.next n
    rw [ha] at hn
    rw [hn]
  | some a =>
    obtain ⟨hret | ⟨-, hret⟩, -, -⟩ := step_other (h.step ha) <;> omega

theorem returned_mono (hm : n ≤ m) : (ρ n).returned.length ≤ (ρ m).returned.length := by
  induction m, hm using Nat.le_induction with
  | base => exact le_rfl
  | succ m _ ih => exact ih.trans (h.returned_succ m)

theorem pushed_mono (hm : n ≤ m) : ∃ log, (ρ m).pushed = (ρ n).pushed ++ log := by
  induction m, hm using Nat.le_induction with
  | base => exact ⟨[], (List.append_nil _).symm⟩
  | succ m _ ih =>
    obtain ⟨log, hlog⟩ := ih
    cases ha : act m with
    | none =>
      have hn := h.next m
      rw [ha] at hn
      exact ⟨log, by rw [hn, hlog]⟩
    | some a =>
      obtain ⟨-, -, log', hlog'⟩ := step_other (h.step ha)
      exact ⟨log ++ log', by rw [hlog', hlog, List.append_assoc]⟩

/-- While nobody is between the steps of `getMessage` the semaphore does not go down. -/
theorem value_mono (hno : ∀ j, n ≤ j → ∀ t, act j ≠ some (.wait t)) (hm : n ≤ m) :
    (ρ n).channel.value ≤ (ρ m).channel.value := by
  induction m, hm using Nat.le_induction with
  | base => exact le_rfl
  | succ m hm ih =>
    refine ih.trans ?_
    cases ha : act m with
    | none =>
      have hn := h.next m
      rw [ha] at hn
      rw [hn]
    | some a =>
      obtain ⟨-, ⟨t, rfl⟩ | hle, -⟩ := step_other (h.step ha)
      · exact absurd ha (hno m hm t)
      · exact hle

/-- A message in the queue is not left there: something is returned later on. -/
theorem returns_more (hk : (ρ n).returned.length < (ρ n).pushed.length) :
    ∃ m, n ≤ m ∧ (ρ n).returned.length < (ρ m).returned.length := by
  by_contra hcon
  push Not at hcon
  have hpop : ∀ m, n ≤ m → ∀ t, act m ≠ some (.pop t) := by
    intro m hm t ha
    obtain ⟨-, hs⟩ := step_pop (h.step ha)
    have hlen : (ρ (m + 1)).returned.length = (ρ m).returned.length + 1 := by
      rw [hs, List.length_append, List.length_singleton]
    have hle := h.returned_mono hm
    have hstop := hcon (m + 1) (hm.trans m.le_succ)
    omega
  have hget : ∀ m, n ≤ m → (ρ m).getting = [] := by
    intro m hm
    refine List.eq_nil_iff_forall_not_mem.2 fun t ht => ?_
    obtain ⟨j, hj, ha⟩ := h.gets m t ht
    exact hpop j (hm.trans hj) t ha
  have hwait : ∀ m, n ≤ m → ∀ t, act m ≠ some (.wait t) := by
    intro m hm t ha
    obtain ⟨-, c, -, hs⟩ := step_wait (h.step ha)
    have hnil := hget (m + 1) (hm.trans m.le_succ)
    rw [hs] at hnil
    cases hnil
  -- the message is counted by the semaphore, or by a `putMessage` that will post
  obtain ⟨m, hm, hpos⟩ : ∃ m, n ≤ m ∧ 0 < (ρ m).channel.value := by
    obtain ⟨hcount, horder⟩ := counted (h.reachable n)
    have hlen := congrArg List.length horder
    rw [List.length_append, List.length_map, List.length_map, List.length_map] at hlen
    rw [hget n le_rfl, List.length_nil] at hcount
    by_cases hv : 0 < (ρ n).channel.value
    · exact ⟨n, le_rfl, hv⟩
    · obtain ⟨t, ht⟩ : ∃ t, t ∈ (ρ n).putting := by
        apply List.exists_mem_of_length_pos
        omega
      obtain ⟨m, hm, ha⟩ := h.puts n t ht
      obtain ⟨-, c, hc, hs⟩ := step_post (h.step ha)
      refine ⟨m + 1, hm.trans m.le_succ, ?_⟩
      rw [hs]
      simp only [(MsgChannel.eventfdWrite_spec hc).1]
      omega
  obtain ⟨j, hj, hzero | ⟨t, ha⟩⟩ := h.asks m
  · have hle := h.value_mono (fun i hi => hwait i (hm.trans hi)) hj
    omega
  · exact hwait j (hm.trans hj) t ha

/-- Every message is returned at last. -/
theorem returns (hk : k < (ρ n).pushed.length) : ∃ m, n ≤ m ∧ k < (ρ m).returned.length := by
  by_contra hcon
  push Not at hcon
  -- one more message is returned again and again
  have hmany : ∀ d, ∃ m, n ≤ m ∧ d ≤ (ρ m).returned.length := by
    intro d
    induction d with
    | zero => exact ⟨n, le_rfl, Nat.zero_le _⟩
    | succ d ih =>
      obtain ⟨m, hm, hd⟩ := ih
      have hstop := hcon m hm
      obtain ⟨log, hlog⟩ := h.pushed_mono hm
      have hmore : (ρ m).returned.length < (ρ m).pushed.length := by
        rw [hlog, List.length_append]
        omega
      obtain ⟨j, hj, hlt⟩ := h.returns_more hmore
      exact ⟨j, hm.trans hj, by omega⟩
  obtain ⟨m, hm, hd⟩ := hmany (k + 1)
  have hstop := hcon m hm
  omega

end FairRun

/-! ## Delivery -/

/-- **The channel delivers every message once and in order.**  In every state
the threads reach, however many they are and however they take turns, the
semaphore and the calls about to pop do not exceed the queue, no `pop` finds it
empty, and the n-th message pushed is returned by the n-th `pop` or still
waits in the queue.  In a run where the threads go on and ask for messages, it
is returned. -/
theorem delivers_once_in_order :
    (∀ s, (machine τ π).Reachable s →
      s.channel.value + s.getting.length ≤ s.channel.queue.length ∧
      (∀ t ∈ s.getting, s.channel.queue ≠ []) ∧ (∀ p ∈ s.returned, p.2 ≠ none) ∧
      s.pushed.map (fun p => some p.2) =
        s.returned.map Prod.snd ++ s.channel.queue.map some) ∧
    ∀ ρ act, FairRun (τ := τ) (π := π) ρ act → ∀ n k, (hk : k < (ρ n).pushed.length) →
      ∃ m, n ≤ m ∧ ∃ t, (ρ m).returned[k]? = some (t, some (ρ n).pushed[k].2) := by
  constructor
  · intro s hs
    have hc := counted hs
    refine ⟨?_, ?_, ?_, hc.order⟩
    · have hcount := hc.count
      omega
    · intro t ht
      obtain ⟨msg, rest, hq⟩ := hc.exists_front ht
      rw [hq]
      exact List.cons_ne_nil msg rest
    · intro p hp hnone
      have hmem : none ∈ s.pushed.map fun p => some p.2 := by
        rw [hc.order]
        exact List.mem_append_left _ (List.mem_map.2 ⟨p, hp, hnone⟩)
      obtain ⟨q, -, hq⟩ := List.mem_map.1 hmem
      cases hq
  · intro ρ act h n k hk
    obtain ⟨m, hm, hret⟩ := h.returns hk
    obtain ⟨log, hlog⟩ := h.pushed_mono hm
    have horder := (counted (h.reachable m)).order
    rw [hlog, List.map_append] at horder
    have hpushed : k < ((ρ n).pushed.map fun p => some p.2).length := by rwa [List.length_map]
    have hreturned : k < ((ρ m).returned.map Prod.snd).length := by rwa [List.length_map]
    have hget := congrArg (fun l => l[k]?) horder
    simp only [List.getElem?_append_left hpushed, List.getElem?_append_left hreturned,
      List.getElem?_map, List.getElem?_eq_getElem hk, List.getElem?_eq_getElem hret,
      Option.map_some, Option.some.injEq] at hget
    refine ⟨m, hm, (ρ m).returned[k].1, ?_⟩
    rw [List.getElem?_eq_getElem hret, hget]

/-- Two threads put messages and two get them, each pair in turns, and nothing more happens. -/
def handOver : Nat → Option (Act Nat Unit)
  | 0 => some (.push 0 ⟨1, none⟩)
  | 1 => some (.push 2 ⟨2, none⟩)
  | 2 => some (.post 2)
  | 3 => some (.wait 1)
  | 4 => some (.post 0)
  | 5 => some (.wait 3)
  | 6 => some (.pop 3)
  | 7 => some (.pop 1)
  | _ => none

def handOverState : Nat → Threads Nat Unit
  | 0 => {}
  | n + 1 => match handOver n with
    | some a => ((handOverState n).step a).getD {}
    | none => handOverState n

theorem handOverState_end (n : Nat) : handOverState (n + 8) = handOverState 8 := by
  induction n with
  | zero => rfl
  | succ n ih => exact ih

theorem handOver_fair : FairRun handOverState handOver := by
  have hputting : ∀ n < 8, ∀ t ∈ (handOverState n).putting,
      t = 2 ∧ n ≤ 2 ∨ t = 0 ∧ n ≤ 4 := by decide
  have hgetting : ∀ n < 8, ∀ t ∈ (handOverState n).getting,
      t = 3 ∧ n ≤ 6 ∨ t = 1 ∧ n ≤ 7 := by decide
  -- from the eighth state on nobody is between two steps
  have hend (n : Nat) (hn : ¬n < 8) : handOverState n = handOverState 8 := by
    rw [← Nat.sub_add_cancel (not_lt.1 hn), handOverState_end]
  refine ⟨rfl, ?_, ?_, ?_, ?_⟩
  · intro n
    obtain _ | _ | _ | _ | _ | _ | _ | _ | n := n <;> rfl
  · intro n t ht
    by_cases hn : n < 8
    · obtain ⟨rfl, hle⟩ | ⟨rfl, hle⟩ := hputting n hn t ht
      · exact ⟨2, hle, rfl⟩
      · exact ⟨4, hle, rfl⟩
    · rw [hend n hn] at ht
      cases ht
  · intro n t ht
    by_cases hn : n < 8
    · obtain ⟨rfl, hle⟩ | ⟨rfl, hle⟩ := hgetting n hn t ht
      · exact ⟨6, hle, rfl⟩
      · exact ⟨7, hle, rfl⟩
    · rw [hend n hn] at ht
      cases ht
  · intro n
    refine ⟨n + 8, Nat.le_add_right n 8, .inl ?_⟩
    rw [handOverState_end]
    rfl

theorem delivers_hand_over :
    (handOverState 4).channel.value + (handOverState 4).getting.length ≤
      (handOverState 4).channel.queue.length ∧
    (∃ m, 2 ≤ m ∧ ∃ t, (handOverState m).returned[0]? = some (t, some ⟨1, none⟩)) ∧
    ∃ m, 2 ≤ m ∧ ∃ t, (handOverState m).returned[1]? = some (t, some ⟨2, none⟩) :=
  ⟨(delivers_once_in_order.1 _ (handOver_fair.reachable 4)).1,
    delivers_once_in_order.2 handOverState handOver handOver_fair 2 0 (by decide),
    delivers_once_in_order.2 handOverState handOver handOver_fair 2 1 (by decide)⟩

end Threads

end Dirtsand.NetIO
