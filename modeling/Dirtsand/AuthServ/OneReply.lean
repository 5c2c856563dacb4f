import Dirtsand.AuthServ.AnswersOnce
import Dirtsand.Lib.Transition

/-!
# Requests and replies on the auth channel

The workers, the game hosts and the console on one side, and the auth daemon on
the other.  A worker puts a request on the auth channel and then waits on its
own channel; the daemon handles the requests one by one, in their order.  The
requests are numbered, and each reply remembers the request it was made for.

* `replies_once` — **the daemon replies once to a request exactly if the database
  answers well and it does not write through a null pointer; and in a run where
  that is so, every waiting worker has one request or one reply under way, and
  reads no other reply than its own.**
* `createPlayer_repliesTwice`, `findAge_repliesNever` — where it does not.
-/

namespace Dirtsand.AuthServ.Daemon

open Lib.Prog

/-! ## One request -/

/-- What the daemon does with a request. -/
def handled (ext : External) (s : DaemonState) (c : ConnId) (msg : AuthMessage)
    (answers : Nat → QueryOutcome) :
    Lib.Exit Unit × Lib.Dialogue DaemonState (CallSite × Statement) QueryOutcome Reply :=
  dmAuthDaemon ext c msg { state := s, answers }

/-- The daemon is still there, and has put one reply. -/
def RepliesOnce (ext : External) (s : DaemonState) (c : ConnId) (msg : AuthMessage)
    (answers : Nat → QueryOutcome) : Prop :=
  (handled ext s c msg answers).1 = .ret () ∧
    (handled ext s c msg answers).2.replies.length = 1

/-- The answers that come while a request is handled are good, and no null
pointer is written to. -/
def AnsweredWell (ext : External) (s : DaemonState) (c : ConnId) (msg : AuthMessage)
    (answers : Nat → QueryOutcome) : Prop :=
  Good ext (handled ext s c msg answers).2.asked ∧ ¬WritesNull ext s msg

theorem catchReply_asked (r : Reply) (m : DM Unit)
    (w : Lib.Dialogue DaemonState (CallSite × Statement) QueryOutcome Reply) :
    (m.catchReply r w).2.asked = (m w).2.asked := by
  unfold catchReply
  cases hm : m w with
  | mk exit w' => cases exit <;> rfl

theorem repliesOnce_iff (ext : External) (s : DaemonState) (c : ConnId) (msg : AuthMessage)
    (answers : Nat → QueryOutcome) :
    RepliesOnce ext s c msg answers ↔ AnsweredWell ext s c msg answers := by
  obtain ⟨new, hasked, honce⟩ := @dmAuthHandle_repliedOnce ext c msg { state := s, answers }
  rw [catchReply_repliedOnce { code := .internalError }] at honce
  have hnew : (handled ext s c msg answers).2.asked = new := (catchReply_asked ..).trans hasked
  rw [AnsweredWell, hnew]
  exact honce.symm

/-! ## The system -/

structure Request where
  number : Nat
  client : ConnId
  msg : AuthMessage
deriving DecidableEq, Repr

/-- `read` is the history of the replies that were read: the request that the
worker waited for, and the one that the reply was made for. -/
structure ReplyState where
  daemon : DaemonState
  ended : Bool := false
  queue : List Request := []
  channel : ConnId → List (Nat × Reply) := fun _ => []
  waiting : ConnId → Option Nat := fun _ => none
  next : Nat := 0
  read : List (Nat × Nat) := []

inductive ReplyEvent where
  /-- A worker puts a request on the auth channel. -/
  | request (c : ConnId) (msg : AuthMessage)
  /-- The daemon handles the next request. -/
  | handle (answers : Nat → QueryOutcome)
  /-- A worker gets a message from its channel. -/
  | read (c : ConnId)
  /-- Another thread, or a message without a client, changes what the daemon
  reads. -/
  | share (daemon : DaemonState)

/-- Nothing happens once the process has ended. -/
def replyStep (ext : External) (s : ReplyState) : ReplyEvent → Option ReplyState
  | .request c msg =>
    if s.ended ∨ s.waiting c ≠ none then none
    else some { s with
      queue := s.queue ++ [{ number := s.next, client := c, msg }]
      waiting := fun c' => if c' = c then some s.next else s.waiting c'
      next := s.next + 1 }
  | .handle answers =>
    match s.queue with
    | [] => none
    | r :: rest =>
      let out := handled ext s.daemon r.client r.msg answers
      if s.ended then none
      else some { s with
        daemon := out.2.state
        ended := match out.1 with
          | .crash => true
          | _ => false
        queue := rest
        channel := fun c => if c = r.client then
            s.channel c ++ out.2.replies.map fun reply => (r.number, reply)
          else s.channel c }
  | .read c =>
    match s.waiting c, s.channel c with
    | some n, (m, _) :: rest =>
      if s.ended then none
      else some { s with
        channel := fun c' => if c' = c then rest else s.channel c'
        waiting := fun c' => if c' = c then none else s.waiting c'
        read := s.read ++ [(n, m)] }
    | _, _ => none
  | .share daemon => if s.ended then none else some { s with daemon }

def replyMachine (ext : External) : Lib.Machine ReplyState ReplyEvent where
  start s := ∃ daemon, s = { daemon }
  step := replyStep ext

/-- The request that is handled is answered well. -/
def HandledWell (ext : External) (s : ReplyState) : ReplyEvent → Prop
  | .handle answers => ∀ r rest, s.queue = r :: rest →
      AnsweredWell ext s.daemon r.client r.msg answers
  | _ => True

/-- The requests of a client that are still to be handled, and then those whose
replies it has not read. -/
def ReplyState.underway (s : ReplyState) (c : ConnId) : List Nat :=
  ((s.queue.filter (·.client = c)).map (·.number)) ++ (s.channel c).map (·.1)

/-- The process runs, a worker that waits has one request or one reply under way
and it is that which it waits for, nothing is under way to the others, and all
that was read was for the request it was read for. -/
structure ReplySafe (s : ReplyState) : Prop where
  running : s.ended = false
  underway : ∀ c, s.underway c = (s.waiting c).toList
  read : ∀ p ∈ s.read, p.1 = p.2

variable {ext : External} {s s' : ReplyState}

/-- Nothing is under way to a client that does not wait. -/
theorem ReplySafe.idle (h : ReplySafe s) {c : ConnId} (hwait : s.waiting c = none) :
    s.queue.filter (·.client = c) = [] ∧ s.channel c = [] := by
  have hund := h.underway c
  rw [hwait, Option.toList_none, ReplyState.underway, List.append_eq_nil_iff] at hund
  exact ⟨List.map_eq_nil_iff.1 hund.1, List.map_eq_nil_iff.1 hund.2⟩

/-- The client of the next request waits for it, and has no other one. -/
theorem ReplySafe.head (h : ReplySafe s) {r : Request} {rest : List Request}
    (hq : s.queue = r :: rest) : s.waiting r.client = some r.number ∧
      rest.filter (·.client = r.client) = [] ∧ s.channel r.client = [] := by
  have hund := h.underway r.client
  rw [ReplyState.underway, hq, List.filter_cons_of_pos (by simp), List.map_cons,
    List.cons_append] at hund
  cases hwait : s.waiting r.client with
  | none => simp [hwait] at hund
  | some n =>
    rw [hwait, Option.toList_some, List.cons.injEq, List.append_eq_nil_iff] at hund
    obtain ⟨rfl, hrest, hchan⟩ := hund
    exact ⟨rfl, List.map_eq_nil_iff.1 hrest, List.map_eq_nil_iff.1 hchan⟩

/-- A worker that waits reads its own reply, and then nothing is under way to it. -/
theorem ReplySafe.front (h : ReplySafe s) {c : ConnId} {n m : Nat} {reply : Reply}
    {rest : List (Nat × Reply)} (hwait : s.waiting c = some n)
    (hchan : s.channel c = (m, reply) :: rest) :
    m = n ∧ s.queue.filter (·.client = c) = [] ∧ rest = [] := by
  have hund := h.underway c
  rw [ReplyState.underway, hchan, hwait, Option.toList_some, List.map_cons] at hund
  obtain ⟨hq, hm⟩ | ⟨hq, hm⟩ := List.append_eq_singleton_iff.1 hund
  · rw [List.cons.injEq, List.map_eq_nil_iff] at hm
    exact ⟨hm.1, List.map_eq_nil_iff.1 hq, hm.2⟩
  · cases hm

/-- What the daemon does with the next request, where it is answered well. -/
theorem handle_step {answers : Nat → QueryOutcome} {r : Request} {rest : List Request}
    (h : ReplySafe s) (hq : s.queue = r :: rest)
    (hwell : AnsweredWell ext s.daemon r.client r.msg answers) :
    ∃ daemon reply, replyStep ext s (.handle answers) = some { s with
      daemon, queue := rest
      channel := fun c => if c = r.client then [(r.number, reply)] else s.channel c } := by
  obtain ⟨hexit, hlen⟩ := (repliesOnce_iff ..).2 hwell
  obtain ⟨reply, hreply⟩ := List.length_eq_one_iff.1 hlen
  refine ⟨(handled ext s.daemon r.client r.msg answers).2.state, reply, ?_⟩
  simp only [replyStep, hq, hexit, hreply, h.running, Bool.false_eq_true, if_false,
    List.map_cons, List.map_nil, Option.some.injEq, ReplyState.mk.injEq, true_and, and_true]
  refine funext fun c => ?_
  split
  · rename_i hc
    rw [hc, (h.head hq).2.2, List.nil_append]
  · rfl

theorem ReplySafe.request {c : ConnId} {msg : AuthMessage} (h : ReplySafe s)
    (hs : replyStep ext s (.request c msg) = some s') : ReplySafe s' := by
  simp only [replyStep, ite_eq_iff, reduceCtorEq, and_false, false_or, not_or, not_not,
    Option.some.injEq] at hs
  obtain ⟨⟨hrun, hwait⟩, rfl⟩ := hs
  refine ⟨h.running, fun c' => ?_, h.read⟩
  by_cases hc : c' = c
  · subst hc
    obtain ⟨hq, hchan⟩ := h.idle hwait
    simp [ReplyState.underway, List.filter_append, hq, hchan]
  · have hund := h.underway c'
    simpa [ReplyState.underway, List.filter_append, hc, Ne.symm hc] using hund

theorem ReplySafe.handle {answers : Nat → QueryOutcome} (h : ReplySafe s)
    (hok : HandledWell ext s (.handle answers))
    (hs : replyStep ext s (.handle answers) = some s') : ReplySafe s' := by
  cases hq : s.queue with
  | nil => simp [replyStep, hq] at hs
  | cons r rest =>
    obtain ⟨hwait, hrest, hchan⟩ := h.head hq
    obtain ⟨daemon, reply, hstep⟩ := handle_step h hq (hok r rest hq)
    obtain rfl := Option.some.inj (hstep.symm.trans hs)
    refine ⟨h.running, fun c => ?_, h.read⟩
    by_cases hc : c = r.client
    · subst hc
      simp [ReplyState.underway, hrest, hwait]
    · have hund := h.underway c
      simpa [ReplyState.underway, hq, hc, Ne.symm hc] using hund

theorem ReplySafe.readReply {c : ConnId} (h : ReplySafe s)
    (hs : replyStep ext s (.read c) = some s') : ReplySafe s' := by
  simp only [replyStep] at hs
  split at hs
  · rename_i n m reply rest hwait hchan
    rw [h.running, if_neg (by simp), Option.some.injEq] at hs
    obtain ⟨rfl, hq, rfl⟩ := h.front hwait hchan
    subst hs
    refine ⟨rfl, fun c' => ?_, fun p hp => ?_⟩
    · by_cases hc : c' = c
      · subst hc
        simp [ReplyState.underway, hq]
      · have hund := h.underway c'
        simpa [ReplyState.underway, hc] using hund
    · obtain hp | hp := List.mem_append.1 hp
      · exact h.read p hp
      · rw [List.mem_singleton.1 hp]
  · cases hs

theorem ReplySafe.step {e : ReplyEvent} (h : ReplySafe s) (hok : HandledWell ext s e)
    (hs : replyStep ext s e = some s') : ReplySafe s' := by
  cases e with
  | request c msg => exact h.request hs
  | handle answers => exact h.handle hok hs
  | read c => exact h.readReply hs
  | share daemon =>
    rw [replyStep, h.running, if_neg (by simp), Option.some.injEq] at hs
    subst hs
    exact ⟨rfl, h.underway, h.read⟩

theorem replySafe_of_reachable (h : (replyMachine ext).ReachableWith (HandledWell ext) s) :
    ReplySafe s := by
  refine h.invariant (I := ReplySafe) ?_ fun s e s' hsafe hok hs => hsafe.step hok hs
  rintro s ⟨daemon, rfl⟩
  exact ⟨rfl, fun _ => rfl, by simp⟩

/-! ## No worker waits forever -/

/-- Once all the requests are handled, every worker that waits has its reply. -/
theorem ReplySafe.handled (h : ReplySafe s) {oracles : List (Nat → QueryOutcome)}
    (hlen : oracles.length = s.queue.length)
    (hok : (replyMachine ext).OkRun (HandledWell ext) s (oracles.map .handle)) :
    ∃ s', (replyMachine ext).run s (oracles.map .handle) = some s' ∧
      s'.waiting = s.waiting ∧ ∀ c n, s.waiting c = some n → ∃ reply, s'.channel c = [(n, reply)] := by
  induction oracles generalizing s with
  | nil =>
    refine ⟨s, rfl, rfl, fun c n hwait => ?_⟩
    have hund := h.underway c
    rw [ReplyState.underway, List.length_eq_zero_iff.1 hlen.symm, hwait] at hund
    obtain ⟨⟨m, reply⟩, hchan, rfl⟩ := List.map_eq_singleton_iff.1 hund
    exact ⟨reply, hchan⟩
  | cons answers oracles ih =>
    obtain ⟨r, rest, hq⟩ := List.exists_cons_of_length_eq_add_one hlen.symm
    obtain ⟨hwell, hrest⟩ := hok
    obtain ⟨daemon, reply, hstep⟩ := handle_step h hq (hwell r rest hq)
    have hsafe := h.handle hwell hstep
    simp only [replyMachine, hstep] at hrest
    rw [hq, List.length_cons, List.length_cons, Nat.add_right_cancel_iff] at hlen
    obtain ⟨s', hrun, hwait, hchan⟩ := ih hsafe hlen hrest
    refine ⟨s', ?_, hwait, hchan⟩
    rw [List.map_cons, Lib.Machine.run]
    exact (congrArg (Option.bind · _) hstep).trans hrun

/-- **The daemon replies once exactly if the database answers well and no null
pointer is written to.**  In a run where that is so of each request it handles,
no reply is read by a worker that waits for another one, and a worker that waits
has its reply as soon as the requests on the channel are handled. -/
theorem replies_once (ext : External) :
    (∀ s c msg answers, RepliesOnce ext s c msg answers ↔ AnsweredWell ext s c msg answers) ∧
    ∀ s, (replyMachine ext).ReachableWith (HandledWell ext) s → ReplySafe s ∧
      ∀ oracles : List (Nat → QueryOutcome), oracles.length = s.queue.length →
        (replyMachine ext).OkRun (HandledWell ext) s (oracles.map .handle) →
        ∃ s', (replyMachine ext).run s (oracles.map .handle) = some s' ∧
          ∀ c n, s.waiting c = some n → ∃ reply, s'.channel c = [(n, reply)] := by
  refine ⟨repliesOnce_iff ext, fun s hs => ?_⟩
  have hsafe := replySafe_of_reachable hs
  refine ⟨hsafe, fun oracles hlen hok => ?_⟩
  obtain ⟨s', hrun, -, hchan⟩ := hsafe.handled hlen hok
  exact ⟨s', hrun, hchan⟩

/-! ## Three databases -/

section Runs

def freshDaemon : DaemonState where
  clients _ := {}
  authClients := [0]
  restrictLogins := false
  systemNode := 1
  allPlayers := 2
  globalStates := []

def noRows : Nat → QueryOutcome := fun _ => .tuples []

/-- The first statement finds nothing, and then the database is gone. -/
def emptyThenError : Nat → QueryOutcome
  | 0 => .tuples []
  | _ => .error

/-- A login to an account that does not exist. -/
def strangersLogin : AuthMessage :=
  .clientLogin { clientChallenge := 0, acctName := "nobody", passHash := ⟨Vector.replicate 5 0⟩ }

/-- A worker that asks for a login gets its reply. -/
theorem replies_once_login : ∃ s s', (replyMachine plainExternal).run { daemon := freshDaemon }
    [.request 0 strangersLogin] = some s ∧ ReplySafe s ∧
    (replyMachine plainExternal).run s [.handle noRows] = some s' ∧
    ∃ reply, s'.channel 0 = [(0, reply)] := by
  have hstart : (replyMachine plainExternal).start { daemon := freshDaemon } := ⟨freshDaemon, rfl⟩
  obtain ⟨s, hrun, hs⟩ : ∃ s, (replyMachine plainExternal).run { daemon := freshDaemon }
      [.request 0 strangersLogin] = some s ∧
      (replyMachine plainExternal).ReachableWith (HandledWell plainExternal) s :=
    (Lib.Machine.ReachableWith.start hstart).run ⟨trivial, trivial⟩
  obtain ⟨hiff, hsafe⟩ := replies_once plainExternal
  obtain ⟨hsafe, hprogress⟩ := hsafe s hs
  obtain rfl : _ = s := Option.some.inj hrun
  have hwell : AnsweredWell plainExternal freshDaemon 0 strangersLogin noRows :=
    (hiff ..).1 ⟨by decide, by decide⟩
  obtain ⟨s', hrun', hchan⟩ := hprogress [noRows] rfl ⟨fun r rest hq => by
    obtain ⟨rfl, rfl⟩ := List.cons.inj hq
    exact hwell, trivial⟩
  exact ⟨_, s', hrun, hsafe, hrun', hchan 0 0 rfl⟩

/-- **Two replies to one request.**  `dm_auth_createPlayer` replies that the player
could not be created, goes on, and replies again. -/
theorem createPlayer_repliesTwice :
    ¬∀ ext s c msg answers, RepliesOnce ext s c msg answers := by
  intro hall
  have hone := (hall plainExternal freshDaemon 0 (.createPlayer {}) emptyThenError).2
  have htwo : (handled plainExternal freshDaemon 0 (.createPlayer {})
      emptyThenError).2.replies.length = 2 := by decide
  exact absurd (hone.symm.trans htwo) (by decide)

/-- No reply at all: `dm_auth_findAge` cannot enter the new server. -/
theorem findAge_repliesNever : (handled plainExternal freshDaemon 0 (.findGameServer "" .null)
    emptyThenError).2.replies = [] := by
  decide

end Runs

end Dirtsand.AuthServ.Daemon
