import Dirtsand.GameServ.Starting

/-!
# Who owes whom an answer

There are two kinds of calls in the system: a worker or the auth daemon puts a
message on a host's channel and waits for the reply on its own, and a worker or
a host puts a request on the auth channel and waits.  This file counts, for each
of them, what is still to be answered and what has been, in any reachable state
and with no condition on the run.

* `AnswerInv.asked` — who calls the auth daemon has one request or one answer
  there, and nobody else has any.
* `AnswerInv.owed`, `AnswerInv.once` — a host owes a reply only to who waits for
  it, and at most one.

What a host owes is what it will come to: a message behind a shutdown is not
served any more.
-/

namespace Dirtsand.GameServ

/-! ## Calls to a host -/

/-- Waits for the reply of a host. -/
def WorkerPc.hostWait : WorkerPc → Bool
  | .waitJoin => true
  | .waitMsg => true
  | .waitDisc => true
  | _ => false

def HostMsg.isShutdown : HostMsg → Bool
  | .shutdown _ => true
  | _ => false

/-- In `dm_game_shutdown`, or after it. -/
def HostPc.closing : HostPc → Bool
  | .shutClose _ => true
  | .shutWait _ => true
  | .shutLock _ => true
  | .shutDelete _ => true
  | .deleted => true
  | _ => false

/-- The messages on the channel that the host will come to. -/
def GameHost.served (g : GameHost) : List HostMsg :=
  if g.pc.closing then [] else g.queue.takeWhile fun m => !m.isShutdown

/-- How many replies to `x` the host will still put. -/
def GameHost.owes (g : GameHost) (x : Waiter) : Nat :=
  (g.served.countP fun m => m.waiter = some x) + if g.pc.serves = some x then 1 else 0

/-- The host whose reply `x` waits for. -/
def State.awaits (s : State) : Waiter → Option HostPtr
  | .worker c => match s.workers c with
    | some w => if w.pc.hostWait then w.mHost else none
    | none => none
  | .authDaemon => match s.daemon with
    | .waitHost h => some h
    | _ => none

/-- How many replies are there for `x`. -/
def State.answers (s : State) : Waiter → Nat
  | .worker c => match s.workers c with
    | some w => if w.pc.hostWait then w.chan.length else 0
    | none => 0
  | .authDaemon => s.daemonChan.length

/-! ## Calls to the auth daemon -/

/-- Who waits for the answer to a request on the auth channel. -/
inductive Caller where
  | worker (c : ConnId)
  | host (h : HostPtr)
deriving DecidableEq, Repr

def AuthReq.caller : AuthReq → Option Caller
  | .updateAgeSrv h => some (.host h)
  | .hostUpdateNode h => some (.host h)
  | .fetchSDL c => some (.worker c)
  | .startUpdateNode c => some (.worker c)
  | .fetchNode c => some (.worker c)
  | _ => none

theorem AuthReq.caller_of_fromClient {r : AuthReq} (hr : r.fromClient = true) :
    r.caller = none := by
  cases r with
  | clientUpdateSdl _ | updateGlobalSDL _ | other => rfl
  | _ => cases hr

def WorkerPc.authWait : WorkerPc → Bool
  | .startFetch .. => true
  | .startUpdate .. => true
  | .waitNode => true
  | _ => false

def HostPc.authWait : HostPc → Bool
  | .joinWait _ => true
  | .discWait _ => true
  | .msgWait .. => true
  | .sdlWait => true
  | _ => false

/-- How many requests of `y` are on the auth channel. -/
def State.asked (s : State) (y : Caller) : Nat :=
  s.authChan.countP fun r => r.caller = some y

/-- `y` waits for the auth daemon. -/
def State.calls (s : State) : Caller → Bool
  | .worker c => match s.workers c with
    | some w => w.pc.authWait
    | none => false
  | .host h => match s.hosts h with
    | some g => g.pc.authWait
    | none => false

/-- How many answers of the auth daemon are there for `y`. -/
def State.told (s : State) : Caller → Nat
  | .worker c => match s.workers c with
    | some w => if w.pc.hostWait then 0 else w.chan.length
    | none => 0
  | .host h => match s.hosts h with
    | some g => g.authReply.toList.length
    | none => 0

/-! ## What a host's move does to the counts -/

def HostEffect.repliesTo (eff : HostEffect) (x : Waiter) : Nat :=
  match eff.reply with
  | some (y, _) => if y = x then 1 else 0
  | none => 0

theorem HostEffect.toDaemon_length (eff : HostEffect) :
    eff.toDaemon.length = eff.repliesTo .authDaemon := by
  unfold HostEffect.toDaemon HostEffect.repliesTo
  rcases eff.reply with _ | ⟨_ | c, ok⟩ <;> rfl

theorem HostEffect.toWorker_length (eff : HostEffect) (c : ConnId) :
    (eff.toWorker c).length = eff.repliesTo (.worker c) := by
  unfold HostEffect.toWorker HostEffect.repliesTo
  rcases eff.reply with _ | ⟨c' | _, ok⟩
  · rfl
  · by_cases hc : c' = c
    · simp [hc]
    · simp [hc]
  · rfl

/-- The host comes to a message put behind the others, unless there is a
shutdown before it. -/
theorem takeWhile_open (q : List HostMsg) (m : HostMsg) :
    (q ++ [m]).takeWhile (fun m => !m.isShutdown) = (q.takeWhile fun m => !m.isShutdown) ++
      if m.isShutdown || q.any HostMsg.isShutdown then [] else [m] := by
  induction q with
  | nil => cases hm : m.isShutdown <;> simp [hm]
  | cons m' q ih => cases hm : m'.isShutdown <;> simp [hm, ih]

/-- **What a host owes becomes less by the replies it puts**, and only by them. -/
theorem HostMove.owes {h : HostPtr} {v : HostView} {g g' : GameHost} {eff : HostEffect}
    (hmove : HostMove h v g g' eff) (x : Waiter) : g.owes x = g'.owes x + eff.repliesTo x := by
  cases hmove with
  | @take m rest hpc hq =>
    cases m <;> simp [GameHost.owes, GameHost.served, hpc, hq, HostPc.closing, HostPc.serves,
      HostMsg.start, HostMsg.waiter, HostMsg.isShutdown, HostEffect.repliesTo, List.countP_cons]
  | discPost hpc hempty =>
    simp only [GameHost.owes, GameHost.served, takeWhile_open]
    simp [hpc, HostPc.closing, HostPc.serves, HostMsg.isShutdown, HostEffect.repliesTo]
  | _ hpc =>
    simp [GameHost.owes, GameHost.served, hpc, HostPc.closing, HostPc.serves, HostEffect.repliesTo]

/-- A host's requests, and the answers it takes, go with its waiting. -/
theorem HostMove.calls {h : HostPtr} {v : HostView} {g g' : GameHost} {eff : HostEffect}
    (hmove : HostMove h v g g' eff) :
    (eff.auth.toList.countP fun r => r.caller = some (.host h)) + g'.authReply.toList.length +
      (if g.pc.authWait then 1 else 0) = (if g'.pc.authWait then 1 else 0) +
        g.authReply.toList.length := by
  cases hmove with
  | take hpc hq => cases ‹HostMsg› <;> simp [hpc, HostPc.authWait, HostMsg.start]
  | joinWait hpc hr | discWait hpc hr | msgWait hpc hr | sdlWait hpc hr =>
    simp [hpc, hr, HostPc.authWait]
  | _ hpc => simp [hpc, HostPc.authWait, AuthReq.caller]

theorem HostMove.auth_caller {h : HostPtr} {v : HostView} {g g' : GameHost} {eff : HostEffect}
    {r : AuthReq} (hmove : HostMove h v g g' eff) (hr : eff.auth = some r) :
    r.caller = some (.host h) := by
  cases hmove <;> simp_all [AuthReq.caller] <;> subst hr <;> rfl

/-! ## What a worker's move does to the counts -/

/-- What a worker has on its channel before it waits for anything new. -/
def GameWorker.Settled (w : GameWorker) : Prop :=
  w.chan.length ≤ if w.pc.hostWait || w.pc.authWait then 1 else 0

theorem WorkerMove.calls {c : ConnId} {v : WorkerView} {w w' : GameWorker} {eff : WorkerEffect}
    (hmove : WorkerMove c v w w' eff) (hw : w.Settled) :
    (eff.auth.toList.countP fun r => r.caller = some (.worker c)) +
      (if w'.pc.hostWait then 0 else w'.chan.length) + (if w.pc.authWait then 1 else 0) =
      (if w'.pc.authWait then 1 else 0) + if w.pc.hostWait then 0 else w.chan.length := by
  unfold GameWorker.Settled at hw
  cases hmove <;> simp_all [WorkerPc.hostWait, WorkerPc.authWait, AuthReq.caller,
    GameWorker.noHost]

theorem WorkerMove.auth_caller {c : ConnId} {v : WorkerView} {w w' : GameWorker}
    {eff : WorkerEffect} {r : AuthReq} (hmove : WorkerMove c v w w' eff) (hr : eff.auth = some r) :
    r.caller = some (.worker c) := by
  cases hmove <;> simp_all [AuthReq.caller] <;> subst hr <;> rfl

/-- How a worker's move changes whom it waits for. -/
inductive WorkerMove.Waits (c : ConnId) (w w' : GameWorker) (eff : WorkerEffect) : Prop where
  /-- It puts a message on a host's channel, and waits for the reply. -/
  | puts {h m} (hw : w.pc.hostWait = false) (hw' : w'.pc.hostWait = true) (hh : w'.mHost = some h)
      (hchan : w.Settled → w'.chan = []) (hact : eff.act = some (h, .put m))
      (hm : m.waiter = some (.worker c))
  /-- It takes the reply. -/
  | takes {ok rest} (hw : w.pc.hostWait = true) (hw' : w'.pc.hostWait = false)
      (hchan : w.chan = ok :: rest) (hact : eff.act = none)
  /-- Neither. -/
  | other (hw : w.pc.hostWait = false) (hw' : w'.pc.hostWait = false)
      (hact : ∀ h m, eff.act ≠ some (h, .put m))

theorem WorkerMove.waits {c : ConnId} {v : WorkerView} {w w' : GameWorker} {eff : WorkerEffect}
    (hmove : WorkerMove c v w w' eff) : WorkerMove.Waits c w w' eff := by
  cases hmove with
  | recvMsg hpc hops hh =>
    refine .puts (by simp [hpc, WorkerPc.hostWait]) rfl hh (fun hs => ?_) rfl rfl
    simpa [GameWorker.Settled, hpc, WorkerPc.hostWait, WorkerPc.authWait] using hs
  | putJoin hpc hr hh =>
    refine .puts (by simp [hpc, WorkerPc.hostWait]) rfl hh (fun hs => ?_) rfl rfl
    simpa [GameWorker.Settled, hpc, hr, WorkerPc.hostWait, WorkerPc.authWait] using hs
  | putDisc hpc hh =>
    refine .puts (by simp [hpc, WorkerPc.hostWait]) rfl hh (fun hs => ?_) rfl rfl
    simpa [GameWorker.Settled, hpc, WorkerPc.hostWait, WorkerPc.authWait] using hs
  | joined hpc hr | joinHup hpc hr | msgDone hpc hr | discDone hpc hr =>
    exact .takes (by simp [hpc, WorkerPc.hostWait]) rfl hr rfl
  | _ hpc => exact .other (by simp [hpc, WorkerPc.hostWait]) (by simp [hpc, WorkerPc.hostWait,
      GameWorker.noHost]) (by simp)

theorem WorkerMove.alloc_fresh {c : ConnId} {v : WorkerView} {w w' : GameWorker}
    {eff : WorkerEffect} {g : GameHost} (hmove : WorkerMove c v w w' eff)
    (halloc : eff.alloc = some g) :
    eff.act = none ∧ g.queue = [] ∧ g.pc = .unstarted ∧ g.authReply = none ∧
      g.mutexFree = true := by
  cases hmove with
  | select hpc =>
    cases halloc
    exact ⟨rfl, rfl, rfl, rfl, rfl⟩
  | _ => cases halloc

/-- A host after a worker's move is a new one, or was there before. -/
theorem State.applyWorker_hosts {s : State} {c : ConnId} {w w' : GameWorker} {eff : WorkerEffect}
    {k : HostPtr} {g' : GameHost} (hmove : WorkerMove c s.workerView w w' eff)
    (hg' : (s.applyWorker c w' eff).hosts k = some g') :
    (k = s.nextHost ∧ eff.alloc.isSome ∧ eff.act = none ∧ g'.queue = [] ∧ g'.pc = .unstarted ∧ g'.authReply = none ∧
      g'.mutexFree = true) ∨
      ∃ g, s.hosts k = some g ∧ g' = eff.onHost k g := by
  obtain ⟨g, hg, rfl⟩ := Option.map_eq_some_iff.1 hg'
  cases halloc : eff.alloc with
  | none =>
    rw [halloc] at hg
    exact .inr ⟨g, hg, rfl⟩
  | some a =>
    rw [halloc] at hg
    rcases Lib.update_eq_some hg with ⟨rfl, rfl⟩ | ⟨-, hg⟩
    · obtain ⟨hact, hfresh⟩ := hmove.alloc_fresh halloc
      have hon : eff.onHost s.nextHost g = g := by simp [WorkerEffect.onHost, hact]
      rw [hon]
      exact .inl ⟨rfl, rfl, hact, hfresh⟩
    · exact .inr ⟨g, hg, rfl⟩

theorem GameHost.served_put (g : GameHost) (m : HostMsg) :
    ((HostAct.put m).run g).served = g.served ++
      if g.pc.closing || m.isShutdown || g.queue.any HostMsg.isShutdown then [] else [m] := by
  simp only [GameHost.served, HostAct.run, takeWhile_open, Bool.or_assoc]
  cases g.pc.closing with
  | true => rfl
  | false => rfl

theorem GameHost.owes_put (g : GameHost) (m : HostMsg) (x : Waiter) :
    ((HostAct.put m).run g).owes x =
      g.owes x + if g.pc.closing || m.isShutdown || g.queue.any HostMsg.isShutdown then 0
        else if m.waiter = some x then 1 else 0 := by
  unfold GameHost.owes
  rw [GameHost.served_put, List.countP_append]
  show _ + (if g.pc.serves = some x then 1 else 0) = _
  split
  · simp
  · rw [List.countP_singleton]
    simp only [decide_eq_true_eq]
    omega

theorem GameHost.owes_put_le (g : GameHost) (m : HostMsg) (x : Waiter) :
    ((HostAct.put m).run g).owes x ≤ g.owes x + if m.waiter = some x then 1 else 0 := by
  rw [GameHost.owes_put]
  split <;> omega

theorem HostAct.owes_le {act : HostAct} (hput : ∀ m, act ≠ .put m) {g : GameHost}
    (hact : (act ≠ .start ∧ act ≠ .free) ∨ g.pc = .unstarted) (x : Waiter) :
    (act.run g).owes x ≤ g.owes x := by
  cases act with
  | put m => exact absurd rfl (hput m)
  | insert playerId c => exact Nat.le_refl _
  | erase playerId => exact Nat.le_refl _
  | start =>
    rcases hact with ⟨hne, -⟩ | hpc
    · exact absurd rfl hne
    · simp [GameHost.owes, GameHost.served, HostAct.run, hpc, HostPc.closing, HostPc.serves]
  | free =>
    rcases hact with ⟨-, hne⟩ | hpc
    · exact absurd rfl hne
    · simp [GameHost.owes, GameHost.served, HostAct.run, hpc, HostPc.closing, HostPc.serves]

/-! ## The invariant -/

structure AnswerInv (s : State) : Prop where
  start : StartInv s
  /-- Who calls the auth daemon has one request or one answer there. -/
  asked : ∀ y, s.asked y + s.told y = if s.calls y then 1 else 0
  /-- A host owes a reply only to who waits for it. -/
  owed : ∀ x k g, s.hosts k = some g → s.awaits x ≠ some k → g.owes x = 0
  /-- Nobody is answered twice. -/
  once : ∀ x k g, s.hosts k = some g → g.owes x + s.answers x ≤ 1
  few : ∀ x, s.answers x ≤ 1
  quiet : s.awaits .authDaemon = none → s.daemonChan = []

namespace AnswerInv

variable {s s' : State}

theorem initial : AnswerInv State.initial where
  start := .initial
  asked y := by cases y <;> rfl
  owed _ _ _ hg := nomatch hg
  once _ _ _ hg := nomatch hg
  few x := by cases x <;> exact Nat.zero_le 1
  quiet _ := rfl

theorem settled (h : AnswerInv s) {c : ConnId} {w : GameWorker} (hw : s.workers c = some w) :
    w.Settled := by
  unfold GameWorker.Settled
  cases hwait : w.pc.hostWait with
  | true =>
    have hfew := h.few (.worker c)
    simp only [State.answers, hw, hwait, if_true] at hfew
    simpa using hfew
  | false =>
    have hasked := h.asked (.worker c)
    simp only [State.told, State.calls, hw, hwait, Bool.false_eq_true, if_false] at hasked
    rw [Bool.false_or]
    omega

/-- A host that puts a reply is the one waited for. -/
theorem awaited (h : AnswerInv s) {k : HostPtr} {g g' : GameHost} {eff : HostEffect} {x : Waiter}
    (hg : s.hosts k = some g) (hmove : HostMove k s.hostView g g' eff)
    (hr : eff.repliesTo x ≠ 0) : s.awaits x = some k := by
  by_contra hne
  have howes := hmove.owes x
  rw [h.owed x k g hg hne] at howes
  omega

/-! ### A host moves -/

theorem applyHost_awaits (s : State) (k : HostPtr) (g : GameHost) (eff : HostEffect) (x : Waiter) :
    (s.applyHost k g eff).awaits x = s.awaits x := by
  cases x with
  | authDaemon => rfl
  | worker c =>
    simp only [State.awaits, State.applyHost]
    cases s.workers c <;> rfl

theorem applyHost_answers (s : State) (k : HostPtr) (g : GameHost) (eff : HostEffect) (x : Waiter) :
    (s.applyHost k g eff).answers x ≤ s.answers x + eff.repliesTo x := by
  cases x with
  | authDaemon =>
    simp only [State.answers, State.applyHost, List.length_append, HostEffect.toDaemon_length]
    exact Nat.le_refl _
  | worker c =>
    simp only [State.answers, State.applyHost]
    cases s.workers c with
    | none => exact Nat.zero_le _
    | some w =>
      show (if w.pc.hostWait then (w.chan ++ eff.toWorker c).length else 0) ≤ _
      rw [List.length_append, HostEffect.toWorker_length]
      dsimp only
      split <;> omega

theorem applyHost_calls_worker (s : State) (k : HostPtr) (g : GameHost) (eff : HostEffect)
    (c : ConnId) : (s.applyHost k g eff).calls (.worker c) = s.calls (.worker c) := by
  simp only [State.calls, State.applyHost]
  cases s.workers c <;> rfl

theorem told_of_awaits {c : ConnId} {k : HostPtr} (h : s.awaits (.worker c) = some k) :
    ∃ w, s.workers c = some w ∧ w.pc.hostWait = true ∧ w.mHost = some k := by
  simp only [State.awaits] at h
  split at h
  · rename_i w hw
    split at h
    · rename_i hwait
      exact ⟨w, hw, hwait, h⟩
    · cases h
  · cases h

theorem applyHost_told_worker {k : HostPtr} {g : GameHost} {eff : HostEffect} {c : ConnId}
    (hr : eff.repliesTo (.worker c) ≠ 0 → s.awaits (.worker c) = some k) :
    (s.applyHost k g eff).told (.worker c) = s.told (.worker c) := by
  simp only [State.told, State.applyHost]
  cases hw : s.workers c with
  | none => rfl
  | some w =>
    show (if w.pc.hostWait then 0 else (w.chan ++ eff.toWorker c).length) = _
    rw [List.length_append, HostEffect.toWorker_length]
    by_cases hzero : eff.repliesTo (.worker c) = 0
    · rw [hzero]
      rfl
    · obtain ⟨w₁, hw₁, hwait, -⟩ := told_of_awaits (hr hzero)
      rw [hw] at hw₁
      cases hw₁
      rw [if_pos hwait]
      simp only [hwait, if_true]

theorem host_asked {k : HostPtr} {g g' : GameHost} {eff : HostEffect} (h : AnswerInv s)
    (hg : s.hosts k = some g) (hmove : HostMove k s.hostView g g' eff) (y : Caller) :
    (s.applyHost k g' eff).asked y + (s.applyHost k g' eff).told y =
      if (s.applyHost k g' eff).calls y then 1 else 0 := by
  have hold := h.asked y
  have hasked : (s.applyHost k g' eff).asked y =
      s.asked y + eff.auth.toList.countP fun r => r.caller = some y :=
    List.countP_append
  -- Only the host itself is the caller of what it puts on the auth channel.
  have hother : y ≠ .host k → (eff.auth.toList.countP fun r => r.caller = some y) = 0 := by
    intro hy
    rw [List.countP_eq_zero]
    intro r hr
    rw [hmove.auth_caller (Option.mem_toList.1 hr)]
    simpa using Ne.symm hy
  cases y with
  | worker c =>
    rw [hasked, hother (by simp), applyHost_calls_worker, applyHost_told_worker (h.awaited hg hmove)]
    exact hold
  | host j =>
    by_cases hj : j = k
    · subst hj
      have hcalls := hmove.calls
      simp only [State.told, State.calls, hg] at hold
      rw [hasked]
      simp only [State.told, State.calls, State.applyHost, Function.update_self]
      omega
    · rw [hasked, hother (by simpa using hj)]
      simp only [State.told, State.calls, State.applyHost, Function.update_of_ne hj]
      exact hold

theorem host {k : HostPtr} {g g' : GameHost} {eff : HostEffect} (h : AnswerInv s)
    (hg : s.hosts k = some g) (hmove : HostMove k s.hostView g g' eff) :
    AnswerInv (s.applyHost k g' eff) := by
  have hanswers := applyHost_answers s k g' eff
  have hfew : ∀ x, (s.applyHost k g' eff).answers x ≤ 1 := by
    intro x
    have h₁ := hanswers x
    have h₂ := hmove.owes x
    have h₃ := h.once x k g hg
    omega
  refine ⟨h.start.host hg hmove, h.host_asked hg hmove, fun x j g₁ hg₁ hne => ?_,
    fun x j g₁ hg₁ => ?_, hfew, fun hnone => ?_⟩
  · rw [applyHost_awaits] at hne
    rcases Lib.update_eq_some hg₁ with ⟨rfl, rfl⟩ | ⟨-, hg₁⟩
    · have howes := hmove.owes x
      rw [h.owed x j g hg hne] at howes
      omega
    · exact h.owed x j g₁ hg₁ hne
  · rcases Lib.update_eq_some hg₁ with ⟨rfl, rfl⟩ | ⟨hj, hg₁⟩
    · have h₁ := hanswers x
      have h₂ := hmove.owes x
      have h₃ := h.once x j g hg
      omega
    · -- A host that replies is the only one that owed `x` anything.
      by_cases hzero : eff.repliesTo x = 0
      · have h₁ := hanswers x
        have h₃ := h.once x j g₁ hg₁
        omega
      · have hk := h.awaited hg hmove hzero
        have howed := h.owed x j g₁ hg₁ fun hj' => hj (Option.some.inj (hj'.symm.trans hk))
        have := hfew x
        omega
  · rw [applyHost_awaits] at hnone
    have hzero : eff.repliesTo .authDaemon = 0 := by
      by_contra hne
      rw [h.awaited hg hmove hne] at hnone
      cases hnone
    have hempty := HostEffect.toDaemon_length eff
    rw [hzero, List.length_eq_zero_iff] at hempty
    show s.daemonChan ++ eff.toDaemon = []
    rw [h.quiet hnone, hempty]
    rfl

/-! ### A worker moves -/

theorem applyWorker_awaits_other {c : ConnId} {w' : GameWorker} {eff : WorkerEffect} {x : Waiter}
    (hx : x ≠ .worker c) : (s.applyWorker c w' eff).awaits x = s.awaits x := by
  cases x with
  | authDaemon => rfl
  | worker c' =>
    have hne : c' ≠ c := fun hc => hx (by rw [hc])
    simp only [State.awaits, State.applyWorker, Function.update_of_ne hne]

theorem applyWorker_answers_other {c : ConnId} {w' : GameWorker} {eff : WorkerEffect} {x : Waiter}
    (hx : x ≠ .worker c) : (s.applyWorker c w' eff).answers x = s.answers x := by
  cases x with
  | authDaemon => rfl
  | worker c' =>
    have hne : c' ≠ c := fun hc => hx (by rw [hc])
    simp only [State.answers, State.applyWorker, Function.update_of_ne hne]

theorem applyWorker_awaits_self (c : ConnId) (w' : GameWorker) (eff : WorkerEffect) :
    (s.applyWorker c w' eff).awaits (.worker c) = if w'.pc.hostWait then w'.mHost else none := by
  simp only [State.awaits, State.applyWorker, Function.update_self]

theorem applyWorker_answers_self (c : ConnId) (w' : GameWorker) (eff : WorkerEffect) :
    (s.applyWorker c w' eff).answers (.worker c) =
      if w'.pc.hostWait then w'.chan.length else 0 := by
  simp only [State.answers, State.applyWorker, Function.update_self]

/-- A worker's move leaves alone what a host owes, unless it puts a message
there. -/
theorem onHost_owes_le {c : ConnId} {w w' : GameWorker} {eff : WorkerEffect} {k : HostPtr}
    {g : GameHost} (h : AnswerInv s) (hw : s.workers c = some w)
    (hmove : WorkerMove c s.workerView w w' eff) (hg : s.hosts k = some g)
    (hput : ∀ m, eff.act ≠ some (k, .put m)) (x : Waiter) : (eff.onHost k g).owes x ≤ g.owes x := by
  unfold WorkerEffect.onHost
  split
  · rename_i k' act hact
    split
    · rename_i hk
      subst hk
      refine HostAct.owes_le (fun m hm => hput m (by rw [hact, hm])) ?_ x
      rcases hmove.act_starting hact with hok | hstart
      · exact .inl hok
      · obtain ⟨g₁, hg₁, hun⟩ := h.start.starting c w k' hw hstart
        rw [hg] at hg₁
        cases hg₁
        exact .inr hun
    · exact Nat.le_refl _
  · exact Nat.le_refl _

theorem onHost_calls {c : ConnId} {w w' : GameWorker} {eff : WorkerEffect} {k : HostPtr}
    {g : GameHost} (h : AnswerInv s) (hw : s.workers c = some w)
    (hmove : WorkerMove c s.workerView w w' eff) (hg : s.hosts k = some g) :
    (eff.onHost k g).authReply = g.authReply ∧
      (eff.onHost k g).pc.authWait = g.pc.authWait := by
  have hunstarted : w.pc.starting = some k → g.pc = .unstarted := by
    intro hstart
    obtain ⟨g₁, hg₁, hun⟩ := h.start.starting c w k hw hstart
    rw [hg] at hg₁
    cases hg₁
    exact hun
  unfold WorkerEffect.onHost
  split
  · rename_i k' act hact
    split
    · rename_i hk
      subst hk
      cases act with
      | put m => exact ⟨rfl, rfl⟩
      | insert playerId c' => exact ⟨rfl, rfl⟩
      | erase playerId => exact ⟨rfl, rfl⟩
      | start =>
        have hpc := hunstarted ((hmove.act_starting hact).resolve_left (by simp))
        exact ⟨rfl, by rw [hpc]; rfl⟩
      | free =>
        have hpc := hunstarted ((hmove.act_starting hact).resolve_left (by simp))
        exact ⟨rfl, by rw [hpc]; rfl⟩
    · exact ⟨rfl, rfl⟩
  · exact ⟨rfl, rfl⟩

theorem worker_asked {c : ConnId} {w w' : GameWorker} {eff : WorkerEffect} (h : AnswerInv s)
    (hw : s.workers c = some w) (hmove : WorkerMove c s.workerView w w' eff) (y : Caller) :
    (s.applyWorker c w' eff).asked y + (s.applyWorker c w' eff).told y =
      if (s.applyWorker c w' eff).calls y then 1 else 0 := by
  have hold := h.asked y
  have hasked : (s.applyWorker c w' eff).asked y =
      s.asked y + eff.auth.toList.countP fun r => r.caller = some y :=
    List.countP_append
  have hother : y ≠ .worker c → (eff.auth.toList.countP fun r => r.caller = some y) = 0 := by
    intro hy
    rw [List.countP_eq_zero]
    intro r hr
    rw [hmove.auth_caller (Option.mem_toList.1 hr)]
    simpa using Ne.symm hy
  cases y with
  | worker c' =>
    by_cases hc : c' = c
    · subst hc
      have hcalls := hmove.calls (h.settled hw)
      simp only [State.told, State.calls, hw] at hold
      rw [hasked]
      simp only [State.told, State.calls, State.applyWorker, Function.update_self]
      omega
    · rw [hasked, hother (by simpa using hc)]
      simp only [State.told, State.calls, State.applyWorker, Function.update_of_ne hc]
      exact hold
  | host k =>
    have hsame : (s.applyWorker c w' eff).told (.host k) = s.told (.host k) ∧
        (s.applyWorker c w' eff).calls (.host k) = s.calls (.host k) := by
      simp only [State.told, State.calls]
      cases hg' : (s.applyWorker c w' eff).hosts k with
      | none =>
        have hnone : s.hosts k = none := by
          by_contra hne
          obtain ⟨g, hg⟩ := Option.ne_none_iff_exists'.1 hne
          have halloc := State.allocated_of_some h.start hg eff.alloc
          simp [State.applyWorker, halloc] at hg'
        rw [hnone]
        exact ⟨rfl, rfl⟩
      | some g' =>
        rcases State.applyWorker_hosts hmove hg' with ⟨hk, -, -, -, hpc, hr, -⟩ | ⟨g, hg, rfl⟩
        · rw [h.start.fresh k (Nat.le_of_eq hk.symm)]
          simp only [hpc, hr]
          exact ⟨rfl, rfl⟩
        · obtain ⟨hr, hpc⟩ := onHost_calls h hw hmove hg
          rw [hg]
          simp only [hr, hpc, and_self]
    rw [hasked, hother (by simp), hsame.1, hsame.2]
    exact hold

theorem worker {c : ConnId} {w w' : GameWorker} {eff : WorkerEffect} (h : AnswerInv s)
    (hw : s.workers c = some w) (hmove : WorkerMove c s.workerView w w' eff) :
    AnswerInv (s.applyWorker c w' eff) := by
  have hsettled := h.settled hw
  -- A host after the move owes no more than before, but to who puts a message.
  have hhost : ∀ x k g', (s.applyWorker c w' eff).hosts k = some g' → g'.owes x = 0 ∨
      ∃ g, s.hosts k = some g ∧ (g'.owes x ≤ g.owes x ∨
        ∃ m, eff.act = some (k, .put m) ∧ m.waiter = some x ∧ g'.owes x ≤ g.owes x + 1) := by
    intro x k g' hg'
    rcases State.applyWorker_hosts hmove hg' with ⟨-, -, -, hq, hpc, -⟩ | ⟨g, hg, rfl⟩
    · exact .inl (by simp [GameHost.owes, GameHost.served, hq, hpc, HostPc.serves])
    · refine .inr ⟨g, hg, ?_⟩
      by_cases hput : ∃ m, eff.act = some (k, .put m)
      · obtain ⟨m, hact⟩ := hput
        have hon : eff.onHost k g = (HostAct.put m).run g := by simp [WorkerEffect.onHost, hact]
        have hle := g.owes_put_le m x
        rw [hon]
        by_cases hm : m.waiter = some x
        · rw [if_pos hm] at hle
          exact .inr ⟨m, hact, hm, hle⟩
        · rw [if_neg hm] at hle
          exact .inl hle
      · exact .inl (onHost_owes_le h hw hmove hg (fun m hm => hput ⟨m, hm⟩) x)
  have hself : s.awaits (.worker c) = if w.pc.hostWait then w.mHost else none := by
    simp only [State.awaits, hw]
  have hanswers : s.answers (.worker c) = if w.pc.hostWait then w.chan.length else 0 := by
    simp only [State.answers, hw]
  have hfew : ∀ x, (s.applyWorker c w' eff).answers x ≤ 1 := by
    intro x
    by_cases hx : x = .worker c
    · subst hx
      rw [applyWorker_answers_self]
      cases hmove.waits with
      | puts _ _ _ hchan => rw [hchan hsettled]; simp
      | takes _ hw' => simp [hw']
      | other _ hw' => simp [hw']
    · rw [applyWorker_answers_other hx]
      exact h.few x
  refine ⟨h.start.worker hw hmove, h.worker_asked hw hmove, fun x k g' hg' hne => ?_,
    fun x k g' hg' => ?_, hfew, fun hnone => h.quiet hnone⟩
  · rcases hhost x k g' hg' with hzero | ⟨g, hg, hle | ⟨m, hact, hm, hle⟩⟩
    · exact hzero
    · have howes : g.owes x = 0 := by
        by_cases hx : x = .worker c
        · subst hx
          rw [applyWorker_awaits_self] at hne
          cases hmove.waits with
          | puts hw₁ => exact h.owed _ k g hg (by rw [hself, hw₁]; simp)
          | takes hw₁ _ hchan =>
            have honce := h.once (.worker c) k g hg
            rw [hanswers, hw₁, hchan] at honce
            simp only [if_true, List.length_cons] at honce
            omega
          | other hw₁ => exact h.owed _ k g hg (by rw [hself, hw₁]; simp)
        · rw [applyWorker_awaits_other hx] at hne
          exact h.owed x k g hg hne
      omega
    · -- The message is put by who waits for the reply, and on this host.
      cases hmove.waits with
      | puts _ hw' hh _ hact' hm' =>
        rw [hact] at hact'
        cases hact'
        rw [hm] at hm'
        cases hm'
        rw [applyWorker_awaits_self, hw', if_pos rfl, hh] at hne
        exact absurd rfl hne
      | takes _ _ _ hact' => rw [hact] at hact'; cases hact'
      | other _ _ hact' => exact absurd hact (hact' k m)
  · have hone := hfew x
    rcases hhost x k g' hg' with hzero | ⟨g, hg, hle | ⟨m, hact, hm, hle⟩⟩
    · omega
    · by_cases hx : x = .worker c
      · subst hx
        have honce := h.once (.worker c) k g hg
        rw [applyWorker_answers_self]
        rw [hanswers] at honce
        cases hmove.waits with
        | puts hw₁ hw' _ hchan =>
          rw [hchan hsettled]
          have howes := h.owed (.worker c) k g hg (by rw [hself, hw₁]; simp)
          simp only [List.length_nil]
          split <;> omega
        | takes hw₁ hw' => simp only [hw', Bool.false_eq_true, if_false]; omega
        | other hw₁ hw' => simp only [hw', Bool.false_eq_true, if_false]; omega
      · rw [applyWorker_answers_other hx]
        have honce := h.once x k g hg
        omega
    · cases hmove.waits with
      | puts hw₁ hw' hh hchan hact' hm' =>
        rw [hact] at hact'
        cases hact'
        rw [hm] at hm'
        cases hm'
        have howes := h.owed (.worker c) k g hg (by rw [hself, hw₁]; simp)
        rw [applyWorker_answers_self, hchan hsettled]
        simp only [List.length_nil]
        split <;> omega
      | takes _ _ _ hact' => rw [hact] at hact'; cases hact'
      | other _ _ hact' => exact absurd hact (hact' k m)

/-! ### The daemon moves, and the rest -/

/-- A step that changes nothing in the calls to hosts. -/
theorem sameCalls (h : AnswerInv s) (hstart : StartInv s')
    (hhosts : ∀ k g', s'.hosts k = some g' → ∃ g, s.hosts k = some g ∧ ∀ x, g'.owes x ≤ g.owes x)
    (hawaits : ∀ x, s'.awaits x = s.awaits x) (hanswers : ∀ x, s'.answers x = s.answers x)
    (hasked : ∀ y, s'.asked y + s'.told y = if s'.calls y then 1 else 0) : AnswerInv s' := by
  refine ⟨hstart, hasked, fun x k g' hg' hne => ?_, fun x k g' hg' => ?_, fun x => ?_,
    fun hnone => ?_⟩
  · obtain ⟨g, hg, hle⟩ := hhosts k g' hg'
    have howes := h.owed x k g hg (hawaits x ▸ hne)
    have := hle x
    omega
  · obtain ⟨g, hg, hle⟩ := hhosts k g' hg'
    rw [hanswers]
    have honce := h.once x k g hg
    have := hle x
    omega
  · rw [hanswers]
    exact h.few x
  · have hchan := h.quiet (hawaits .authDaemon ▸ hnone)
    have hlen : s'.daemonChan.length = s.daemonChan.length := hanswers .authDaemon
    rw [hchan] at hlen
    exact List.length_eq_zero_iff.1 hlen

theorem putAll_hosts (s : State) (p : GameHost → Bool) {m : HostMsg} (hm : m.waiter = none)
    {k : HostPtr} {g' : GameHost} (hg' : (s.putAll p m).hosts k = some g') :
    ∃ g, s.hosts k = some g ∧ ∀ x, g'.owes x ≤ g.owes x := by
  obtain ⟨g, hg, rfl⟩ := Option.map_eq_some_iff.1 hg'
  refine ⟨g, hg, fun x => ?_⟩
  split
  · have hle := g.owes_put_le m x
    rw [hm, if_neg (by simp)] at hle
    exact hle
  · exact Nat.le_refl _

theorem putAll_asked (h : AnswerInv s) (p : GameHost → Bool) (m : HostMsg) (y : Caller) :
    (s.putAll p m).asked y + (s.putAll p m).told y = if (s.putAll p m).calls y then 1 else 0 := by
  have hsame : (s.putAll p m).told y = s.told y ∧ (s.putAll p m).calls y = s.calls y := by
    cases y with
    | worker c => exact ⟨rfl, rfl⟩
    | host k =>
      simp only [State.told, State.calls, State.putAll]
      cases s.hosts k with
      | none => exact ⟨rfl, rfl⟩
      | some g =>
        dsimp only [Option.map_some]
        split <;> exact ⟨rfl, rfl⟩
  rw [hsame.1, hsame.2]
  exact h.asked y

theorem asked_cons {r : AuthReq} {rest : List AuthReq} (hc : s.authChan = r :: rest) (y : Caller) :
    s.asked y = ({ s with authChan := rest } : State).asked y +
      if r.caller = some y then 1 else 0 := by
  simp only [State.asked, hc, List.countP_cons, decide_eq_true_eq]

/-- The daemon answers a host. -/
theorem answerHost {r : AuthReq} {rest : List AuthReq} {k : HostPtr} (h : AnswerInv s)
    (hc : s.authChan = r :: rest) (hr : r.caller = some (.host k)) (ok : Bool) :
    AnswerInv (({ s with authChan := rest } : State).answerHost k ok) := by
  have hstart : StartInv ({ s with authChan := rest } : State) := h.start.sameHosts rfl rfl rfl
  refine h.sameCalls (hstart.modifyHost k fun _ => rfl) (fun j g' hg' => ?_) (fun x => ?_)
    (fun x => ?_) fun y => ?_
  · obtain ⟨g, hg, rfl⟩ := Option.map_eq_some_iff.1 hg'
    refine ⟨g, hg, fun x => ?_⟩
    split <;> exact Nat.le_refl _
  · cases x <;> rfl
  · cases x <;> rfl
  · have hasked := h.asked y
    rw [asked_cons hc] at hasked
    show State.asked { s with authChan := rest } y + _ = _
    cases y with
    | worker c =>
      rw [hr, if_neg (by simp)] at hasked
      exact hasked
    | host j =>
      by_cases hj : j = k
      · subst hj
        rw [hr, if_pos rfl] at hasked
        simp only [State.told, State.calls, State.answerHost, State.modifyHost] at hasked ⊢
        cases hg : s.hosts j with
        | none => simp [hg] at hasked
        | some g =>
          simp only [hg] at hasked
          simp only [Option.map_some, if_true, Option.toList_some, List.length_singleton]
          split at hasked
          · rename_i hauth
            rw [if_pos hauth]
            omega
          · omega
      · rw [hr, if_neg (by simpa using Ne.symm hj)] at hasked
        simp only [State.told, State.calls, State.answerHost, State.modifyHost] at hasked ⊢
        cases hg : s.hosts j with
        | none =>
          simp only [hg] at hasked
          exact hasked
        | some g =>
          simp only [hg] at hasked
          simp only [Option.map_some, if_neg hj]
          exact hasked

/-- The daemon answers a worker, which waits for it and for no host. -/
theorem answerWorker {r : AuthReq} {rest : List AuthReq} {c : ConnId} (h : AnswerInv s)
    (hc : s.authChan = r :: rest) (hr : r.caller = some (.worker c)) (ok : Bool) :
    AnswerInv (({ s with authChan := rest } : State).answerWorker c ok) := by
  have hcalled := h.asked (.worker c)
  rw [asked_cons hc, if_pos hr] at hcalled
  -- The worker is there, and waits for the daemon.
  obtain ⟨w, hw, hauth⟩ : ∃ w, s.workers c = some w ∧ w.pc.authWait = true := by
    simp only [State.calls] at hcalled
    cases hw : s.workers c with
    | none => simp [hw] at hcalled
    | some w =>
      refine ⟨w, rfl, ?_⟩
      by_contra hne
      simp [hw, hne] at hcalled
  have hwait : w.pc.hostWait = false := by
    cases hpc : w.pc <;> simp_all [WorkerPc.authWait, WorkerPc.hostWait]
  have hstart : StartInv (({ s with authChan := rest } : State).answerWorker c ok) :=
    h.start.keep rfl (fun _ hk => hk) (fun _ g hg hun => ⟨g, hg, hun⟩) fun c' w' hw' _ => by
      obtain ⟨w₁, hw₁, rfl⟩ := Option.map_eq_some_iff.1 hw'
      refine ⟨w₁, hw₁, ?_⟩
      split <;> rfl
  have hworker : ∀ c', (({ s with authChan := rest } : State).answerWorker c ok).workers c' =
      if c' = c then some { w with chan := w.chan ++ [ok] } else s.workers c' := by
    intro c'
    simp only [State.answerWorker]
    by_cases hc' : c' = c
    · subst hc'
      simp [hw]
    · simp only [if_neg hc']
      exact Option.map_id_apply
  refine h.sameCalls hstart (fun k g hg => ⟨g, hg, fun _ => Nat.le_refl _⟩) (fun x => ?_)
    (fun x => ?_) fun y => ?_
  · cases x with
    | authDaemon => rfl
    | worker c' =>
      simp only [State.awaits, hworker]
      by_cases hc' : c' = c
      · subst hc'
        simp only [if_true, hw]
      · simp only [if_neg hc']
  · cases x with
    | authDaemon => rfl
    | worker c' =>
      simp only [State.answers, hworker]
      by_cases hc' : c' = c
      · subst hc'
        simp only [if_true, hw, hwait, Bool.false_eq_true, if_false]
      · rw [if_neg hc']
  · have hasked := h.asked y
    rw [asked_cons hc] at hasked
    show State.asked { s with authChan := rest } y + _ = _
    cases y with
    | host k =>
      rw [hr, if_neg (by simp)] at hasked
      exact hasked
    | worker c' =>
      simp only [State.told, State.calls, hworker] at hasked ⊢
      by_cases hc' : c' = c
      · subst hc'
        simp only [hw, hr, if_true, hwait, Bool.false_eq_true, if_false] at hasked
        simp only [if_true, hwait, Bool.false_eq_true, if_false, List.length_append,
          List.length_singleton]
        omega
      · rw [hr, if_neg (by simpa using Ne.symm hc')] at hasked
        simp only [if_neg hc']
        exact hasked

theorem daemon (h : AnswerInv s) (hmove : DaemonMove s s') : AnswerInv s' := by
  have hstart := h.start.daemon hmove
  cases hmove with
  | @host r k rest ok hd hc hr =>
    refine h.answerHost hc ?_ ok
    rcases hr with rfl | rfl <;> rfl
  | @worker r c rest ok hd hc hr =>
    refine h.answerWorker hc ?_ ok
    rcases hr with rfl | rfl | rfl <;> rfl
  | @client r rest hd hc hr =>
    refine h.sameCalls hstart (fun k g hg => ⟨g, hg, fun _ => Nat.le_refl _⟩) (fun x => ?_)
      (fun x => ?_) fun y => ?_
    · cases x with
      | worker c => rfl
      | authDaemon =>
        simp only [State.awaits, hd]
        cases r <;> rfl
    · cases x <;> rfl
    · have hasked := h.asked y
      rw [asked_cons hc, if_neg (by rw [AuthReq.caller_of_fromClient hr]; exact nofun)]
        at hasked
      cases y <;> exact hasked
  | miss hd hm hfind =>
    refine h.sameCalls hstart (fun k g hg => ⟨g, hg, fun _ => Nat.le_refl _⟩) (fun x => ?_)
      (fun x => ?_) h.asked
    · cases x with
      | worker c => rfl
      | authDaemon => simp only [State.awaits, hd]
    · cases x <;> rfl
  | @forward mcpId k hd hm hfind =>
    have hnone : s.awaits .authDaemon = none := by simp only [State.awaits, hd]
    have hchan := h.quiet hnone
    have howes : ∀ x j g', (s.modifyHost k (HostAct.put .localSdl).run).hosts j = some g' →
        ∃ g, s.hosts j = some g ∧
          g'.owes x ≤ g.owes x + if j = k ∧ .authDaemon = x then 1 else 0 := by
      intro x j g' hg'
      obtain ⟨g, hg, rfl⟩ := Option.map_eq_some_iff.1 hg'
      refine ⟨g, hg, ?_⟩
      by_cases hj : j = k
      · have hle := g.owes_put_le .localSdl x
        simp only [HostMsg.waiter, Option.some.injEq] at hle
        simp only [hj, if_true, true_and]
        exact hle
      · simp only [hj, if_false, false_and, Nat.add_zero, Nat.le_refl]
    refine ⟨hstart, fun y => ?_, fun x j g' hg' hne => ?_, fun x j g' hg' => ?_, fun x => ?_,
      fun _ => hchan⟩
    · have hasked := h.asked y
      cases y with
      | worker c => exact hasked
      | host j =>
        have hsame : State.told (s.modifyHost k (HostAct.put .localSdl).run) (.host j) =
            s.told (.host j) ∧ State.calls (s.modifyHost k (HostAct.put .localSdl).run) (.host j) =
            s.calls (.host j) := by
          simp only [State.told, State.calls, State.modifyHost]
          cases s.hosts j with
          | none => exact ⟨rfl, rfl⟩
          | some g =>
            dsimp only [Option.map_some]
            split <;> exact ⟨rfl, rfl⟩
        rw [← hsame.1, ← hsame.2] at hasked
        exact hasked
    · obtain ⟨g, hg, hle⟩ := howes x j g' hg'
      cases x with
      | worker c =>
        have := h.owed (.worker c) j g hg hne
        simp only [reduceCtorEq, and_false, if_false] at hle
        omega
      | authDaemon =>
        have hjk : j ≠ k := fun hj => hne (congrArg some hj.symm)
        have := h.owed .authDaemon j g hg (by rw [hnone]; simp)
        simp only [hjk, false_and, if_false] at hle
        omega
    · obtain ⟨g, hg, hle⟩ := howes x j g' hg'
      cases x with
      | worker c =>
        have := h.once (.worker c) j g hg
        simp only [reduceCtorEq, and_false, if_false] at hle
        exact Nat.le_trans (Nat.add_le_add_right hle _) this
      | authDaemon =>
        have := h.owed .authDaemon j g hg (by rw [hnone]; simp)
        show _ + s.daemonChan.length ≤ 1
        rw [hchan, List.length_nil]
        split at hle <;> omega
    · cases x with
      | worker c => exact h.few (.worker c)
      | authDaemon => exact h.few .authDaemon
  | @back k ok rest hd hr =>
    have hlen : s.daemonChan.length ≤ 1 := h.few .authDaemon
    rw [hr, List.length_cons] at hlen
    have hrest : rest = [] := List.length_eq_zero_iff.1 (by omega)
    refine ⟨hstart, h.asked, fun x j g hg hne => ?_, fun x j g hg => ?_, fun x => ?_,
      fun _ => hrest⟩
    · cases x with
      | worker c => exact h.owed (.worker c) j g hg hne
      | authDaemon =>
        have honce := h.once .authDaemon j g hg
        simp only [State.answers, hr, List.length_cons] at honce
        omega
    · cases x with
      | worker c => exact h.once (.worker c) j g hg
      | authDaemon =>
        have honce := h.once .authDaemon j g hg
        simp only [State.answers, hr, List.length_cons] at honce
        show _ + rest.length ≤ 1
        omega
    · cases x with
      | worker c => exact h.few (.worker c)
      | authDaemon =>
        show rest.length ≤ 1
        omega
  | global hd hm =>
    refine h.sameCalls hstart (fun k g' hg' => putAll_hosts s _ rfl hg') (fun x => ?_)
      (fun x => ?_) (h.putAll_asked _ _)
    · cases x with
      | worker c => rfl
      | authDaemon => simp only [State.awaits, hd]
    · cases x <;> rfl

theorem step {e : Event} (h : AnswerInv s) (hs : step s e = some s') : AnswerInv s' := by
  have hstart := h.start.step hs
  cases step_case hs with
  | @accept c hw =>
    refine h.sameCalls hstart (fun k g hg => ⟨g, hg, fun _ => Nat.le_refl _⟩) (fun x => ?_)
      (fun x => ?_) fun y => ?_
    · cases x with
      | authDaemon => rfl
      | worker c' =>
        by_cases hc : c' = c
        · subst hc
          simp [State.awaits, hw, WorkerPc.hostWait]
        · simp only [State.awaits, Function.update_of_ne hc]
    · cases x with
      | authDaemon => rfl
      | worker c' =>
        by_cases hc : c' = c
        · subst hc
          simp [State.answers, hw]
        · simp only [State.answers, Function.update_of_ne hc]
    · have hasked := h.asked y
      cases y with
      | host k => exact hasked
      | worker c' =>
        by_cases hc : c' = c
        · subst hc
          simp only [State.told, State.calls, hw] at hasked
          simp only [State.told, State.calls, Function.update_self]
          exact hasked
        · simp only [State.told, State.calls, Function.update_of_ne hc]
          exact hasked
  | recv hw _ hmove => exact h.worker hw hmove
  | worker hw _ hmove => exact h.worker hw hmove
  | host hg hmove => exact h.host hg hmove
  | daemon hmove => exact h.daemon hmove
  | @authRequest r hr =>
    refine h.sameCalls hstart (fun k g hg => ⟨g, hg, fun _ => Nat.le_refl _⟩) (fun x => ?_)
      (fun x => ?_) fun y => ?_
    · cases x <;> rfl
    · cases x <;> rfl
    · have hcaller := AuthReq.caller_of_fromClient hr
      have hasked : ({ s with authChan := s.authChan ++ [r] } : State).asked y = s.asked y := by
        simp [State.asked, List.countP_append, hcaller]
      rw [hasked]
      have hold := h.asked y
      cases y <;> exact hold
  | serverShutdown =>
    refine h.sameCalls hstart (fun k g' hg' => putAll_hosts s _ rfl hg') (fun x => ?_)
      (fun x => ?_) (h.putAll_asked _ _)
    · cases x <;> rfl
    · cases x <;> rfl

end AnswerInv

end Dirtsand.GameServ
