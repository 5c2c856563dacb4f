import Dirtsand.GameServ.Lifetime
import Mathlib.Tactic

/-!
# Every sender is answered

`LifeInv` says that who waits for a host is owed a reply.  This file adds that
the threads of the server can go on until the reply is there: in a run whose
steps all meet `StepOk` nobody waits in a circle, and with no new events from
outside there are only finitely many steps to do.

* `host_lifetime` — the lifetime of hosts and the answers to their senders, in
  every run whose steps all meet the condition.
* `join_behind_shutdown` — a run without it: a player joins while the last one
  is leaving.
-/

namespace Dirtsand.GameServ

/-! ## Who holds the mutex -/

structure MutexInv (s : State) : Prop where
  daemon : s.mutex = some .authDaemon → ∃ h, s.daemon = .waitHost h
  host : ∀ h, s.mutex = some (.host h) →
    ∃ g c ops, s.hosts h = some g ∧ g.pc = .msgHold c ops

/-- A host keeps the mutex only in `msgHold`. -/
theorem HostMove.mutex_cases {h : HostPtr} {v : HostView} {g g' : GameHost} {eff : HostEffect}
    (hmove : HostMove h v g g' eff) :
    (eff.mutex = none ∧ ∀ c ops, g.pc ≠ .msgHold c ops) ∨ eff.mutex = some none ∨
      (eff.mutex = some (some (.host h)) ∧ ∃ c ops, g'.pc = .msgHold c ops) := by
  cases hmove with
  | msgLock hpc hm => exact .inr (.inr ⟨rfl, _, _, rfl⟩)
  | msgUnlock hpc hm => exact .inr (.inl rfl)
  | _ hpc => exact .inl ⟨rfl, by simp [hpc]⟩

namespace MutexInv

variable {s s' : State}

theorem initial : MutexInv State.initial :=
  ⟨fun hm => (nomatch hm), fun _ hm => (nomatch hm)⟩

theorem of_none (hm : s.mutex = none) : MutexInv s :=
  ⟨fun h => (nomatch hm.symm.trans h), fun _ h => (nomatch hm.symm.trans h)⟩

theorem step {e : Event} (h : MutexInv s) (hstart : StartInv s) (hs : step s e = some s') :
    MutexInv s' := by
  cases step_case hs with
  | accept => exact ⟨h.daemon, h.host⟩
  | authRequest => exact ⟨h.daemon, h.host⟩
  | serverShutdown hm => exact of_none hm
  | @recv _ c w w' eff hw _ hmove => exact worker_move h hstart hw hmove
  | @worker c _ w w' eff hw _ hmove => exact worker_move h hstart hw hmove
  | @host k ch g g' eff hg hmove =>
    rcases hmove.mutex_cases with ⟨hnone, hpc⟩ | hnone | ⟨hsome, hpc⟩
    · refine ⟨fun hm => h.daemon (by simpa [State.applyHost, hnone] using hm), fun j hm => ?_⟩
      obtain ⟨g₁, c, ops, hg₁, hhold⟩ := h.host j (by simpa [State.applyHost, hnone] using hm)
      have hj : j ≠ k := by
        rintro rfl
        rw [hg] at hg₁
        cases hg₁
        exact hpc c ops hhold
      exact ⟨g₁, c, ops, (Function.update_of_ne hj ..).trans hg₁, hhold⟩
    · exact of_none (by simp [State.applyHost, hnone])
    · obtain ⟨c, ops, hpc⟩ := hpc
      have hm : (s.applyHost k g' eff).mutex = some (.host k) := by simp [State.applyHost, hsome]
      refine ⟨fun hd => ?_, fun j hj => ?_⟩
      · rw [hm] at hd
        cases hd
      · rw [hm] at hj
        cases hj
        exact ⟨g', c, ops, Function.update_self .., hpc⟩
  | daemon hmove => exact daemon_move h hmove
where
  worker_move {s : State} {c : ConnId} {w w' : GameWorker} {eff : WorkerEffect} (h : MutexInv s)
      (hstart : StartInv s) (hw : s.workers c = some w)
      (hmove : WorkerMove c s.workerView w w' eff) : MutexInv (s.applyWorker c w' eff) := by
    refine ⟨h.daemon, fun j hm => ?_⟩
    obtain ⟨g, c', ops, hg, hpc⟩ := h.host j hm
    refine ⟨eff.onHost j g, c', ops, ?_, ?_⟩
    · show (s.allocated eff.alloc j).map _ = _
      rw [State.allocated_of_some hstart hg]
      rfl
    · rw [WorkerEffect.onHost_pc, hpc]
      intro act hact
      rcases hmove.act_starting hact with hok | hs
      · exact hok
      · obtain ⟨g₁, hg₁, hun⟩ := hstart.starting c w j hw hs
        rw [hg] at hg₁
        cases hg₁
        rw [hpc] at hun
        cases hun
  daemon_move {s s' : State} (h : MutexInv s) (hmove : DaemonMove s s') : MutexInv s' := by
    have hidle : (∀ k, s.daemon ≠ .waitHost k) → s.mutex ≠ some .authDaemon := by
      intro hd hm
      obtain ⟨k, hk⟩ := h.daemon hm
      exact hd k hk
    cases hmove with
    | @host r k rest ok hd hc hr =>
      refine ⟨fun hm => absurd hm (hidle (by simp [hd])), fun j hm => ?_⟩
      obtain ⟨g, c, ops, hg, hpc⟩ := h.host j hm
      refine ⟨_, c, ops, congrArg (Option.map _) hg, ?_⟩
      dsimp only
      split <;> exact hpc
    | worker hd hc hr => exact ⟨fun hm => absurd hm (hidle (by simp [hd])), h.host⟩
    | client hd hc hr => exact ⟨fun hm => absurd hm (hidle (by simp [hd])), h.host⟩
    | miss hd hm => exact of_none hm
    | @forward mcpId k hd hm hfind => exact ⟨fun _ => ⟨k, rfl⟩, fun _ hm' => nomatch hm'⟩
    | back hd hr => exact of_none rfl
    | global hd hm => exact of_none hm

end MutexInv

/-! ## Somebody can go on -/

/-- A step of a host, of the daemon, or of a worker that starts a loaded host. -/
def State.Serves (s : State) : Event → Prop
  | .host .. => True
  | .daemon _ => True
  | .worker c _ => ∃ w h, s.workers c = some w ∧ w.pc = .startLoad h
  | _ => False

/-- One of the server's threads can take a step. -/
def State.CanServe (s : State) : Prop :=
  ∃ e, s.Serves e ∧ (step s e).isSome

/-- What can keep a host's thread from its next step. -/
theorem hostStep_isSome {h : HostPtr} {v : HostView} {g : GameHost} (hun : g.pc ≠ .unstarted)
    (hdel : g.pc ≠ .deleted) (hq : g.pc = .idle → g.queue ≠ []) (hfree : g.mutexFree = true)
    (hauth : ¬ g.WaitsForAuth) (hmutex : g.WantsMutex → v.mutex = none) (hmap : v.mapFree = true) :
    (hostStep h v g {}).isSome = true := by
  unfold GameHost.WaitsForAuth at hauth
  unfold GameHost.WantsMutex at hmutex
  unfold hostStep
  cases hpc : g.pc with
  | unstarted => exact absurd hpc hun
  | deleted => exact absurd hpc hdel
  | idle =>
    have hne := hq hpc
    cases hqueue : g.queue with
    | nil => exact absurd hqueue hne
    | cons m rest => rfl
  | joinWait c | discWait c | sdlWait =>
    cases hr : g.authReply with
    | none => simp [hpc, hr] at hauth
    | some ok => rfl
  | msgWait c ops =>
    cases hr : g.authReply with
    | none => simp [hpc, hr] at hauth
    | some ok => rfl
  | joinDone c accepted => simp [hfree]
  | msg c ops =>
    cases ops with
    | nil => rfl
    | cons op ops =>
      cases op with
      | own => simp [msgStep, hfree]
      | members =>
        by_cases hclients : g.clients = []
        · simp [msgStep, hfree, hclients]
        · simp [msgStep, hfree, hclients]
      | auth => simp [msgStep]
      | lock =>
        simp only [hpc] at hmutex
        simp [msgStep, hmutex trivial]
  | discEnd c =>
    by_cases hclients : g.clients = []
    · simp [hclients]
    · simp [hclients]
  | shutLock b =>
    simp only [hpc] at hmutex
    simp [hmutex trivial]
  | _ => simp [hfree, hmap]

namespace LifeInv

variable {s s' : State}

theorem mapFree (h : LifeInv s) : s.hostView.mapFree = true := by
  refine List.all_eq_true.2 fun e he => ?_
  obtain ⟨g, hg, -⟩ := h.linked e he
  simp only [State.hostFree, hg]
  exact h.free _ g hg

theorem host_serves (h : LifeInv s) {k : HostPtr} {g : GameHost} (hg : s.hosts k = some g)
    (hun : g.pc ≠ .unstarted) {x : Waiter} (howes : 1 ≤ g.owes x) (hauth : ¬ g.WaitsForAuth)
    (hmutex : g.WantsMutex → s.mutex = none) : s.CanServe := by
  have hdel : g.pc ≠ .deleted := by
    intro hpc
    simp [GameHost.owes, GameHost.served, hpc, HostPc.closing, HostPc.serves] at howes
  have hq : g.pc = .idle → g.queue ≠ [] := by
    intro hpc hnil
    simp [GameHost.owes, GameHost.served, hpc, hnil, HostPc.serves] at howes
  have hsome := hostStep_isSome (h := k) (v := s.hostView) hun hdel hq (h.free k g hg) hauth
    hmutex h.mapFree
  obtain ⟨⟨g', eff⟩, hstep⟩ := Option.isSome_iff_exists.1 hsome
  exact ⟨.host k {}, trivial, by simp [GameServ.step, hg, hstep]⟩

/-- A loaded host can be started. -/
theorem start_serves {c : ConnId} {w : GameWorker} {k : HostPtr} (hw : s.workers c = some w)
    (hpc : w.pc = .startLoad k) : s.CanServe :=
  ⟨.worker c {}, ⟨w, k, hw, hpc⟩, by simp [GameServ.step, hw, workerStep, hpc]⟩

/-- An unstarted host that somebody else waits for is loaded. -/
theorem unstarted_serves (h : LifeInv s) {k : HostPtr} {g : GameHost} (hg : s.hosts k = some g)
    (hun : g.pc = .unstarted) {x : Waiter} (ha : s.awaits x = some k) (hzero : s.answers x = 0) :
    s.CanServe := by
  obtain ⟨c, w, hw, hs⟩ := h.starter k g hg hun
  by_cases hpub : w.pc.unpublished = some k
  · exfalso
    obtain ⟨-, hall, hd, -⟩ := h.own c w k hw hpub
    cases x with
    | authDaemon =>
      simp only [State.awaits] at ha
      split at ha
      · rename_i hd'
        cases ha
        exact hd hd'
      · cases ha
    | worker c₁ =>
      obtain ⟨w₁, hw₁, hwait, hm⟩ := AnswerInv.told_of_awaits ha
      have hnil : w₁.chan = [] := by
        simp only [State.answers, hw₁, hwait, if_true] at hzero
        exact List.length_eq_zero_iff.1 hzero
      have hc : c₁ = c := hall c₁ w₁ hw₁ (.inl ⟨hm, fun hend => by
        simp [hend, WorkerPc.hostWait] at hwait, fun hw' => hw'.2 hnil⟩)
      subst hc
      rw [hw] at hw₁
      cases hw₁
      cases hpc : w.pc <;> simp_all [WorkerPc.unpublished, WorkerPc.hostWait]
  · cases hpc : w.pc <;> simp_all [WorkerPc.starting, WorkerPc.unpublished]
    exact start_serves hw hpc

theorem daemonWait_serves (h : LifeInv s) {k : HostPtr} (hd : s.daemon = .waitHost k) :
    s.CanServe := by
  cases hchan : s.daemonChan with
  | cons ok rest => exact ⟨.daemon {}, trivial, by simp [GameServ.step, daemonStep, hd, hchan]⟩
  | nil =>
    have ha : s.awaits .authDaemon = some k := by simp only [State.awaits, hd]
    obtain ⟨g, hg, howed⟩ := h.owed .authDaemon k ha
    have hzero : s.answers .authDaemon = 0 := by simp only [State.answers, hchan, List.length_nil]
    obtain ⟨g₁, hg₁, hwill⟩ := h.wait.awaited k hd
    rw [hg] at hg₁
    cases hg₁
    obtain ⟨hauth, hmutex⟩ := (hwill hchan).not_blocked
    by_cases hun : g.pc = .unstarted
    · exact h.unstarted_serves hg hun ha hzero
    · exact h.host_serves hg hun (by omega : 1 ≤ g.owes .authDaemon) hauth
        fun hwant => absurd hwant hmutex

theorem mutex_serves (h : LifeInv s) (hmutex : MutexInv s) (hm : s.mutex ≠ none) : s.CanServe := by
  obtain ⟨holder, hm⟩ := Option.ne_none_iff_exists'.1 hm
  cases holder with
  | authDaemon =>
    obtain ⟨k, hd⟩ := hmutex.daemon hm
    exact h.daemonWait_serves hd
  | host k =>
    obtain ⟨g, c, ops, hg, hpc⟩ := hmutex.host k hm
    refine h.host_serves hg (by simp [hpc]) (x := .worker c) ?_ ?_ ?_
    · simp [GameHost.owes, hpc, HostPc.serves]
    · simp [GameHost.WaitsForAuth, hpc]
    · simp [GameHost.WantsMutex, hpc]

theorem auth_serves (h : LifeInv s) (hmutex : MutexInv s) (hne : s.authChan ≠ []) :
    s.CanServe := by
  cases hd : s.daemon with
  | idle =>
    obtain ⟨r, rest, hc⟩ := List.exists_cons_of_ne_nil hne
    refine ⟨.daemon {}, trivial, ?_⟩
    simp only [GameServ.step, daemonStep, hd, hc]
    cases r <;> rfl
  | waitHost k => exact h.daemonWait_serves hd
  | wantLock mcpId =>
    by_cases hm : s.mutex = none
    · refine ⟨.daemon {}, trivial, ?_⟩
      simp only [GameServ.step, daemonStep, hd, hm, ne_eq, not_true, if_false]
      cases s.find mcpId <;> rfl
    · exact h.mutex_serves hmutex hm
  | wantGlobal age =>
    by_cases hm : s.mutex = none
    · exact ⟨.daemon {}, trivial, by simp [GameServ.step, daemonStep, hd, hm]⟩
    · exact h.mutex_serves hmutex hm

/-- **While somebody waits for a host, the server can go on.** -/
theorem waiting_serves (h : LifeInv s) (hmutex : MutexInv s) {x : Waiter} {k : HostPtr}
    (ha : s.awaits x = some k) (hzero : s.answers x = 0) : s.CanServe := by
  obtain ⟨g, hg, howed⟩ := h.owed x k ha
  by_cases hun : g.pc = .unstarted
  · exact h.unstarted_serves hg hun ha hzero
  by_cases hauth : g.WaitsForAuth
  · -- Its request is on the auth channel.
    obtain ⟨hnone, hpc⟩ := hauth
    have hwaits : g.pc.authWait = true := by
      cases hg' : g.pc <;> simp_all [HostPc.authWait]
    have hasked := h.answers.asked (.host k)
    simp only [State.told, State.calls, hg, hnone, hwaits, if_true] at hasked
    refine h.auth_serves hmutex fun hnil => ?_
    simp [State.asked, hnil] at hasked
  by_cases hwant : g.WantsMutex ∧ s.mutex ≠ none
  · exact h.mutex_serves hmutex hwant.2
  · exact h.host_serves hg hun (by omega : 1 ≤ g.owes x) hauth fun hw => by
      by_contra hm
      exact hwant ⟨hw, hm⟩

end LifeInv

/-! ## How much there is to do -/

/-- How many steps are left of a host's handler, counting those of the messages
and requests that it puts. -/
def HostPc.work : HostPc → Nat
  | .unstarted => 1
  | .idle => 0
  | .joinCall _ => 4
  | .joinWait _ => 2
  | .joinDone .. => 1
  | .discStart _ => 11
  | .discCall _ => 10
  | .discWait _ => 8
  | .discEnd _ => 7
  | .discReply _ => 1
  | .msg _ ops => 3 * ops.length + 1
  | .msgWait _ ops => 3 * ops.length + 2
  | .msgHold _ ops => 3 * ops.length + 2
  | .sdlReply => 5
  | .sdlCall => 4
  | .sdlWait => 2
  | .bcast => 1
  | .shutClose _ => 4
  | .shutWait _ => 3
  | .shutLock _ => 2
  | .shutDelete _ => 1
  | .deleted => 0

def HostMsg.work (m : HostMsg) : Nat :=
  m.start.work + 1

def GameHost.work (g : GameHost) : Nat :=
  g.pc.work + (g.queue.map HostMsg.work).sum

/-- A request on the auth channel, among `n` hosts. -/
def AuthReq.work (n : Nat) : AuthReq → Nat
  | .clientUpdateSdl _ => 9
  | .updateGlobalSDL _ => 2 * n + 2
  | _ => 1

def DaemonPc.work (n : Nat) : DaemonPc → Nat
  | .idle => 0
  | .waitHost _ => 1
  | .wantLock _ => 8
  | .wantGlobal _ => 2 * n + 1

def State.hostWork (s : State) (h : HostPtr) : Nat :=
  (s.hosts h).elim 0 GameHost.work

def State.hostsWork (s : State) : Nat :=
  (Finset.range s.nextHost).sum s.hostWork

def State.work (s : State) : Nat :=
  s.hostsWork + (s.authChan.map (AuthReq.work s.nextHost)).sum + s.daemon.work s.nextHost

theorem HostMove.work {h : HostPtr} {v : HostView} {g g' : GameHost} {eff : HostEffect} (n : Nat)
    (hmove : HostMove h v g g' eff) :
    g'.work + (eff.auth.toList.map (AuthReq.work n)).sum < g.work := by
  cases hmove with
  | @take m rest hpc hq =>
    simp only [GameHost.work, hpc, hq, HostPc.work, List.map_cons, List.sum_cons, HostMsg.work,
      Option.toList_none, List.map_nil, List.sum_nil]
    omega
  | discPost hpc hempty =>
    simp only [GameHost.work, hpc, HostPc.work, HostMsg.work, HostMsg.start, List.map_append,
      List.map_cons, List.map_nil, List.sum_append, List.sum_cons, List.sum_nil, Option.toList_none]
    omega
  | _ hpc =>
    simp only [GameHost.work, hpc, HostPc.work, AuthReq.work, Option.toList_none,
      Option.toList_some, List.map_cons, List.map_nil, List.sum_cons, List.sum_nil,
      List.length_cons, List.length_nil]
    omega

/-- The work of the hosts, where one has less of it. -/
theorem hostsWork_lt {s s' : State} {k : HostPtr} {d : Nat} (hnext : s'.nextHost = s.nextHost)
    (hk : k < s.nextHost) (hself : s'.hostWork k + d < s.hostWork k)
    (hother : ∀ j, j ≠ k → s'.hostWork j ≤ s.hostWork j) : s'.hostsWork + d < s.hostsWork := by
  have hmem : k ∈ Finset.range s.nextHost := Finset.mem_range.2 hk
  unfold State.hostsWork
  rw [hnext, ← Finset.add_sum_erase _ s'.hostWork hmem, ← Finset.add_sum_erase _ s.hostWork hmem]
  have hrest := Finset.sum_le_sum (s := (Finset.range s.nextHost).erase k) (f := s'.hostWork)
    fun j hj => hother j (Finset.ne_of_mem_erase hj)
  omega

/-- The work of the hosts, where each has at most `d` more of it than before. -/
theorem hostsWork_le (s s' : State) (d : HostPtr → Nat) (hnext : s'.nextHost = s.nextHost)
    (hle : ∀ j, s'.hostWork j ≤ s.hostWork j + d j) :
    s'.hostsWork ≤ s.hostsWork + (Finset.range s.nextHost).sum d := by
  unfold State.hostsWork
  rw [hnext, ← Finset.sum_add_distrib]
  exact Finset.sum_le_sum fun j _ => hle j

theorem put_hostWork {s s' : State} {h : HostPtr} {m : HostMsg} {d : Nat}
    (hs' : s'.hosts h = (s.hosts h).map (HostAct.put m).run) (hd : m.work ≤ d) :
    s'.hostWork h ≤ s.hostWork h + d := by
  unfold State.hostWork
  rw [hs']
  cases s.hosts h with
  | none => exact Nat.zero_le _
  | some g =>
    simp only [Option.map_some, Option.elim_some, GameHost.work, HostAct.run, List.map_append,
      List.map_cons, List.map_nil, List.sum_append, List.sum_cons, List.sum_nil]
    omega

theorem daemon_work {s s' : State} (hmove : DaemonMove s s') : s'.work < s.work := by
  cases hmove with
  | @host r k rest ok hd hc hr =>
    have hsame : (({ s with authChan := rest } : State).answerHost k ok).hostWork = s.hostWork := by
      funext j
      simp only [State.hostWork, State.answerHost, State.modifyHost]
      cases s.hosts j with
      | none => rfl
      | some g =>
        simp only [Option.map_some, Option.elim_some]
        split <;> rfl
    have hle : (({ s with authChan := rest } : State).answerHost k ok).hostsWork ≤ s.hostsWork := by
      have hsum := hostsWork_le s (({ s with authChan := rest } : State).answerHost k ok)
        (fun _ => 0) rfl fun j => Nat.le_of_eq (congrFun hsame j)
      simpa using hsum
    have hwork : AuthReq.work s.nextHost r = 1 := by rcases hr with rfl | rfl <;> rfl
    show _ + (rest.map (AuthReq.work s.nextHost)).sum + s.daemon.work s.nextHost < _
    simp only [State.work, hc, List.map_cons, List.sum_cons, hwork]
    omega
  | @worker r c rest ok hd hc hr =>
    have hwork : AuthReq.work s.nextHost r = 1 := by rcases hr with rfl | rfl | rfl <;> rfl
    show s.hostsWork + (rest.map (AuthReq.work s.nextHost)).sum + s.daemon.work s.nextHost < _
    simp only [State.work, hc, List.map_cons, List.sum_cons, hwork]
    omega
  | @client r rest hd hc hr =>
    have hwork : r.daemonPc.work s.nextHost < AuthReq.work s.nextHost r := by
      cases r <;> simp [AuthReq.daemonPc, DaemonPc.work, AuthReq.work]
    show s.hostsWork + (rest.map (AuthReq.work s.nextHost)).sum + r.daemonPc.work s.nextHost < _
    simp only [State.work, hd, hc, List.map_cons, List.sum_cons]
    omega
  | miss hd hm hfind =>
    show s.hostsWork + (s.authChan.map _).sum + 0 < _
    simp only [State.work, hd, DaemonPc.work]
    omega
  | @forward mcpId k hd hm hfind =>
    have hle : (s.modifyHost k (HostAct.put .localSdl).run).hostsWork ≤ s.hostsWork + 6 := by
      have hsum := hostsWork_le s (s.modifyHost k (HostAct.put .localSdl).run)
        (fun j => if j = k then 6 else 0) rfl fun j => ?_
      · rw [Finset.sum_ite_eq'] at hsum
        split at hsum <;> omega
      · by_cases hj : j = k
        · rw [if_pos hj]
          refine put_hostWork (s := s) (m := .localSdl) ?_ (Nat.le_refl _)
          simp only [State.modifyHost, hj, if_true]
        · rw [if_neg hj]
          refine Nat.le_of_eq ?_
          simp only [State.hostWork, State.modifyHost, if_neg hj]
          cases s.hosts j <;> rfl
    show (s.modifyHost k (HostAct.put .localSdl).run).hostsWork +
      (s.authChan.map (AuthReq.work s.nextHost)).sum + 1 < _
    simp only [State.work, hd, DaemonPc.work]
    omega
  | back hd hr =>
    show s.hostsWork + (s.authChan.map _).sum + 0 < _
    simp only [State.work, hd, DaemonPc.work]
    omega
  | @global age hd hm =>
    have hle : (s.putAll (fun g => g.ageFilename = age) .globalSdl).hostsWork ≤
        s.hostsWork + s.nextHost * 2 := by
      have hsum := hostsWork_le s (s.putAll (fun g => g.ageFilename = age) .globalSdl)
        (fun _ => 2) rfl fun j => ?_
      · rwa [Finset.sum_const, Finset.card_range, smul_eq_mul] at hsum
      · simp only [State.hostWork, State.putAll]
        cases s.hosts j with
        | none => exact Nat.zero_le _
        | some g =>
          simp only [Option.map_some, Option.elim_some]
          split
          · show g.pc.work + ((g.queue ++ [HostMsg.globalSdl]).map HostMsg.work).sum ≤ _
            rw [List.map_append, List.sum_append]
            show _ + (_ + 2) ≤ _
            simp only [GameHost.work]
            omega
          · omega
    show (s.putAll (fun g => g.ageFilename = age) .globalSdl).hostsWork +
      (s.authChan.map (AuthReq.work s.nextHost)).sum + 0 < _
    simp only [State.work, hd, DaemonPc.work]
    omega

/-- **A step of the server's threads is work done.** -/
theorem serves_work {s s' : State} {e : Event} (h : LifeInv s) (hok : StepOk s e)
    (hserves : s.Serves e) (hs : step s e = some s') : s'.work < s.work := by
  have hfresh := h.answers.start.fresh
  cases e with
  | daemon ch => exact daemon_work (daemonStep_move hs)
  | host k ch =>
    obtain ⟨g, hg, hs⟩ := Option.bind_eq_some_iff.1 hs
    obtain ⟨⟨g', eff⟩, hstep, hs⟩ := Option.bind_eq_some_iff.1 hs
    cases hs
    have hwork := (hostStep_move hstep).work s.nextHost
    have hk : k < s.nextHost := by
      by_contra hle
      rw [hfresh k (Nat.le_of_not_lt hle)] at hg
      cases hg
    have hlt : (s.applyHost k g' eff).hostsWork +
        (eff.auth.toList.map (AuthReq.work s.nextHost)).sum < s.hostsWork := by
      refine hostsWork_lt rfl hk ?_ fun j hj => ?_
      · simpa only [State.hostWork, State.applyHost, Function.update_self, hg, Option.elim_some]
          using hwork
      · simp only [State.hostWork, State.applyHost, Function.update_of_ne hj]
        exact Nat.le_refl _
    show _ + ((s.authChan ++ eff.auth.toList).map (AuthReq.work s.nextHost)).sum +
      s.daemon.work s.nextHost < _
    rw [List.map_append, List.sum_append]
    simp only [State.work]
    omega
  | worker c ch =>
    obtain ⟨w, k, hw, hpc⟩ := hserves
    obtain ⟨g, hg, hun⟩ := h.answers.start.starting c w k hw (by rw [hpc]; rfl)
    have hk : k < s.nextHost := by
      by_contra hle
      rw [hfresh k (Nat.le_of_not_lt hle)] at hg
      cases hg
    have hload : ch.ok = true := (hok w hw).2 k hpc
    simp only [step, hw, workerStep, hpc, hload, if_true, Option.bind_eq_bind, Option.bind_some,
      Option.some.injEq] at hs
    subst hs
    have hlt : (s.applyWorker c { w with pc := .found k } { act := some (k, .start) }).hostsWork +
        0 < s.hostsWork := by
      refine hostsWork_lt rfl hk ?_ fun j hj => ?_
      · simp [State.hostWork, State.applyWorker, State.allocated, hg, WorkerEffect.onHost,
          GameHost.work, HostAct.run, hun, HostPc.work]
      · have hne : k ≠ j := fun h => hj h.symm
        simp only [State.hostWork, State.applyWorker, State.allocated]
        cases s.hosts j with
        | none => exact Nat.le_refl _
        | some g₁ => simp [WorkerEffect.onHost, hne]
    show _ + ((s.authChan ++ []).map (AuthReq.work s.nextHost)).sum +
      s.daemon.work s.nextHost < _
    rw [List.append_nil]
    simp only [State.work]
    omega
  | _ => exact hserves.elim

/-! ## The result -/

/-- What the lifetime of hosts and their answers to senders should be. -/
structure LifetimeSafe (s : State) : Prop where
  /-- Who waits for a host's reply has it, or will be put one by this host. -/
  answered : ∀ x k, s.awaits x = some k →
    ∃ g, s.hosts k = some g ∧ g.owes x + s.answers x = 1
  /-- No host puts a reply that nobody waits for. -/
  unasked : ∀ x k g, s.hosts k = some g → s.awaits x ≠ some k → g.owes x = 0
  /-- A host shuts down by itself only when no client is attached to it. -/
  empty : ∀ k g, s.hosts k = some g → g.EmptyAge → g.clients = [] ∧ s.Deserted k
  /-- No worker uses a host that was deleted, -/
  held : ∀ c w k, s.workers c = some w → w.Holds k → ∃ g, s.hosts k = some g ∧ g.pc ≠ .deleted
  /-- and none can look one up. -/
  linked : ∀ e ∈ s.gameHosts, ∃ g, s.hosts e.2 = some g ∧ g.pc ≠ .deleted

theorem LifeInv.safe {s : State} (h : LifeInv s) : LifetimeSafe s where
  answered x k ha := by
    obtain ⟨g, hg, hone⟩ := h.owed x k ha
    have honce := h.answers.once x k g hg
    exact ⟨g, hg, by omega⟩
  unasked := h.answers.owed
  empty k g hg he := by
    refine ⟨h.empty k g hg he, fun c w hw hh => ?_⟩
    by_contra hne
    obtain ⟨g₁, hg₁, hclosing⟩ := h.held c w k hw hh hne
    rw [hg] at hg₁
    cases hg₁
    exact LifeInv.GameHost.not_emptyAge hclosing he
  held c w k hw hh := h.holds_exists hw hh
  linked e he := by
    obtain ⟨g, hg, -, hdel⟩ := h.linked e he
    exact ⟨g, hg, hdel⟩

/-- A step that meets the condition, of one of the server's threads. -/
def ServeOk (s : State) (e : Event) : Prop :=
  StepOk s e ∧ s.Serves e

/-- The server's threads do not run for ever without new events. -/
theorem serving_run {s s' : State} {es : List Event} (h : LifeInv s) (hmutex : MutexInv s)
    (hok : machine.OkRun ServeOk s es) (hrun : machine.run s es = some s') :
    LifeInv s' ∧ MutexInv s' ∧ es.length + s'.work ≤ s.work := by
  induction es generalizing s with
  | nil =>
    cases hrun
    exact ⟨h, hmutex, by simp⟩
  | cons e es ih =>
    obtain ⟨⟨hstep, hserves⟩, hrest⟩ := hok
    obtain ⟨s₁, hs₁, hrun⟩ := Option.bind_eq_some_iff.1 hrun
    simp only [hs₁] at hrest
    have hlt := serves_work h hstep hserves hs₁
    obtain ⟨h', hmutex', hle⟩ :=
      ih (h.step hstep hs₁) (hmutex.step h.answers.start hs₁) hrest hrun
    refine ⟨h', hmutex', ?_⟩
    rw [List.length_cons]
    omega

/-- **The lifetime of a host.**  In a run whose steps all meet the condition,
who waits for a host is owed one reply, hosts shut down by themselves only when
nobody is attached, and nobody meets a deleted host.  If then the server's
threads go on for as long as they can, they stop, and every sender has its
reply. -/
theorem host_lifetime {s : State} (h : machine.ReachableWith StepOk s) :
    LifetimeSafe s ∧ ∀ es s', machine.OkRun ServeOk s es → machine.run s es = some s' →
      es.length ≤ s.work ∧ LifetimeSafe s' ∧
        (¬ s'.CanServe → ∀ x k, s'.awaits x = some k → s'.answers x = 1) := by
  have hboth : ∀ s, machine.ReachableWith StepOk s → LifeInv s ∧ MutexInv s := by
    intro s h
    induction h with
    | start hs =>
      cases hs
      exact ⟨.initial, .initial⟩
    | step _ hok hs ih => exact ⟨ih.1.step hok hs, ih.2.step ih.1.answers.start hs⟩
  obtain ⟨hinv, hmutex⟩ := hboth s h
  refine ⟨hinv.safe, fun es s' hok hrun => ?_⟩
  obtain ⟨hinv', hmutex', hle⟩ := serving_run hinv hmutex hok hrun
  refine ⟨by omega, hinv'.safe, fun hstuck x k ha => ?_⟩
  have hfew := hinv'.answers.few x
  by_contra hne
  exact hstuck (hinv'.waiting_serves hmutex' ha (by omega))

/-- The host handles the join, and the player gets into the age. -/
def joinHandled : List Event :=
  [.host 0 {}, .host 0 {}, .daemon {}, .host 0 {}, .host 0 {}, .worker 0 {}, .worker 0 {}]

/-- The player leaves. -/
def leave : List Event :=
  [.hangup 0, .worker 0 {}, .worker 0 {}]

/-- A step at which the condition has nothing to ask. -/
def State.quiet (s : State) : Event → Bool
  | .host h _ => match s.hosts h with
    | some g => match g.pc with
      | .discEnd _ => false
      | .msg _ (.members :: _) => false
      | _ => true
    | none => true
  | .worker c ch => match s.workers c with
    | some w => match w.pc with
      | .lookup mcpId => (s.find mcpId).isNone
      | .startLoad _ => ch.ok
      | _ => true
    | none => true
  | .daemon _ => match s.daemon with
    | .wantLock _ => false
    | _ => true
  | .serverShutdown => s.gameHosts.isEmpty
  | _ => true

theorem stepOk_of_quiet (s : State) (e : Event) (h : s.quiet e = true) : StepOk s e := by
  cases e with
  | host k ch =>
    intro g hg
    simp only [State.quiet, hg] at h
    refine ⟨fun c hpc => ?_, fun c ops hpc => ?_⟩
    · simp [hpc] at h
    · simp [hpc] at h
  | worker c ch =>
    intro w hw
    simp only [State.quiet, hw] at h
    refine ⟨fun mcpId k g hpc hfind => ?_, fun k hpc => ?_⟩
    · simp [hpc, hfind] at h
    · simpa [hpc] using h
  | daemon c =>
    show ForwardOk s (.daemon c)
    cases hd : s.daemon with
    | wantLock mcpId => simp [State.quiet, hd] at h
    | idle | waitHost _ | wantGlobal => simp [ForwardOk, hd]
  | serverShutdown =>
    intro e he
    simp only [State.quiet, List.isEmpty_iff] at h
    rw [h] at he
    cases he
  | _ => trivial

/-- Only `accept` starts a worker. -/
theorem step_workers_none {s s' : State} {e : Event} {c : ConnId} (hs : step s e = some s')
    (he : e ≠ .accept c) (hc : s.workers c = none) : s'.workers c = none := by
  have happly : ∀ {c' : ConnId} {w w' : GameWorker} {eff : WorkerEffect},
      s.workers c' = some w → (s.applyWorker c' w' eff).workers c = none := by
    intro c' w w' eff hw
    have hne : c ≠ c' := by
      rintro rfl
      cases hc.symm.trans hw
    exact (Function.update_of_ne hne ..).trans hc
  cases step_case hs with
  | @accept c' hw =>
    have hne : c ≠ c' := by
      rintro rfl
      exact he rfl
    exact (Function.update_of_ne hne ..).trans hc
  | recv hw => exact happly hw
  | worker hw => exact happly hw
  | host hg hmove =>
    show (s.workers c).map _ = none
    rw [hc]
    rfl
  | daemon hmove =>
    cases hmove with
    | worker =>
      show (s.workers c).map _ = none
      rw [hc]
      rfl
    | _ => exact hc
  | authRequest hr => exact hc
  | serverShutdown hm => exact hc

theorem run_workers_none {s s' : State} {es : List Event} {c : ConnId}
    (hs : machine.run s es = some s') (hes : ∀ e ∈ es, e ≠ .accept c) (hc : s.workers c = none) :
    s'.workers c = none := by
  induction es generalizing s with
  | nil =>
    cases hs
    exact hc
  | cons e es ih =>
    obtain ⟨s₁, hs₁, hrest⟩ := Option.bind_eq_some_iff.1 hs
    exact ih hrest (fun e' he' => hes e' (List.mem_cons_of_mem _ he'))
      (step_workers_none hs₁ (hes e List.mem_cons_self) hc)

/-- A player gets into an age that nobody was in, and leaves it, up to where the host finds that
it is empty. -/
def leaving : List Event :=
  joinNewAge ++ joinHandled ++ leave ++
    [.host 0 {}, .host 0 {}, .host 0 {}, .daemon {}, .host 0 {}]

/-- The worker gets its reply, and the host shuts down. -/
def shutDown : List Event :=
  [.host 0 {}, .worker 0 {}, .host 0 {}, .host 0 {}, .host 0 {}, .host 0 {}, .host 0 {}]

/-- The whole life of a host. -/
theorem host_lifetime_leave : ∃ s,
    machine.run .initial (leaving ++ .host 0 {} :: shutDown) = some s ∧
      (s.workers 0).map (·.pc) = some .ended ∧ (s.hosts 0).map (·.pc) = some .deleted ∧
      s.gameHosts = [] ∧ LifetimeSafe s := by
  have hok : machine.OkRun StepOk .initial leaving :=
    Lib.Machine.okRun_of_allRun stepOk_of_quiet (by decide)
  obtain ⟨s₁, hrun₁, hs₁⟩ := (Lib.Machine.ReachableWith.start (M := machine) rfl).run hok
  have hat : (machine.run .initial leaving).map (fun s => ((s.workers 0).map (·.pc),
      (s.hosts 0).map (·.pc))) = some (some .waitDisc, some (.discEnd 0)) := by decide
  have hafter : (machine.run .initial leaving).bind (fun s => (machine.step s (.host 0 {})).map
      fun s => machine.allRun State.quiet s shutDown) = some true := by decide
  have hend : (machine.run .initial (leaving ++ .host 0 {} :: shutDown)).map (fun s =>
      ((s.workers 0).map (·.pc), (s.hosts 0).map (·.pc), s.gameHosts)) =
        some (some .ended, some .deleted, []) := by decide
  rw [hrun₁, Option.map_some, Option.some.injEq, Prod.mk.injEq] at hat
  rw [hrun₁, Option.bind_some] at hafter
  obtain ⟨s₂, hstep, hquiet⟩ := Option.map_eq_some_iff.1 hafter
  -- only the worker that waits for the reply uses the host
  have hdeserted : StepOk s₁ (.host 0 {}) := by
    intro g hg
    rw [hg] at hat
    refine ⟨fun c _ _ c' w hw _ => ?_, fun c ops hpc => ?_⟩
    · by_cases hc : c' = 0
      · rw [hc] at hw
        rw [hw] at hat
        exact Option.some.inj hat.1
      · have hnone := run_workers_none hrun₁ (c := c') (fun e he heq => hc ?_) rfl
        · cases hnone.symm.trans hw
        · subst heq
          revert he
          simp [leaving, joinNewAge, joinHandled, leave]
    · cases hpc.symm.trans (Option.some.inj hat.2)
  have hs₂ := hs₁.step hdeserted hstep
  obtain ⟨s, hrun, hs⟩ := hs₂.run (Lib.Machine.okRun_of_allRun stepOk_of_quiet hquiet)
  have hall : machine.run .initial (leaving ++ .host 0 {} :: shutDown) = some s := by
    rw [Lib.Machine.run_append, hrun₁, Option.bind_some, Lib.Machine.run, hstep]
    exact hrun
  rw [hall, Option.map_some, Option.some.injEq, Prod.mk.injEq, Prod.mk.injEq] at hend
  exact ⟨s, hall, hend.1, hend.2.1, hend.2.2, (host_lifetime hs).1⟩

/-- **A join behind the shutdown.**  A player asks for the age while the last
one is leaving, and its join is put behind the shutdown: nobody answers it. -/
theorem join_behind_shutdown : ¬ ∀ s, machine.Reachable s → LifetimeSafe s := by
  intro hall
  have hend : (machine.run .initial (joinNewAge ++ joinHandled ++ leave ++
      [.accept 1, .recvJoin 1 1 8, .worker 1 {}, .worker 1 {}, .daemon {}, .host 0 {}, .host 0 {},
        .host 0 {}, .daemon {}, .host 0 {}, .host 0 {}, .worker 1 {}])).map (fun s =>
          (s.awaits (.worker 1), (s.hosts 0).map fun g => g.owes (.worker 1) +
            s.answers (.worker 1))) = some (some 0, some 0) := by decide
  obtain ⟨s, hrun, hs⟩ := Option.map_eq_some_iff.1 hend
  simp only [Prod.mk.injEq] at hs
  obtain ⟨ha, hhost⟩ := hs
  have hreach := Lib.Machine.run_reachable (.start rfl) hrun
  obtain ⟨g, hg, hone⟩ := (hall s hreach).answered (.worker 1) 0 ha
  rw [hg, Option.map_some, hone] at hhost
  cases hhost

end Dirtsand.GameServ
