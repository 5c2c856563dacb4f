import Dirtsand.GameServ.OneHost

/-!
# Where the callers are

A worker that waits for a host says by its program counter for what; a host in
`dm_game_join` has asked the auth daemon about this join and nothing else.

* `CallInv` — whom a host has to answer waits for an answer of that kind.
* `RequestInv` — while a host waits for the answer to a join, it has no other
  request on the auth channel.
-/

namespace Dirtsand.GameServ

/-- Whom the handler of a message answers, and where that worker is. -/
def HostMsg.call : HostMsg → Option (ConnId × WorkerPc)
  | .join c => some (c, .waitJoin)
  | .propagate c _ => some (c, .waitMsg)
  | .disconnect c => some (c, .waitDisc)
  | _ => none

def HostPc.call : HostPc → Option (ConnId × WorkerPc)
  | .joinCall c => some (c, .waitJoin)
  | .joinWait c => some (c, .waitJoin)
  | .joinDone c _ => some (c, .waitJoin)
  | .discStart c => some (c, .waitDisc)
  | .discCall c => some (c, .waitDisc)
  | .discWait c => some (c, .waitDisc)
  | .discEnd c => some (c, .waitDisc)
  | .discReply c => some (c, .waitDisc)
  | .msg c _ => some (c, .waitMsg)
  | .msgWait c _ => some (c, .waitMsg)
  | .msgHold c _ => some (c, .waitMsg)
  | _ => none

/-- The host has a message of `c` before it, or under way. -/
def GameHost.Calls (g : GameHost) (c : ConnId) (pc : WorkerPc) : Prop :=
  (∃ m ∈ g.served, m.call = some (c, pc)) ∨ g.pc.call = some (c, pc)

theorem HostMsg.call_waiter {m : HostMsg} {c : ConnId} {pc : WorkerPc} (h : m.call = some (c, pc)) :
    m.waiter = some (.worker c) := by
  cases m <;> simp_all [HostMsg.call, HostMsg.waiter]

theorem HostPc.call_serves {hpc : HostPc} {c : ConnId} {pc : WorkerPc}
    (h : hpc.call = some (c, pc)) : hpc.serves = some (.worker c) := by
  cases hpc <;> simp_all [HostPc.call, HostPc.serves]

theorem HostMsg.call_start (m : HostMsg) : m.start.call = m.call := by
  cases m <;> rfl

theorem GameHost.Calls.owes {g : GameHost} {c : ConnId} {pc : WorkerPc} (h : g.Calls c pc) :
    1 ≤ g.owes (.worker c) := by
  unfold GameHost.owes
  obtain ⟨m, hm, hcall⟩ | hcall := h
  · have hpos : 0 < g.served.countP fun m => m.waiter = some (.worker c) :=
      List.countP_pos_iff.2 ⟨m, hm, by simpa using HostMsg.call_waiter hcall⟩
    omega
  · rw [if_pos (HostPc.call_serves hcall)]
    omega

theorem takeWhile_shutdown (q : List HostMsg) (b : Bool) :
    (q ++ [HostMsg.shutdown b]).takeWhile (fun m => !m.isShutdown) =
      q.takeWhile fun m => !m.isShutdown := by
  have hshut : (HostMsg.shutdown b).isShutdown = true := rfl
  rw [takeWhile_open, hshut, Bool.true_or, if_pos rfl, List.append_nil]

/-- A host gets no new calls by what it does. -/
theorem HostMove.calls_of {h : HostPtr} {v : HostView} {g g' : GameHost} {eff : HostEffect}
    {c : ConnId} {pc : WorkerPc} (hmove : HostMove h v g g' eff) (hcalls : g'.Calls c pc) :
    g.Calls c pc := by
  cases hmove with
  | @take m rest hpc hq =>
    by_cases hshut : m.isShutdown = true
    · have hclosing : m.start.closing = true ∧ m.start.call = none := by
        cases m <;> simp_all [HostMsg.isShutdown, HostMsg.start, HostPc.closing, HostPc.call]
      obtain ⟨m', hm', -⟩ | hcall := hcalls
      · simp [GameHost.served, hclosing.1] at hm'
      · rw [hclosing.2] at hcall
        cases hcall
    · have hserved : g.served = m :: rest.takeWhile fun m => !m.isShutdown := by
        simp [GameHost.served, hpc, hq, HostPc.closing, hshut]
      have hopen : m.start.closing = false := by
        cases m <;> simp_all [HostMsg.isShutdown, HostMsg.start, HostPc.closing]
      left
      rw [hserved]
      obtain ⟨m', hm', hcall⟩ | hcall := hcalls
      · simp only [GameHost.served, hopen, Bool.false_eq_true, if_false] at hm'
        exact ⟨m', List.mem_cons_of_mem _ hm', hcall⟩
      · exact ⟨m, List.mem_cons_self, (HostMsg.call_start m).symm.trans hcall⟩
  | discPost hpc hempty =>
    obtain ⟨m', hm', hcall⟩ | hcall := hcalls
    · left
      refine ⟨m', ?_, hcall⟩
      simp only [GameHost.served, HostPc.closing, Bool.false_eq_true, if_false,
        takeWhile_shutdown] at hm'
      simpa [GameHost.served, hpc, HostPc.closing] using hm'
    · right
      simpa [HostPc.call, hpc] using hcall
  | _ hpc =>
    obtain ⟨m', hm', hcall⟩ | hcall := hcalls
    · left
      refine ⟨m', ?_, hcall⟩
      simp_all [GameHost.served, HostPc.closing]
    · simp_all [GameHost.Calls, HostPc.call]

/-- What a worker puts on a host's channel calls it to where it goes itself. -/
theorem WorkerMove.put_call {c : ConnId} {v : WorkerView} {w w' : GameWorker} {eff : WorkerEffect}
    {h : HostPtr} {m : HostMsg} (hmove : WorkerMove c v w w' eff)
    (hact : eff.act = some (h, .put m)) : m.call = some (c, w'.pc) := by
  cases hmove <;> simp_all
  all_goals
    obtain ⟨rfl, rfl⟩ := hact
    rfl

theorem GameHost.calls_put {g : GameHost} {m : HostMsg} {c : ConnId} {pc : WorkerPc}
    (hcalls : ((HostAct.put m).run g).Calls c pc) : g.Calls c pc ∨ m.call = some (c, pc) := by
  obtain ⟨m', hm', hcall⟩ | hcall := hcalls
  · rw [GameHost.served_put] at hm'
    obtain hm' | hm' := List.mem_append.1 hm'
    · exact .inl (.inl ⟨m', hm', hcall⟩)
    · split at hm'
      · cases hm'
      · rw [List.mem_singleton.1 hm'] at hcall
        exact .inr hcall
  · exact .inl (.inr hcall)

/-- A host without a thread calls nobody once it is started or freed. -/
theorem HostAct.run_calls {act : HostAct} {g : GameHost} {c : ConnId} {pc : WorkerPc}
    (hput : ∀ m, act ≠ .put m) (hcalls : (act.run g).Calls c pc)
    (hact : (act ≠ .start ∧ act ≠ .free) ∨ g.pc = .unstarted) : g.Calls c pc := by
  cases act with
  | put m => exact absurd rfl (hput m)
  | insert playerId c => exact hcalls
  | erase playerId => exact hcalls
  | start =>
    obtain ⟨hne, -⟩ | hpc := hact
    · exact absurd rfl hne
    · obtain ⟨m, hm, hcall⟩ | hcall := hcalls
      · left
        refine ⟨m, ?_, hcall⟩
        simpa [GameHost.served, HostAct.run, HostPc.closing, hpc] using hm
      · cases hcall
  | free =>
    obtain ⟨-, hne⟩ | hpc := hact
    · exact absurd rfl hne
    · obtain ⟨m, hm, -⟩ | hcall := hcalls
      · simp [GameHost.served, HostAct.run, HostPc.closing] at hm
      · cases hcall

/-- A call of a host after a worker's move was there before, or the worker makes
it. -/
theorem State.applyWorker_calls {s : State} {c : ConnId} {w w' : GameWorker} {eff : WorkerEffect}
    {k : HostPtr} {g' : GameHost} {c₁ : ConnId} {pc : WorkerPc} (hstart : StartInv s)
    (hw : s.workers c = some w) (hmove : WorkerMove c s.workerView w w' eff)
    (hg' : (s.applyWorker c w' eff).hosts k = some g') (hcalls : g'.Calls c₁ pc) :
    ∃ g, s.hosts k = some g ∧ g' = eff.onHost k g ∧
      (g.Calls c₁ pc ∨ ∃ m, eff.act = some (k, .put m) ∧ m.call = some (c₁, pc)) := by
  obtain ⟨-, -, -, hq, hpc, -⟩ | ⟨g, hg, rfl⟩ := State.applyWorker_hosts hmove hg'
  · obtain ⟨m, hm, -⟩ | hcall := hcalls
    · simp [GameHost.served, hq] at hm
    · rw [hpc] at hcall
      cases hcall
  refine ⟨g, hg, rfl, ?_⟩
  unfold WorkerEffect.onHost at hcalls
  split at hcalls
  · rename_i k' act hact
    split at hcalls
    · rename_i hk
      subst hk
      cases hput : act with
      | put m =>
        subst hput
        obtain hold | hnew := GameHost.calls_put hcalls
        · exact .inl hold
        · exact .inr ⟨m, hact, hnew⟩
      | _ =>
        left
        refine HostAct.run_calls (by simp [hput]) hcalls ?_
        obtain hok | hstarting := hmove.act_starting hact
        · exact .inl hok
        · obtain ⟨g₁, hg₁, hun⟩ := hstart.starting c w k' hw hstarting
          rw [hg] at hg₁
          cases hg₁
          exact .inr hun
    · exact .inl hcalls
  · exact .inl hcalls

/-! ### Where the callers are -/

/-- Who a host answers waits where the message says. -/
def CallInv (s : State) : Prop :=
  ∀ h g c w pc, s.hosts h = some g → s.workers c = some w → g.Calls c pc → w.pc = pc

/-- A call that is not answered yet. -/
theorem AnswerInv.caller {s : State} (h : AnswerInv s) {k : HostPtr} {g : GameHost} {c : ConnId}
    {pc : WorkerPc} (hg : s.hosts k = some g) (hcalls : g.Calls c pc) :
    ∃ w, s.workers c = some w ∧ w.pc.hostWait = true ∧ w.mHost = some k ∧ w.chan = [] := by
  have howes := hcalls.owes
  have hawaits : s.awaits (.worker c) = some k := by
    by_contra hne
    have hzero := h.owed _ k g hg hne
    omega
  obtain ⟨w, hw, hwait, hm⟩ := AnswerInv.told_of_awaits hawaits
  refine ⟨w, hw, hwait, hm, ?_⟩
  have honce := h.once (.worker c) k g hg
  simp only [State.answers, hw, hwait, if_true] at honce
  exact List.length_eq_zero_iff.1 (by omega)

namespace CallInv

variable {s s' : State}

/-- A step that calls nobody and moves no worker. -/
theorem still (h : CallInv s)
    (hhosts : ∀ k g', s'.hosts k = some g' → ∃ g, s.hosts k = some g ∧
      ∀ c pc, g'.Calls c pc → g.Calls c pc)
    (hworkers : ∀ c w', s'.workers c = some w' → ∃ w, s.workers c = some w ∧ w'.pc = w.pc) :
    CallInv s' := by
  intro k g' c w' pc hg' hw' hcalls
  obtain ⟨g, hg, hold⟩ := hhosts k g' hg'
  obtain ⟨w, hw, hpc⟩ := hworkers c w' hw'
  exact hpc.trans (h k g c w pc hg hw (hold c pc hcalls))

theorem put_still {m : HostMsg} (hm : m.call = none) (g : GameHost) (c : ConnId) (pc : WorkerPc)
    (hcalls : ((HostAct.put m).run g).Calls c pc) : g.Calls c pc := by
  obtain hold | hcall := GameHost.calls_put hcalls
  · exact hold
  · rw [hm] at hcall
    cases hcall

theorem worker {c : ConnId} {w w' : GameWorker} {eff : WorkerEffect} (h : CallInv s)
    (hans : AnswerInv s) (hw : s.workers c = some w) (hmove : WorkerMove c s.workerView w w' eff) :
    CallInv (s.applyWorker c w' eff) := by
  intro k g' c₁ w₁ pc hg' hw₁ hcalls
  obtain ⟨g, hg, -, hcase⟩ := State.applyWorker_calls hans.start hw hmove hg' hcalls
  obtain hold | ⟨m, hact, hcall⟩ := hcase
  · obtain ⟨rfl, rfl⟩ | ⟨-, hw₁⟩ := Lib.update_eq_some hw₁
    · obtain ⟨w₂, hw₂, hwait, -, hchan⟩ := hans.caller hg hold
      rw [hw] at hw₂
      cases hw₂
      -- The caller has no answer, and does not move.
      cases hmove.waits with
      | puts hno => simp [hwait] at hno
      | takes _ _ htake =>
        rw [hchan] at htake
        cases htake
      | other hno => simp [hwait] at hno
    · exact h k g c₁ w₁ pc hg hw₁ hold
  · rw [hmove.put_call hact, Option.some.injEq, Prod.mk.injEq] at hcall
    obtain ⟨rfl, rfl⟩ := hcall
    obtain ⟨-, rfl⟩ | ⟨hne, -⟩ := Lib.update_eq_some hw₁
    · rfl
    · exact absurd rfl hne

theorem daemon (h : CallInv s) (hmove : DaemonMove s s') : CallInv s' := by
  have hsame : ∀ k g', s.hosts k = some g' → ∃ g, s.hosts k = some g ∧
      ∀ c pc, g'.Calls c pc → g.Calls c pc := fun k g' hg' => ⟨g', hg', fun _ _ => id⟩
  have hkeep : ∀ c w', s.workers c = some w' → ∃ w, s.workers c = some w ∧ w'.pc = w.pc :=
    fun c w' hw' => ⟨w', hw', rfl⟩
  cases hmove with
  | host =>
    refine h.still (fun k g' hg' => ?_) hkeep
    obtain ⟨g, hg, rfl⟩ := Option.map_eq_some_iff.1 hg'
    refine ⟨g, hg, fun c pc hcalls => ?_⟩
    split at hcalls <;> exact hcalls
  | worker =>
    refine h.still hsame fun c w' hw' => ?_
    obtain ⟨w, hw, rfl⟩ := Option.map_eq_some_iff.1 hw'
    refine ⟨w, hw, ?_⟩
    split <;> rfl
  | forward =>
    refine h.still (fun k g' hg' => ?_) hkeep
    obtain ⟨g, hg, rfl⟩ := Option.map_eq_some_iff.1 hg'
    refine ⟨g, hg, fun c pc hcalls => ?_⟩
    split at hcalls
    · exact put_still rfl g c pc hcalls
    · exact hcalls
  | global =>
    refine h.still (fun k g' hg' => ?_) hkeep
    obtain ⟨g, hg, rfl⟩ := Option.map_eq_some_iff.1 hg'
    refine ⟨g, hg, fun c pc hcalls => ?_⟩
    split at hcalls
    · exact put_still (m := .globalSdl) rfl g c pc hcalls
    · exact hcalls
  | client | miss | back => exact h.still hsame hkeep

theorem step {e : Event} (h : CallInv s) (hans : AnswerInv s) (hs : GameServ.step s e = some s') :
    CallInv s' := by
  cases step_case hs with
  | @accept c hw =>
    intro k g c' w' pc hg hw' hcalls
    obtain ⟨rfl, rfl⟩ | ⟨-, hw'⟩ := Lib.update_eq_some hw'
    · obtain ⟨w, hw₁, -⟩ := hans.caller hg hcalls
      rw [hw] at hw₁
      cases hw₁
    · exact h k g c' w' pc hg hw' hcalls
  | recv hw _ hmove => exact h.worker hans hw hmove
  | worker hw _ hmove => exact h.worker hans hw hmove
  | @host k ch g g' eff hg hmove =>
    refine h.still (fun j g₁ hg₁ => ?_) fun c w' hw' => ?_
    · obtain ⟨rfl, rfl⟩ | ⟨-, hg₁⟩ := Lib.update_eq_some hg₁
      · exact ⟨g, hg, fun c pc => hmove.calls_of⟩
      · exact ⟨g₁, hg₁, fun _ _ => id⟩
    · obtain ⟨w, hw, rfl⟩ := Option.map_eq_some_iff.1 hw'
      exact ⟨w, hw, rfl⟩
  | daemon hmove => exact h.daemon hmove
  | authRequest => exact h.still (fun k g hg => ⟨g, hg, fun _ _ => id⟩) fun c w hw => ⟨w, hw, rfl⟩
  | serverShutdown =>
    refine h.still (fun k g' hg' => ?_) fun c w hw => ⟨w, hw, rfl⟩
    obtain ⟨g, hg, rfl⟩ := Option.map_eq_some_iff.1 hg'
    refine ⟨g, hg, fun c pc hcalls => ?_⟩
    split at hcalls
    · exact put_still (m := .shutdown false) rfl g c pc hcalls
    · exact hcalls

end CallInv

/-! ### What hosts ask the auth daemon -/

/-- A host in `dm_game_join` has no other request on the auth channel. -/
def RequestInv (s : State) : Prop :=
  ∀ h g c, s.hosts h = some g → g.pc = .joinWait c → .hostUpdateNode h ∉ s.authChan

theorem HostMove.to_joinWait {h : HostPtr} {v : HostView} {g g' : GameHost} {eff : HostEffect}
    {c : ConnId} (hmove : HostMove h v g g' eff) (hpc : g'.pc = .joinWait c) :
    g.pc = .joinCall c ∧ g'.authReply = g.authReply ∧ eff.auth = some (.updateAgeSrv h) := by
  cases hmove with
  | @take m rest => cases m <;> simp_all [HostMsg.start]
  | _ => simp_all

theorem HostMove.to_joinDone {h : HostPtr} {v : HostView} {g g' : GameHost} {eff : HostEffect}
    {c : ConnId} {ok : Bool} (hmove : HostMove h v g g' eff) (hpc : g'.pc = .joinDone c ok) :
    g.pc = .joinWait c ∧ g.authReply = some ok := by
  cases hmove with
  | @take m rest => cases m <;> simp_all [HostMsg.start]
  | _ => simp_all

/-- In a call, a host is where it was before the worker's move. -/
theorem WorkerEffect.onHost_call {eff : WorkerEffect} {h : HostPtr} {g : GameHost}
    (hcall : (eff.onHost h g).pc.call ≠ none) :
    (eff.onHost h g).pc = g.pc ∧ (eff.onHost h g).authReply = g.authReply := by
  unfold WorkerEffect.onHost at hcall ⊢
  split
  · rename_i k act hact
    split
    · rename_i hk
      simp only [hact, if_pos hk] at hcall
      cases act with
      | start | free => exact absurd rfl hcall
      | put m | insert playerId c | erase playerId => exact ⟨rfl, rfl⟩
    · exact ⟨rfl, rfl⟩
  · exact ⟨rfl, rfl⟩

/-- A host in a call after a worker's move. -/
theorem State.applyWorker_call {s : State} {c : ConnId} {w w' : GameWorker} {eff : WorkerEffect}
    {k : HostPtr} {g' : GameHost} (hmove : WorkerMove c s.workerView w w' eff)
    (hg' : (s.applyWorker c w' eff).hosts k = some g') (hcall : g'.pc.call ≠ none) :
    ∃ g, s.hosts k = some g ∧ g'.pc = g.pc ∧ g'.authReply = g.authReply := by
  obtain ⟨-, -, -, -, hpc, -⟩ | ⟨g, hg, rfl⟩ := State.applyWorker_hosts hmove hg'
  · rw [hpc] at hcall
    exact absurd rfl hcall
  · exact ⟨g, hg, WorkerEffect.onHost_call hcall⟩

theorem WorkerMove.auth_ne {c : ConnId} {v : WorkerView} {w w' : GameWorker} {eff : WorkerEffect}
    (hmove : WorkerMove c v w w' eff) (h : HostPtr) : .hostUpdateNode h ∉ eff.auth.toList := by
  intro hmem
  have hcaller := hmove.auth_caller (Option.mem_toList.1 hmem)
  cases hcaller

namespace RequestInv

variable {s s' : State}

theorem keep (h : RequestInv s)
    (hhosts : ∀ k g' c, s'.hosts k = some g' → g'.pc = .joinWait c →
      ∃ g, s.hosts k = some g ∧ g.pc = .joinWait c)
    (hchan : ∀ k, .hostUpdateNode k ∈ s'.authChan → .hostUpdateNode k ∈ s.authChan) :
    RequestInv s' := by
  intro k g' c hg' hpc hmem
  obtain ⟨g, hg, hpc'⟩ := hhosts k g' c hg' hpc
  exact h k g c hg hpc' (hchan k hmem)

theorem worker {c : ConnId} {w w' : GameWorker} {eff : WorkerEffect} (h : RequestInv s)
    (hmove : WorkerMove c s.workerView w w' eff) : RequestInv (s.applyWorker c w' eff) := by
  refine h.keep (fun k g' c' hg' hpc => ?_) fun k hmem => ?_
  · obtain ⟨g, hg, heq, -⟩ := State.applyWorker_call hmove hg' (by rw [hpc]; simp [HostPc.call])
    exact ⟨g, hg, heq.symm.trans hpc⟩
  · obtain hmem | hmem := List.mem_append.1 hmem
    · exact hmem
    · exact absurd hmem (hmove.auth_ne k)

theorem host {k : HostPtr} {g g' : GameHost} {eff : HostEffect} (h : RequestInv s)
    (hans : AnswerInv s) (hg : s.hosts k = some g) (hmove : HostMove k s.hostView g g' eff) :
    RequestInv (s.applyHost k g' eff) := by
  intro j g₁ c hg₁ hpc hmem
  obtain ⟨rfl, rfl⟩ | ⟨hj, hg₁⟩ := Lib.update_eq_some hg₁
  · obtain ⟨hcall, -, hauth⟩ := hmove.to_joinWait hpc
    obtain hmem | hmem := List.mem_append.1 hmem
    · -- Before its call the host has no request there.
      have hasked := hans.asked (.host j)
      simp only [State.calls, hg, hcall, HostPc.authWait, Bool.false_eq_true, if_false] at hasked
      have hpos : 0 < s.asked (.host j) :=
        List.countP_pos_iff.2 ⟨_, hmem, by simp [AuthReq.caller]⟩
      omega
    · simp [hauth] at hmem
  · obtain hmem | hmem := List.mem_append.1 hmem
    · exact h j g₁ c hg₁ hpc hmem
    · have hcaller := hmove.auth_caller (Option.mem_toList.1 hmem)
      simp only [AuthReq.caller, Option.some.injEq, Caller.host.injEq] at hcaller
      exact hj hcaller

theorem daemon (h : RequestInv s) (hmove : DaemonMove s s') : RequestInv s' := by
  cases hmove with
  | host hd hc =>
    refine h.keep (fun k g' c hg' hpc => ?_) fun k hmem => ?_
    · obtain ⟨g, hg, rfl⟩ := Option.map_eq_some_iff.1 hg'
      refine ⟨g, hg, ?_⟩
      split at hpc <;> exact hpc
    · rw [hc]
      exact List.mem_cons_of_mem _ hmem
  | worker hd hc =>
    refine h.keep (fun k g' c hg' hpc => ⟨g', hg', hpc⟩) fun k hmem => ?_
    rw [hc]
    exact List.mem_cons_of_mem _ hmem
  | client hd hc =>
    refine h.keep (fun k g' c hg' hpc => ⟨g', hg', hpc⟩) fun k hmem => ?_
    rw [hc]
    exact List.mem_cons_of_mem _ hmem
  | forward | global =>
    refine h.keep (fun k g' c hg' hpc => ?_) fun _ => id
    obtain ⟨g, hg, rfl⟩ := Option.map_eq_some_iff.1 hg'
    refine ⟨g, hg, ?_⟩
    split at hpc <;> exact hpc
  | miss | back => exact h.keep (fun k g' c hg' hpc => ⟨g', hg', hpc⟩) fun _ => id

theorem step {e : Event} (h : RequestInv s) (hans : AnswerInv s)
    (hs : GameServ.step s e = some s') : RequestInv s' := by
  cases step_case hs with
  | accept => exact h.keep (fun k g' c hg' hpc => ⟨g', hg', hpc⟩) fun _ => id
  | recv _ _ hmove => exact h.worker hmove
  | worker _ _ hmove => exact h.worker hmove
  | host hg hmove => exact h.host hans hg hmove
  | daemon hmove => exact h.daemon hmove
  | authRequest hr =>
    refine h.keep (fun k g' c hg' hpc => ⟨g', hg', hpc⟩) fun k hmem => ?_
    obtain hmem | hmem := List.mem_append.1 hmem
    · exact hmem
    · rw [← List.mem_singleton.1 hmem] at hr
      cases hr
  | serverShutdown =>
    refine h.keep (fun k g' c hg' hpc => ?_) fun _ => id
    obtain ⟨g, hg, rfl⟩ := Option.map_eq_some_iff.1 hg'
    refine ⟨g, hg, ?_⟩
    split at hpc <;> exact hpc

end RequestInv

end Dirtsand.GameServ
