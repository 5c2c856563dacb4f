import Dirtsand.GameServ.Starting

/-!
# The auth daemon and the hosts wait for each other

`GameServer_UpdateVaultSDL` puts a message on a host's channel and waits for the
answer, with `s_gameHostMutex` held.  A host calls the auth daemon from three of
its handlers and takes `s_gameHostMutex` in three, so `NoWaitCycle`, which says
that the daemon never waits for a host that waits for the daemon or for the
mutex, depends on what the host was doing when the message came.

* `no_wait_cycle` — there is no such cycle in a run where the daemon forwards an
  update only to a host that has nothing of the kind to do before it
  (`ForwardOk`).
* `join_deadlocks` — a run with such a cycle: a vault update of an age's SDL
  node is in the auth channel when a player joins the age.
-/

namespace Dirtsand.GameServ

/-! ## The property -/

/-- The host waits for a reply that only the auth daemon can put. -/
def GameHost.WaitsForAuth (g : GameHost) : Prop :=
  g.authReply = none ∧ match g.pc with
    | .joinWait _ => True
    | .discWait _ => True
    | .msgWait .. => True
    | .sdlWait => True
    | _ => False

/-- The host's next step takes `s_gameHostMutex`. -/
def GameHost.WantsMutex (g : GameHost) : Prop :=
  match g.pc with
  | .msg _ (.lock :: _) => True
  | .shutLock _ => True
  | _ => False

/-- While the auth daemon waits for the reply of a host, which is not there
yet, the host does not wait for the auth daemon, nor for the mutex that the
daemon holds. -/
def NoWaitCycle (s : State) : Prop :=
  ∀ h g, s.daemon = .waitHost h → s.daemonChan = [] → s.hosts h = some g →
    ¬ g.WaitsForAuth ∧ ¬ (g.WantsMutex ∧ s.mutex ≠ none)

/-! ## The condition -/

/-- Does not call the auth daemon, nor take `s_gameHostMutex`. -/
def MsgOp.Harmless (op : MsgOp) : Prop :=
  op = .own ∨ op = .members

/-- The handler of the message calls nobody and takes no shared mutex. -/
def HostMsg.Harmless : HostMsg → Prop
  | .propagate _ ops => ∀ op ∈ ops, op.Harmless
  | .globalSdl => True
  | _ => False

/-- What is left of the current handler does neither, or has its answer. -/
def GameHost.Harmless (g : GameHost) : Prop :=
  match g.pc with
  | .unstarted => True
  | .idle => True
  | .joinWait _ => g.authReply ≠ none
  | .joinDone .. => True
  | .discWait _ => g.authReply ≠ none
  | .discEnd _ => True
  | .discReply _ => True
  | .msg _ ops => ∀ op ∈ ops, op.Harmless
  | .msgWait _ ops => g.authReply ≠ none ∧ ∀ op ∈ ops, op.Harmless
  | .msgHold _ ops => ∀ op ∈ ops, op.Harmless
  | .sdlWait => g.authReply ≠ none
  | .bcast => True
  | .shutDelete _ => True
  | .deleted => True
  | _ => False

/-- The daemon forwards an SDL update only to a host that has finished its
current handler, and those of the messages before, without the daemon and
without the mutex. -/
def ForwardOk (s : State) : Event → Prop
  | .daemon _ =>
    match s.daemon with
    | .wantLock mcpId => ∀ h g, s.mutex = none → s.find mcpId = some h → s.hosts h = some g →
        g.Harmless ∧ ∀ m ∈ g.queue, m.Harmless
    | _ => True
  | _ => True

/-! ## A host that will reply -/

/-- The messages before the SDL update are harmless. -/
def HarmlessUpTo : List HostMsg → Prop
  | [] => False
  | .localSdl :: _ => True
  | m :: rest => m.Harmless ∧ HarmlessUpTo rest

/-- The host replies to the daemon before it waits for anything. -/
def GameHost.WillReply (g : GameHost) : Prop :=
  g.pc = .sdlReply ∨ (g.Harmless ∧ HarmlessUpTo g.queue)

theorem HarmlessUpTo.append {q : List HostMsg} (h : HarmlessUpTo q) (m : HostMsg) :
    HarmlessUpTo (q ++ [m]) := by
  induction q with
  | nil => exact h.elim
  | cons m' q ih =>
    cases m' with
    | localSdl => trivial
    | join c => exact h.1.elim
    | disconnect c => exact h.1.elim
    | shutdown b => exact h.1.elim
    | propagate c ops => exact ⟨h.1, ih h.2⟩
    | globalSdl => exact ⟨h.1, ih h.2⟩

theorem harmlessUpTo_of_all {q : List HostMsg} (h : ∀ m ∈ q, m.Harmless) :
    HarmlessUpTo (q ++ [.localSdl]) := by
  induction q with
  | nil => trivial
  | cons m' q ih =>
    have hm := h m' List.mem_cons_self
    have hq := ih fun m hmem => h m (List.mem_cons_of_mem _ hmem)
    cases m' with
    | localSdl => trivial
    | join c => exact hm.elim
    | disconnect c => exact hm.elim
    | shutdown b => exact hm.elim
    | propagate c ops => exact ⟨hm, hq⟩
    | globalSdl => exact ⟨hm, hq⟩

/-- Taking the next message keeps the promise. -/
theorem GameHost.WillReply.take {g : GameHost} {m : HostMsg} {rest : List HostMsg}
    (h : HarmlessUpTo (m :: rest)) : ({ g with queue := rest, pc := m.start } : GameHost).WillReply := by
  cases m with
  | localSdl => exact .inl rfl
  | join c => exact h.1.elim
  | disconnect c => exact h.1.elim
  | shutdown b => exact h.1.elim
  | propagate c ops => exact .inr ⟨h.1, h.2⟩
  | globalSdl => exact .inr ⟨trivial, h.2⟩

theorem GameHost.WillReply.put {g : GameHost} (h : g.WillReply) (m : HostMsg) :
    ({ g with queue := g.queue ++ [m] } : GameHost).WillReply := by
  rcases h with hpc | ⟨hh, hq⟩
  · exact .inl hpc
  · exact .inr ⟨hh, hq.append m⟩

theorem GameHost.WillReply.harmless {g : GameHost} (h : g.WillReply) (hpc : g.pc ≠ .sdlReply) :
    g.Harmless ∧ HarmlessUpTo g.queue := by
  rcases h with hsdl | hh
  · exact absurd hsdl hpc
  · exact hh

/-- A host that will reply to the daemon does so in its next step, or still
will after it. -/
theorem HostMove.willReply {h : HostPtr} {v : HostView} {g g' : GameHost} {eff : HostEffect}
    (hmove : HostMove h v g g' eff) (hw : g.WillReply) : eff.toDaemon ≠ [] ∨ g'.WillReply := by
  have hh : g.pc ≠ .sdlReply → g.Harmless ∧ HarmlessUpTo g.queue := hw.harmless
  cases hmove with
  | take hpc hq =>
    right
    exact .take (hq ▸ (hh (by simp [hpc])).2)
  | sdlAccept hpc =>
    left
    simp [HostEffect.toDaemon]
  | sdlRefuse hpc =>
    left
    simp [HostEffect.toDaemon]
  | discPost hpc hempty =>
    right
    exact .inr ⟨trivial, (hh (by simp [hpc])).2.append _⟩
  | _ hpc =>
    right
    have hgoal := hh (by simp [hpc])
    simp only [GameHost.Harmless, hpc] at hgoal
    simp_all [GameHost.WillReply, GameHost.Harmless, MsgOp.Harmless]

theorem GameHost.WillReply.not_blocked {g : GameHost} (h : g.WillReply) :
    ¬ g.WaitsForAuth ∧ ¬ g.WantsMutex := by
  rcases h with hpc | ⟨hh, -⟩
  · simp [GameHost.WaitsForAuth, GameHost.WantsMutex, hpc]
  · constructor
    · rintro ⟨hnone, hpc⟩
      unfold GameHost.Harmless at hh
      cases hg : g.pc <;> simp_all
    · intro hpc
      unfold GameHost.WantsMutex at hpc
      unfold GameHost.Harmless at hh
      split at hpc
      · simp_all [MsgOp.Harmless]
      · simp_all
      · exact hpc

/-- What a worker does to a host keeps the promise; it starts and frees only a
host without a thread. -/
theorem HostAct.run_willReply {act : HostAct} {g : GameHost} (hw : g.WillReply)
    (hact : (act ≠ .start ∧ act ≠ .free) ∨ g.pc = .unstarted) : (act.run g).WillReply := by
  cases act with
  | put m => exact hw.put m
  | insert playerId c => exact hw
  | erase playerId => exact hw
  | start =>
    rcases hact with ⟨hne, -⟩ | hpc
    · exact absurd rfl hne
    · exact .inr ⟨trivial, (hw.harmless (by simp [hpc])).2⟩
  | free =>
    rcases hact with ⟨-, hne⟩ | hpc
    · exact absurd rfl hne
    · exact .inr ⟨trivial, (hw.harmless (by simp [hpc])).2⟩

/-! ## The invariant -/

/-- The host that the daemon waits for has replied, or will. -/
structure WaitInv (s : State) : Prop where
  start : StartInv s
  linked : ∀ e ∈ s.gameHosts, ∃ g, s.hosts e.2 = some g
  awaited : ∀ h, s.daemon = .waitHost h →
    ∃ g, s.hosts h = some g ∧ (s.daemonChan = [] → g.WillReply)

theorem State.mem_of_find {s : State} {mcpId : UInt32} {h : HostPtr}
    (hfind : s.find mcpId = some h) : (mcpId, h) ∈ s.gameHosts := by
  obtain ⟨e, he, rfl⟩ := Option.map_eq_some_iff.1 hfind
  have hmem := List.mem_of_find?_eq_some he
  have hkey := List.find?_some he
  simp only [decide_eq_true_eq] at hkey
  rw [← hkey]
  exact hmem

namespace WaitInv

variable {s s' : State}

theorem initial : WaitInv State.initial :=
  ⟨.initial, fun _ he => absurd he List.not_mem_nil, fun _ hd => (nomatch hd)⟩

theorem worker {c : ConnId} {w w' : GameWorker} {eff : WorkerEffect} (h : WaitInv s)
    (hw : s.workers c = some w) (hmove : WorkerMove c s.workerView w w' eff) :
    WaitInv (s.applyWorker c w' eff) := by
  -- The host it starts or frees has no thread, so it is none that is waited for.
  have hhost : ∀ k g, s.hosts k = some g →
      (s.applyWorker c w' eff).hosts k = some (eff.onHost k g) := by
    intro k g hg
    show (s.allocated eff.alloc k).map _ = _
    rw [State.allocated_of_some h.start hg]
    rfl
  refine ⟨h.start.worker hw hmove, fun e he => ?_, fun k hd => ?_⟩
  · have hold : ∀ e ∈ s.gameHosts, ∃ g, (s.applyWorker c w' eff).hosts e.2 = some g := by
      intro e he
      obtain ⟨g, hg⟩ := h.linked e he
      exact ⟨_, hhost _ g hg⟩
    cases hpub : eff.publish with
    | none =>
      simp only [State.applyWorker, hpub] at he
      exact hold e he
    | some e' =>
      simp only [State.applyWorker, hpub, List.mem_cons, List.mem_filter] at he
      rcases he with rfl | ⟨he, -⟩
      · obtain ⟨g, hg, -⟩ := h.start.starting c w e.2 hw (hmove.publish_starting hpub)
        exact ⟨_, hhost _ g hg⟩
      · exact hold e he
  · obtain ⟨g, hg, hwill⟩ := h.awaited k hd
    refine ⟨eff.onHost k g, hhost k g hg, fun hchan => ?_⟩
    have hwill := hwill hchan
    unfold WorkerEffect.onHost
    split
    · rename_i k' act hact
      split
      · rename_i hk
        subst hk
        refine HostAct.run_willReply hwill ?_
        rcases hmove.act_starting hact with hok | hstart
        · exact .inl hok
        · obtain ⟨g₁, hg₁, hun⟩ := h.start.starting c w k' hw hstart
          rw [hg] at hg₁
          cases hg₁
          exact .inr hun
      · exact hwill
    · exact hwill

theorem host {k : HostPtr} {g g' : GameHost} {eff : HostEffect} (h : WaitInv s)
    (hg : s.hosts k = some g) (hmove : HostMove k s.hostView g g' eff) :
    WaitInv (s.applyHost k g' eff) := by
  have hstay : ∀ j g₁, s.hosts j = some g₁ → ∃ g₂, (s.applyHost k g' eff).hosts j = some g₂ := by
    intro j g₁ hg₁
    by_cases hj : j = k
    · subst hj
      exact ⟨g', Function.update_self ..⟩
    · exact ⟨g₁, (Function.update_of_ne hj ..).trans hg₁⟩
  refine ⟨h.start.host hg hmove, fun e he => ?_, fun j hd => ?_⟩
  · have hmem : e ∈ s.gameHosts := by
      simp only [State.applyHost] at he
      split at he
      · exact (List.mem_filter.1 he).1
      · exact he
    obtain ⟨g₁, hg₁⟩ := h.linked e hmem
    exact hstay _ g₁ hg₁
  · obtain ⟨g₁, hg₁, hwill⟩ := h.awaited j hd
    have hempty : (s.applyHost k g' eff).daemonChan = [] → s.daemonChan = [] ∧ eff.toDaemon = [] :=
      List.append_eq_nil_iff.1
    by_cases hj : j = k
    · subst hj
      rw [hg] at hg₁
      cases hg₁
      refine ⟨g', Function.update_self .., fun hchan => ?_⟩
      obtain ⟨hold, hnone⟩ := hempty hchan
      exact (hmove.willReply (hwill hold)).resolve_left fun hne => hne hnone
    · exact ⟨g₁, (Function.update_of_ne hj ..).trans hg₁, fun hchan => hwill (hempty hchan).1⟩

theorem daemon {ch : Choice} (h : WaitInv s) (hok : ForwardOk s (.daemon ch))
    (hmove : DaemonMove s s') : WaitInv s' := by
  have hstart := h.start.daemon hmove
  cases hmove with
  | @host r k rest ok hd hc hr =>
    refine ⟨hstart, fun e he => ?_, fun j hj => ?_⟩
    · obtain ⟨g, hg⟩ := h.linked e he
      exact ⟨_, congrArg (Option.map _) hg⟩
    · exact absurd (hd.symm.trans hj) (by simp)
  | worker hd hc hr =>
    exact ⟨hstart, h.linked, fun j hj => absurd (hd.symm.trans hj) (by simp)⟩
  | @client r _ hd hc hr => exact ⟨hstart, h.linked, fun j hj => absurd hj (r.daemonPc_ne j)⟩
  | miss hd hm hfind => exact ⟨hstart, h.linked, fun j hj => absurd hj (DaemonPc.idle_ne j)⟩
  | @forward mcpId k hd hm hfind =>
    refine ⟨hstart, fun e he => ?_, fun j hj => ?_⟩
    · obtain ⟨g, hg⟩ := h.linked e he
      exact ⟨_, congrArg (Option.map _) hg⟩
    · obtain ⟨g, hg⟩ := h.linked _ (State.mem_of_find hfind)
      cases hj
      refine ⟨_, congrArg (Option.map _) hg, fun _ => ?_⟩
      simp only [ForwardOk, hd] at hok
      obtain ⟨hh, hq⟩ := hok k g hm hfind hg
      simp only [if_true]
      exact .inr ⟨hh, harmlessUpTo_of_all hq⟩
  | back hd hr => exact ⟨hstart, h.linked, fun j hj => absurd hj (DaemonPc.idle_ne j)⟩
  | global hd hm =>
    refine ⟨hstart, fun e he => ?_, fun j hj => absurd hj (DaemonPc.idle_ne j)⟩
    obtain ⟨g, hg⟩ := h.linked e he
    exact ⟨_, congrArg (Option.map _) hg⟩

theorem step {e : Event} (h : WaitInv s) (hok : ForwardOk s e) (hs : step s e = some s') :
    WaitInv s' := by
  have hstart := h.start.step hs
  cases step_case hs with
  | accept hw => exact ⟨hstart, h.linked, h.awaited⟩
  | recv hw _ hmove => exact h.worker hw hmove
  | worker hw _ hmove => exact h.worker hw hmove
  | host hg hmove => exact h.host hg hmove
  | daemon hmove => exact h.daemon hok hmove
  | authRequest => exact ⟨hstart, h.linked, h.awaited⟩
  | serverShutdown =>
    refine ⟨hstart, fun e he => ?_, fun j hj => ?_⟩
    · obtain ⟨g, hg⟩ := h.linked e he
      exact ⟨_, congrArg (Option.map _) hg⟩
    · obtain ⟨g, hg, hwill⟩ := h.awaited j hj
      refine ⟨_, congrArg (Option.map _) hg, fun hchan => ?_⟩
      dsimp only
      split
      · exact (hwill hchan).put _
      · exact hwill hchan

end WaitInv

/-- **The auth daemon never waits for a host that waits for it**, or for the
mutex it holds, in a run where it forwards SDL updates only to hosts that have
nothing of the kind to do first. -/
theorem no_wait_cycle {s : State} (h : machine.ReachableWith ForwardOk s) : NoWaitCycle s := by
  have hinv : WaitInv s :=
    h.invariant (fun _ hs => hs ▸ WaitInv.initial) fun _ _ _ hinv hok hs => hinv.step hok hs
  intro k g hd hchan hg
  obtain ⟨g₁, hg₁, hwill⟩ := hinv.awaited k hd
  rw [hg] at hg₁
  cases hg₁
  obtain ⟨hauth, hmutex⟩ := (hwill hchan).not_blocked
  exact ⟨hauth, fun hw => hmutex hw.1⟩

/-- Player 7 asks for an age that no host runs yet; at the end the join is on
the new host's channel. -/
def joinNewAge : List Event :=
  [.accept 0, .recvJoin 0 1 7, .worker 0 {}, .worker 0 {}, .daemon {}, .worker 0 {},
    .worker 0 {}, .worker 0 {}, .worker 0 {}, .daemon {}, .worker 0 {}]

/-- An update that comes after the host has handled the join. -/
theorem no_wait_cycle_after_join : ∃ s, machine.run .initial (joinNewAge ++
    [.host 0 {}, .host 0 {}, .daemon {}, .host 0 {}, .host 0 {},
      .authRequest (.clientUpdateSdl 1), .daemon {}, .daemon {}]) = some s ∧
    s.daemon = .waitHost 0 ∧ NoWaitCycle s := by
  have hok : machine.OkRun ForwardOk .initial (joinNewAge ++
      [.host 0 {}, .host 0 {}, .daemon {}, .host 0 {}, .host 0 {},
        .authRequest (.clientUpdateSdl 1), .daemon {}, .daemon {}]) := by
    refine And.intro trivial (And.intro trivial (And.intro trivial (And.intro trivial
      (And.intro trivial (And.intro trivial (And.intro trivial (And.intro trivial
      (And.intro trivial (And.intro trivial (And.intro trivial (And.intro trivial
      (And.intro trivial (And.intro trivial (And.intro trivial (And.intro trivial
      (And.intro trivial (And.intro trivial (And.intro ?_ trivial))))))))))))))))))
    rintro k g - hfind hg
    cases hfind
    cases hg
    exact ⟨trivial, fun m hm => absurd hm List.not_mem_nil⟩
  obtain ⟨s, hrun, hs⟩ := (Lib.Machine.ReachableWith.start (M := machine) rfl).run hok
  have hwait : (machine.run .initial (joinNewAge ++
      [.host 0 {}, .host 0 {}, .daemon {}, .host 0 {}, .host 0 {},
        .authRequest (.clientUpdateSdl 1), .daemon {}, .daemon {}])).map State.daemon =
      some (.waitHost 0) := by decide
  rw [hrun] at hwait
  exact ⟨s, hrun, Option.some.inj hwait, no_wait_cycle hs⟩

/-- **A join and a vault update deadlock.**  The daemon takes the update after
the join was queued and before the host has called it. -/
theorem join_deadlocks : ¬ ∀ s, machine.Reachable s → NoWaitCycle s := by
  intro hall
  have hend : (machine.run .initial (joinNewAge ++ [.authRequest (.clientUpdateSdl 1), .host 0 {},
      .host 0 {}, .daemon {}, .daemon {}])).map (fun s =>
        (s.daemon, s.daemonChan, (s.hosts 0).map fun g => (g.pc, g.authReply))) =
      some (.waitHost 0, [], some (.joinWait 0, none)) := by decide
  obtain ⟨s, hrun, hs⟩ := Option.map_eq_some_iff.1 hend
  have hreach := Lib.Machine.run_reachable (.start rfl) hrun
  simp only [Prod.mk.injEq] at hs
  obtain ⟨hd, hchan, hhost⟩ := hs
  obtain ⟨g, hg, hpc⟩ := Option.map_eq_some_iff.1 hhost
  simp only [Prod.mk.injEq] at hpc
  obtain ⟨hpc, hnone⟩ := hpc
  exact (hall s hreach 0 g hd hchan hg).1 ⟨hnone, by rw [hpc]; trivial⟩

end Dirtsand.GameServ
