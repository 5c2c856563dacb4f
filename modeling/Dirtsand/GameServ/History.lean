import Dirtsand.GameServ.Answers

/-!
# The past of a run

What a connection last asked for is not in the state of the game server, so the
statements about it are about the machine with its history.  `latestJoin` is the
latest JoinAge message of a connection, and `joinAnswer` what the auth daemon
has answered to it.

* `AskInv` — a worker that looks for a host, or has one, does so for the latest
  join of its client, and `s_gameHosts` has each host under its own id.
-/

namespace Dirtsand.GameServ

/-- The steps so far, latest first. -/
abbrev Past := List (State × Event)

/-- The age and the player of the latest JoinAge of a connection. -/
def latestJoin (c : ConnId) : Past → Option (UInt32 × UInt32)
  | [] => none
  | (_, .recvJoin c' mcpId playerId) :: past =>
    if c' = c then some (mcpId, playerId) else latestJoin c past
  | _ :: past => latestJoin c past

/-- The host and the connection whose join the auth daemon answers next. -/
def State.joinAtDaemon (s : State) : Option (HostPtr × ConnId) :=
  match s.daemon, s.authChan with
  | .idle, .updateAgeSrv h :: _ =>
    match (s.hosts h).map GameHost.pc with
    | some (.joinWait c) => some (h, c)
    | _ => none
  | _, _ => none

/-- The host and the answer, where the latest JoinAge of a connection has been
answered by the auth daemon. -/
def joinAnswer (c : ConnId) : Past → Option (HostPtr × Bool)
  | [] => none
  | (_, .recvJoin c' _ _) :: past => if c' = c then none else joinAnswer c past
  | (s, .daemon ch) :: past =>
    match s.joinAtDaemon with
    | some (h, c') => if c' = c then some (h, ch.ok) else joinAnswer c past
    | none => joinAnswer c past
  | _ :: past => joinAnswer c past

/-! ## The events of a connection -/

/-- A worker that was told to join. -/
def GameWorker.asks (w : GameWorker) (mcpId playerId : UInt32) : GameWorker :=
  if playerId = 0 then { w with playerId := 0 }
  else { w with playerId := playerId, pc := .lookup mcpId }

/-- As `StepCase`, with the message of the client. -/
inductive Happens (s : State) : Event → State → Prop where
  | accept {c} (hw : s.workers c = none) :
      Happens s (.accept c) { s with workers := Function.update s.workers c (some {}) }
  | recvJoin {c mcpId playerId w} (hw : s.workers c = some w) (hidle : w.pc = .idle) :
      Happens s (.recvJoin c mcpId playerId) (s.applyWorker c (w.asks mcpId playerId) {})
  | recvMsg {c ops w h} (hw : s.workers c = some w) (hidle : w.pc = .idle) (hops : ValidOps ops)
      (hh : w.mHost = some h) :
      Happens s (.recvMsg c ops)
        (s.applyWorker c { w with pc := .waitMsg } { act := some (h, .put (.propagate c ops)) })
  | leave {e c w} (hw : s.workers c = some w) (hidle : w.pc = .idle)
      (he : e = .hangup c ∨ ∃ ops, e = .recvMsg c ops) :
      Happens s e (s.applyWorker c { w with pc := .cleanup } {})
  | worker {c ch w w' eff} (hw : s.workers c = some w) (hbusy : w.pc ≠ .idle)
      (hstep : workerStep c s.workerView w ch = some (w', eff))
      (hmove : WorkerMove c s.workerView w w' eff) :
      Happens s (.worker c ch) (s.applyWorker c w' eff)
  | host {h ch g g' eff} (hg : s.hosts h = some g) (hmove : HostMove h s.hostView g g' eff) :
      Happens s (.host h ch) (s.applyHost h g' eff)
  | daemon {ch s'} (hstep : daemonStep s ch = some s') (hmove : DaemonMove s s') :
      Happens s (.daemon ch) s'
  | authRequest {r} (hr : r.fromClient = true) :
      Happens s (.authRequest r) { s with authChan := s.authChan ++ [r] }
  | serverShutdown (hm : s.mutex = none) :
      Happens s .serverShutdown (s.putAll (fun _ => true) (.shutdown false))

theorem recv_inv {s s' : State} {c : ConnId} {e : Event} (hs : s.recv c e = some s') :
    ∃ w w' eff, s.workers c = some w ∧ w.pc = .idle ∧ recvStep c w e = some (w', eff) ∧
      s' = s.applyWorker c w' eff := by
  obtain ⟨w, hw, hs⟩ := Option.bind_eq_some_iff.1 hs
  split at hs
  · cases hs
  rename_i hidle
  obtain ⟨⟨w', eff⟩, hrecv, hs⟩ := Option.bind_eq_some_iff.1 hs
  cases hs
  exact ⟨w, w', eff, hw, not_not.1 hidle, hrecv, rfl⟩

theorem step_happens {s s' : State} {e : Event} (hs : step s e = some s') : Happens s e s' := by
  cases e with
  | recvJoin c mcpId playerId =>
    obtain ⟨w, w', eff, hw, hidle, hrecv, rfl⟩ := recv_inv hs
    have hasks : w' = w.asks mcpId playerId ∧ eff = {} := by
      simp only [recvStep] at hrecv
      split at hrecv
      · rename_i hp
        cases hrecv
        exact ⟨by rw [GameWorker.asks, if_pos hp], rfl⟩
      · rename_i hp
        cases hrecv
        exact ⟨by rw [GameWorker.asks, if_neg hp], rfl⟩
    obtain ⟨rfl, rfl⟩ := hasks
    exact .recvJoin hw hidle
  | recvMsg c ops =>
    obtain ⟨w, w', eff, hw, hidle, hrecv, rfl⟩ := recv_inv hs
    simp only [recvStep] at hrecv
    split at hrecv
    · rename_i hops
      split at hrecv
      · cases hrecv
        exact .leave hw hidle (.inr ⟨ops, rfl⟩)
      · rename_i hh
        cases hrecv
        exact .recvMsg hw hidle hops hh
    · cases hrecv
  | hangup c =>
    obtain ⟨w, w', eff, hw, hidle, hrecv, rfl⟩ := recv_inv hs
    cases hrecv
    exact .leave hw hidle (.inl rfl)
  | worker c ch =>
    obtain ⟨w, hw, hs⟩ := Option.bind_eq_some_iff.1 hs
    obtain ⟨⟨w', eff⟩, hstep, hs⟩ := Option.bind_eq_some_iff.1 hs
    cases hs
    refine .worker hw (fun hidle => ?_) hstep (workerStep_move hstep)
    simp [workerStep, hidle] at hstep
  | accept c =>
    rw [step] at hs
    split at hs
    · cases hs
    · rename_i hnone
      cases hs
      exact .accept (by simpa using hnone)
  | host h ch =>
    obtain ⟨g, hg, hs⟩ := Option.bind_eq_some_iff.1 hs
    obtain ⟨⟨g', eff⟩, hstep, hs⟩ := Option.bind_eq_some_iff.1 hs
    cases hs
    exact .host hg (hostStep_move hstep)
  | daemon ch => exact .daemon hs (daemonStep_move hs)
  | authRequest r =>
    simp only [step, Option.ite_none_right_eq_some] at hs
    obtain ⟨hr, hs⟩ := hs
    cases hs
    exact .authRequest hr
  | serverShutdown =>
    rw [step] at hs
    split at hs
    · cases hs
    · rename_i hm
      cases hs
      exact .serverShutdown (not_not.1 hm)

/-! ## The hosts that are there -/

theorem HostMove.serverIdx {h : HostPtr} {v : HostView} {g g' : GameHost} {eff : HostEffect}
    (hmove : HostMove h v g g' eff) : g'.serverIdx = g.serverIdx := by
  cases hmove <;> rfl

theorem WorkerEffect.onHost_serverIdx (eff : WorkerEffect) (h : HostPtr) (g : GameHost) :
    (eff.onHost h g).serverIdx = g.serverIdx := by
  unfold WorkerEffect.onHost
  split
  · rename_i act _
    split
    · cases act <;> rfl
    · rfl
  · rfl

/-- A host stays where it is, and keeps its id. -/
def State.HostsKeep (s s' : State) : Prop :=
  ∀ k g, s.hosts k = some g → ∃ g', s'.hosts k = some g' ∧ g'.serverIdx = g.serverIdx

theorem hostsKeep_map {s s' : State} {f : HostPtr → GameHost → GameHost}
    (hhosts : ∀ k, s'.hosts k = (s.hosts k).map (f k))
    (hf : ∀ k g, (f k g).serverIdx = g.serverIdx) : s.HostsKeep s' := by
  intro k g hg
  exact ⟨f k g, by rw [hhosts, hg]; rfl, hf k g⟩

theorem hostsKeep_putAll (s : State) (p : GameHost → Bool) (m : HostMsg) :
    s.HostsKeep (s.putAll p m) := by
  refine hostsKeep_map (fun _ => rfl) fun k g => ?_
  split <;> rfl

theorem hostsKeep_modifyHost (s : State) (k : HostPtr) {f : GameHost → GameHost}
    (hf : ∀ g, (f g).serverIdx = g.serverIdx) : s.HostsKeep (s.modifyHost k f) := by
  refine hostsKeep_map (fun _ => rfl) fun k' g => ?_
  split
  · exact hf g
  · rfl

theorem DaemonMove.hostsKeep {s s' : State} (hmove : DaemonMove s s') : s.HostsKeep s' := by
  cases hmove with
  | @host r h rest ok =>
    exact hostsKeep_modifyHost _ h (f := fun g => { g with authReply := some ok }) fun _ => rfl
  | forward =>
    intro k g hg
    exact hostsKeep_modifyHost s _ (f := (HostAct.put .localSdl).run) (fun _ => rfl) k g hg
  | global =>
    intro k g hg
    exact hostsKeep_putAll s _ _ k g hg
  | worker | client | miss | back => exact fun k g hg => ⟨g, hg, rfl⟩

theorem applyWorker_hosts_of_some {s : State} (h : StartInv s) {k : HostPtr} {g : GameHost}
    (hg : s.hosts k = some g) (c : ConnId) (w : GameWorker) (eff : WorkerEffect) :
    (s.applyWorker c w eff).hosts k = some (eff.onHost k g) := by
  show (s.allocated eff.alloc k).map _ = _
  rw [State.allocated_of_some h hg]
  rfl

theorem applyWorker_hostsKeep {s : State} (h : StartInv s) (c : ConnId) (w : GameWorker)
    (eff : WorkerEffect) : s.HostsKeep (s.applyWorker c w eff) :=
  fun k g hg => ⟨eff.onHost k g, applyWorker_hosts_of_some h hg c w eff, eff.onHost_serverIdx k g⟩

theorem applyHost_hostsKeep {s : State} {k : HostPtr} {g g' : GameHost} {eff : HostEffect}
    (hg : s.hosts k = some g) (hidx : g'.serverIdx = g.serverIdx) :
    s.HostsKeep (s.applyHost k g' eff) := by
  intro j g₁ hg₁
  by_cases hj : j = k
  · subst hj
    rw [hg] at hg₁
    cases hg₁
    exact ⟨g', Function.update_self .., hidx⟩
  · exact ⟨g₁, (Function.update_of_ne hj ..).trans hg₁, rfl⟩

/-! ## Joins under way -/

/-- The age a worker looks for a host of. -/
def WorkerPc.seeks : WorkerPc → Option UInt32
  | .lookup mcpId => some mcpId
  | .startSelect mcpId => some mcpId
  | .startFetch mcpId _ => some mcpId
  | .startUpdate mcpId _ => some mcpId
  | .startInsert mcpId _ => some mcpId
  | _ => none

/-- The host a worker starts, or joins. -/
def GameWorker.joins (w : GameWorker) : Option HostPtr :=
  match w.pc with
  | .startFetch _ h => some h
  | .startUpdate _ h => some h
  | .startInsert _ h => some h
  | .startLoad h => some h
  | .found h => some h
  | .waitNode => w.mHost
  | .waitJoin => w.mHost
  | .insertClient => w.mHost
  | _ => none

theorem WorkerMove.seeks {c : ConnId} {v : WorkerView} {w w' : GameWorker} {eff : WorkerEffect}
    {mcpId : UInt32} (hmove : WorkerMove c v w w' eff) (hbusy : w.pc ≠ .idle)
    (hs : w'.pc.seeks = some mcpId) :
    w.pc.seeks = some mcpId ∧ w'.playerId = w.playerId := by
  cases hmove <;> simp_all [WorkerPc.seeks, GameWorker.noHost]

theorem WorkerMove.joins {c : ConnId} {v : WorkerView} {w w' : GameWorker} {eff : WorkerEffect}
    {h : HostPtr} (hmove : WorkerMove c v w w' eff) (hbusy : w.pc ≠ .idle)
    (hj : w'.joins = some h) : w'.playerId = w.playerId ∧
      (w.joins = some h ∨ ∃ mcpId, w.pc.seeks = some mcpId ∧ (v.find mcpId = some h ∨
        h = v.nextHost ∧ eff.act = none ∧
          ∃ age, eff.alloc = some { serverIdx := mcpId, ageFilename := age })) := by
  cases hmove <;> simp_all [WorkerPc.seeks, GameWorker.joins, GameWorker.noHost]

/-- A host is published under the id it was looked for. -/
theorem WorkerMove.publishes {c : ConnId} {v : WorkerView} {w w' : GameWorker}
    {eff : WorkerEffect} {e : UInt32 × HostPtr} (hmove : WorkerMove c v w w' eff)
    (hpub : eff.publish = some e) : w.pc = .startInsert e.1 e.2 ∧ eff.act = none := by
  cases hmove with
  | publish hpc =>
    cases hpub
    exact ⟨hpc, rfl⟩
  | _ => cases hpub

structure AskInv (s : State) (past : Past) : Prop where
  start : StartInv s
  linked : ∀ e ∈ s.gameHosts, ∃ g, s.hosts e.2 = some g ∧ g.serverIdx = e.1
  seeks : ∀ c w mcpId, s.workers c = some w → w.pc.seeks = some mcpId →
    latestJoin c past = some (mcpId, w.playerId) ∧ w.playerId ≠ 0
  joins : ∀ c w h, s.workers c = some w → w.joins = some h → w.playerId ≠ 0 ∧
    ∃ g, s.hosts h = some g ∧ latestJoin c past = some (g.serverIdx, w.playerId)

namespace AskInv

variable {s s' : State} {past past' : Past}

theorem initial : AskInv State.initial [] :=
  ⟨.initial, fun _ he => absurd he List.not_mem_nil, fun _ _ _ hw => (nomatch hw),
    fun _ _ _ hw => (nomatch hw)⟩

/-- A step in which no client joins, and no worker comes nearer to a host. -/
theorem keep (h : AskInv s past) (hstart : StartInv s') (hkeep : s.HostsKeep s')
    (hmap : ∀ e ∈ s'.gameHosts, e ∈ s.gameHosts) (hpast : ∀ c, latestJoin c past' = latestJoin c past)
    (hworkers : ∀ c w', s'.workers c = some w' → (w'.pc.seeks = none ∧ w'.joins = none) ∨
      ∃ w, s.workers c = some w ∧ w'.pc = w.pc ∧ w'.mHost = w.mHost ∧ w'.playerId = w.playerId) :
    AskInv s' past' := by
  refine ⟨hstart, fun e he => ?_, fun c w' mcpId hw' hs => ?_, fun c w' k hw' hj => ?_⟩
  · obtain ⟨g, hg, hidx⟩ := h.linked e (hmap e he)
    obtain ⟨g', hg', hidx'⟩ := hkeep _ g hg
    exact ⟨g', hg', hidx'.trans hidx⟩
  · obtain ⟨hnone, -⟩ | ⟨w, hw, hpc, -, hid⟩ := hworkers c w' hw'
    · rw [hnone] at hs
      cases hs
    · rw [hpast, hid]
      exact h.seeks c w mcpId hw (hpc ▸ hs)
  · obtain ⟨-, hnone⟩ | ⟨w, hw, hpc, hm, hid⟩ := hworkers c w' hw'
    · rw [hnone] at hj
      cases hj
    · have hj' : w.joins = some k := by
        rw [← hj]
        simp only [GameWorker.joins, hpc, hm]
      obtain ⟨hne, g, hg, hlatest⟩ := h.joins c w k hw hj'
      obtain ⟨g', hg', hidx⟩ := hkeep k g hg
      rw [hpast, hid]
      exact ⟨hne, g', hg', by rw [hlatest, hidx]⟩

theorem find (h : AskInv s past) {mcpId : UInt32} {k : HostPtr} (hfind : s.find mcpId = some k) :
    ∃ g, s.hosts k = some g ∧ g.serverIdx = mcpId := by
  obtain ⟨e, he, rfl⟩ := Option.map_eq_some_iff.1 hfind
  have hkey : e.1 = mcpId := by simpa using List.find?_some he
  obtain ⟨g, hg, hidx⟩ := h.linked e (List.mem_of_find?_eq_some he)
  exact ⟨g, hg, hidx.trans hkey⟩

/-- A worker that was told to join. -/
theorem recvJoin {c : ConnId} {w : GameWorker} {mcpId playerId : UInt32} (h : AskInv s past)
    (hstart : StartInv (s.applyWorker c (w.asks mcpId playerId) {})) (hidle : w.pc = .idle) :
    AskInv (s.applyWorker c (w.asks mcpId playerId) {})
      ((s, .recvJoin c mcpId playerId) :: past) := by
  have hkeep := applyWorker_hostsKeep h.start c (w.asks mcpId playerId) {}
  have hother : ∀ c', c' ≠ c →
      latestJoin c' ((s, .recvJoin c mcpId playerId) :: past) = latestJoin c' past := by
    intro c' hne
    rw [latestJoin, if_neg (Ne.symm hne)]
  refine ⟨hstart, fun e he => ?_, fun c' w' m hw' hs => ?_, fun c' w' k hw' hj => ?_⟩
  · obtain ⟨g, hg, hidx⟩ := h.linked e he
    obtain ⟨g', hg', hidx'⟩ := hkeep _ g hg
    exact ⟨g', hg', hidx'.trans hidx⟩
  · rcases Lib.update_eq_some hw' with ⟨rfl, rfl⟩ | ⟨hne, hw'⟩
    · unfold GameWorker.asks at hs ⊢
      split at hs
      · simp [hidle, WorkerPc.seeks] at hs
      · rename_i hp
        cases hs
        rw [if_neg hp, latestJoin, if_pos rfl]
        exact ⟨rfl, hp⟩
    · rw [hother c' hne]
      exact h.seeks c' w' m hw' hs
  · rcases Lib.update_eq_some hw' with ⟨rfl, rfl⟩ | ⟨hne, hw'⟩
    · unfold GameWorker.asks at hj
      split at hj
      · simp [hidle, GameWorker.joins] at hj
      · simp [GameWorker.joins] at hj
    · obtain ⟨hid, g, hg, hlatest⟩ := h.joins c' w' k hw' hj
      obtain ⟨g', hg', hidx⟩ := hkeep k g hg
      exact ⟨hid, g', hg', by rw [hother c' hne, hlatest, hidx]⟩

/-- A worker goes on with what it was told. -/
theorem worker {c : ConnId} {ch : Choice} {w w' : GameWorker} {eff : WorkerEffect}
    (h : AskInv s past) (hstart : StartInv (s.applyWorker c w' eff)) (hw : s.workers c = some w)
    (hbusy : w.pc ≠ .idle) (hmove : WorkerMove c s.workerView w w' eff) :
    AskInv (s.applyWorker c w' eff) ((s, .worker c ch) :: past) := by
  have hkeep := applyWorker_hostsKeep h.start c w' eff
  have hown : ∀ k, w'.joins = some k → w'.playerId ≠ 0 ∧
      ∃ g, (s.applyWorker c w' eff).hosts k = some g ∧
        latestJoin c past = some (g.serverIdx, w'.playerId) := by
    intro k hj
    obtain ⟨hid, hold | ⟨mcpId, hseek, hfind | ⟨rfl, hact, age, halloc⟩⟩⟩ := hmove.joins hbusy hj
    · obtain ⟨hne, g, hg, hlatest⟩ := h.joins c w k hw hold
      obtain ⟨g', hg', hidx⟩ := hkeep k g hg
      exact ⟨hid ▸ hne, g', hg', by rw [hlatest, hidx, hid]⟩
    · obtain ⟨hlatest, hne⟩ := h.seeks c w mcpId hw hseek
      obtain ⟨g, hg, hidx⟩ := h.find hfind
      obtain ⟨g', hg', hidx'⟩ := hkeep k g hg
      exact ⟨hid ▸ hne, g', hg', by rw [hlatest, hidx', hidx, hid]⟩
    · obtain ⟨hlatest, hne⟩ := h.seeks c w mcpId hw hseek
      refine ⟨hid ▸ hne, { serverIdx := mcpId, ageFilename := age }, ?_, by rw [hlatest, hid]⟩
      show (s.allocated eff.alloc s.nextHost).map _ = _
      rw [halloc, State.allocated, Function.update_self]
      simp [WorkerEffect.onHost, hact]
  refine ⟨hstart, fun e he => ?_, fun c' w₁ m hw₁ hs => ?_, fun c' w₁ k hw₁ hj => ?_⟩
  · have hmem : e ∈ s.gameHosts ∨ eff.publish = some e := by
      simp only [State.applyWorker] at he
      split at he
      · rename_i e' hpub
        obtain rfl | he := List.mem_cons.1 he
        · exact .inr hpub
        · exact .inl (List.mem_filter.1 he).1
      · exact .inl he
    obtain he | hpub := hmem
    · obtain ⟨g, hg, hidx⟩ := h.linked e he
      obtain ⟨g', hg', hidx'⟩ := hkeep _ g hg
      exact ⟨g', hg', hidx'.trans hidx⟩
    · obtain ⟨hpc, -⟩ := hmove.publishes hpub
      obtain ⟨hseeks, -⟩ := h.seeks c w e.1 hw (by rw [hpc]; rfl)
      obtain ⟨-, g, hg, hjoins⟩ := h.joins c w e.2 hw (by simp [GameWorker.joins, hpc])
      rw [hseeks, Option.some.injEq, Prod.mk.injEq] at hjoins
      obtain ⟨g', hg', hidx'⟩ := hkeep _ g hg
      exact ⟨g', hg', hidx'.trans hjoins.1.symm⟩
  · rcases Lib.update_eq_some hw₁ with ⟨rfl, rfl⟩ | ⟨-, hw₁⟩
    · obtain ⟨hseek, hid⟩ := hmove.seeks hbusy hs
      rw [hid]
      exact h.seeks c' w m hw hseek
    · exact h.seeks c' w₁ m hw₁ hs
  · rcases Lib.update_eq_some hw₁ with ⟨rfl, rfl⟩ | ⟨-, hw₁⟩
    · exact hown k hj
    · obtain ⟨hne, g, hg, hlatest⟩ := h.joins c' w₁ k hw₁ hj
      obtain ⟨g', hg', hidx⟩ := hkeep k g hg
      exact ⟨hne, g', hg', by rw [hidx]; exact hlatest⟩

/-- A step of a thread that leaves the workers where they are. -/
theorem still (h : AskInv s past) (hstart : StartInv s') (hkeep : s.HostsKeep s')
    (hmap : ∀ e ∈ s'.gameHosts, e ∈ s.gameHosts) (hpast : ∀ c, latestJoin c past' = latestJoin c past)
    (hworkers : ∀ c w', s'.workers c = some w' → ∃ w, s.workers c = some w ∧ w'.pc = w.pc ∧
      w'.mHost = w.mHost ∧ w'.playerId = w.playerId) : AskInv s' past' :=
  h.keep hstart hkeep hmap hpast fun c w' hw' => .inr (hworkers c w' hw')

theorem step {e : Event} (h : AskInv s past) (hs : GameServ.step s e = some s') :
    AskInv s' ((s, e) :: past) := by
  have hstart := h.start.step hs
  cases step_happens hs with
  | @accept c hw =>
    refine h.keep hstart (fun k g hg => ⟨g, hg, rfl⟩) (fun _ he => he) (fun _ => rfl)
      fun c' w' hw' => ?_
    rcases Lib.update_eq_some hw' with ⟨rfl, rfl⟩ | ⟨-, hw'⟩
    · exact .inl ⟨rfl, rfl⟩
    · exact .inr ⟨w', hw', rfl, rfl, rfl⟩
  | recvJoin hw hidle => exact h.recvJoin hstart hidle
  | @recvMsg c ops w k hw hidle hops hh =>
    refine h.keep hstart (applyWorker_hostsKeep h.start _ _ _) (fun _ he => he) (fun _ => rfl)
      fun c' w' hw' => ?_
    rcases Lib.update_eq_some hw' with ⟨rfl, rfl⟩ | ⟨-, hw'⟩
    · exact .inl ⟨rfl, rfl⟩
    · exact .inr ⟨w', hw', rfl, rfl, rfl⟩
  | @leave e c w hw hidle he =>
    have hpast : ∀ c', latestJoin c' ((s, e) :: past) = latestJoin c' past := by
      rcases he with rfl | ⟨ops, rfl⟩ <;> exact fun _ => rfl
    refine h.keep hstart (applyWorker_hostsKeep h.start _ _ _) (fun _ he => he) hpast
      fun c' w' hw' => ?_
    rcases Lib.update_eq_some hw' with ⟨rfl, rfl⟩ | ⟨-, hw'⟩
    · exact .inl ⟨rfl, rfl⟩
    · exact .inr ⟨w', hw', rfl, rfl, rfl⟩
  | worker hw hbusy _ hmove => exact h.worker hstart hw hbusy hmove
  | @host k ch g g' eff hg hmove =>
    refine h.still hstart (applyHost_hostsKeep hg hmove.serverIdx) (fun e he => ?_) (fun _ => rfl)
      fun c w' hw' => ?_
    · simp only [State.applyHost] at he
      split at he
      · exact (List.mem_filter.1 he).1
      · exact he
    · obtain ⟨w, hw, rfl⟩ := Option.map_eq_some_iff.1 hw'
      exact ⟨w, hw, rfl, rfl, rfl⟩
  | daemon _ hmove =>
    refine h.still hstart hmove.hostsKeep (fun e he => ?_) (fun _ => rfl) fun c w' hw' => ?_
    · cases hmove <;> exact he
    · cases hmove with
      | @worker r c' rest ok hd hc hr =>
        obtain ⟨w, hw, rfl⟩ := Option.map_eq_some_iff.1 hw'
        refine ⟨w, hw, ?_⟩
        split <;> exact ⟨rfl, rfl, rfl⟩
      | _ => exact ⟨w', hw', rfl, rfl, rfl⟩
  | authRequest =>
    exact h.still hstart (fun k g hg => ⟨g, hg, rfl⟩) (fun _ he => he) (fun _ => rfl)
      fun c w' hw' => ⟨w', hw', rfl, rfl, rfl⟩
  | serverShutdown =>
    exact h.still hstart (hostsKeep_putAll s _ _) (fun _ he => he) (fun _ => rfl)
      fun c w' hw' => ⟨w', hw', rfl, rfl, rfl⟩

end AskInv

end Dirtsand.GameServ
