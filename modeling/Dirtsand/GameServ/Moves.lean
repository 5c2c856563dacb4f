import Dirtsand.GameServ.System
import Dirtsand.Lib.PartialMap

/-!
# What a step can do

The step functions of `System.lean`, inverted once: `HostMove`, `WorkerMove` and
`DaemonMove` list the moves of a host, of a worker and of the auth daemon, each
with what must hold before it, and `StepCase` says which of them an event is.
Every invariant goes through these lists and not through the step functions.
-/

namespace Dirtsand.GameServ

/-- The moves of a host's thread. -/
inductive HostMove (h : HostPtr) (v : HostView) : GameHost → GameHost → HostEffect → Prop where
  | take {g m rest} (hpc : g.pc = .idle) (hq : g.queue = m :: rest) :
      HostMove h v g { g with queue := rest, pc := m.start } {}
  | joinCall {g c} (hpc : g.pc = .joinCall c) :
      HostMove h v g { g with pc := .joinWait c } { auth := some (.updateAgeSrv h) }
  | joinWait {g c accepted} (hpc : g.pc = .joinWait c) (hr : g.authReply = some accepted) :
      HostMove h v g { g with pc := .joinDone c accepted, authReply := none } {}
  | joinFirst {g c} (hpc : g.pc = .joinDone c true) (hm : g.mutexFree = true)
      (hgm : g.gameMaster = 0) :
      HostMove h v g { g with pc := .idle, gameMaster := v.playerIdOf c }
        { reply := some (.worker c, true), notice := some (c, true) }
  | joinOther {g c} (hpc : g.pc = .joinDone c true) (hm : g.mutexFree = true)
      (hgm : g.gameMaster ≠ 0) :
      HostMove h v g { g with pc := .idle }
        { reply := some (.worker c, true), notice := some (c, false) }
  | joinRefused {g c} (hpc : g.pc = .joinDone c false) :
      HostMove h v g { g with pc := .idle } { reply := some (.worker c, false) }
  | discReassign {g c playerId owner} (hpc : g.pc = .discStart c) (hm : g.mutexFree = true)
      (hgm : g.gameMaster = v.playerIdOf c) (howner : (playerId, owner) ∈ g.clients) :
      HostMove h v g { g with pc := .discCall c, gameMaster := v.playerIdOf owner }
        { notice := some (owner, true) }
  | discNoMaster {g c} (hpc : g.pc = .discStart c) (hm : g.mutexFree = true)
      (hgm : g.gameMaster = v.playerIdOf c) (hnone : g.clients = []) :
      HostMove h v g { g with pc := .discCall c, gameMaster := 0 } {}
  | discKeep {g c} (hpc : g.pc = .discStart c) (hm : g.mutexFree = true)
      (hgm : g.gameMaster ≠ v.playerIdOf c) :
      HostMove h v g { g with pc := .discCall c } {}
  | discCall {g c} (hpc : g.pc = .discCall c) :
      HostMove h v g { g with pc := .discWait c } { auth := some (.hostUpdateNode h) }
  | discWait {g c ok} (hpc : g.pc = .discWait c) (hr : g.authReply = some ok) :
      HostMove h v g { g with pc := .discEnd c, authReply := none } {}
  | discPost {g c} (hpc : g.pc = .discEnd c) (hempty : g.clients = []) :
      HostMove h v g { g with pc := .discReply c, queue := g.queue ++ [.shutdown true] } {}
  | discStay {g c} (hpc : g.pc = .discEnd c) (hne : g.clients ≠ []) :
      HostMove h v g { g with pc := .discReply c } {}
  | discReply {g c} (hpc : g.pc = .discReply c) :
      HostMove h v g { g with pc := .idle } { reply := some (.worker c, true) }
  | msgReply {g c} (hpc : g.pc = .msg c []) :
      HostMove h v g { g with pc := .idle } { reply := some (.worker c, true) }
  | msgThrow {g c op ops} (hpc : g.pc = .msg c (op :: ops)) :
      HostMove h v g { g with pc := .idle } { reply := some (.worker c, false) }
  | msgOwn {g c ops} (hpc : g.pc = .msg c (.own :: ops)) (hm : g.mutexFree = true) :
      HostMove h v g { g with pc := .msg c ops } {}
  | msgMembersThrow {g c ops} (hpc : g.pc = .msg c (.members :: ops)) (hm : g.mutexFree = true)
      (hempty : g.clients = []) :
      HostMove h v g { g with pc := .idle, mutexFree := false } { reply := some (.worker c, false) }
  | msgMembers {g c ops} (hpc : g.pc = .msg c (.members :: ops)) (hm : g.mutexFree = true)
      (hne : g.clients ≠ []) :
      HostMove h v g { g with pc := .msg c ops } {}
  | msgAuth {g c ops} (hpc : g.pc = .msg c (.auth :: ops)) :
      HostMove h v g { g with pc := .msgWait c ops } { auth := some (.hostUpdateNode h) }
  | msgLock {g c ops} (hpc : g.pc = .msg c (.lock :: ops)) (hm : v.mutex = none) :
      HostMove h v g { g with pc := .msgHold c ops } { mutex := some (some (.host h)) }
  | msgWait {g c ops ok} (hpc : g.pc = .msgWait c ops) (hr : g.authReply = some ok) :
      HostMove h v g { g with pc := .msg c ops, authReply := none } {}
  | msgUnlock {g c ops} (hpc : g.pc = .msgHold c ops) (hm : v.mapFree = true) :
      HostMove h v g { g with pc := .msg c ops } { mutex := some none }
  | sdlAccept {g} (hpc : g.pc = .sdlReply) :
      HostMove h v g { g with pc := .sdlCall } { reply := some (.authDaemon, true) }
  | sdlRefuse {g} (hpc : g.pc = .sdlReply) :
      HostMove h v g { g with pc := .idle } { reply := some (.authDaemon, false) }
  | sdlCall {g} (hpc : g.pc = .sdlCall) :
      HostMove h v g { g with pc := .sdlWait } { auth := some (.hostUpdateNode h) }
  | sdlWait {g ok} (hpc : g.pc = .sdlWait) (hr : g.authReply = some ok) :
      HostMove h v g { g with pc := .bcast, authReply := none } {}
  | bcast {g} (hpc : g.pc = .bcast) (hm : g.mutexFree = true) :
      HostMove h v g { g with pc := .idle } {}
  | shutClose {g b} (hpc : g.pc = .shutClose b) (hm : g.mutexFree = true) :
      HostMove h v g { g with pc := .shutWait b } {}
  | shutWait {g b} (hpc : g.pc = .shutWait b) (hm : g.mutexFree = true) :
      HostMove h v g { g with pc := .shutLock b } {}
  | shutLock {g b} (hpc : g.pc = .shutLock b) (hm : v.mutex = none) :
      HostMove h v g { g with pc := .shutDelete b } { unlink := true }
  | shutDelete {g b} (hpc : g.pc = .shutDelete b) :
      HostMove h v g { g with pc := .deleted } {}

theorem msgStep_move {h : HostPtr} {v : HostView} {g g' : GameHost} {c : ConnId} {ch : Choice}
    {ops : List MsgOp} {eff : HostEffect} (hpc : g.pc = .msg c ops)
    (hs : msgStep h v g c ch ops = some (g', eff)) : HostMove h v g g' eff := by
  cases ops with
  | nil =>
    cases hs
    exact .msgReply hpc
  | cons op ops =>
    unfold msgStep at hs
    dsimp only at hs
    split at hs
    · cases hs
      exact .msgThrow hpc
    cases op with
    | own =>
      simp only [Option.ite_none_right_eq_some] at hs
      obtain ⟨hm, hs⟩ := hs
      cases hs
      exact .msgOwn hpc hm
    | members =>
      simp only at hs
      split at hs
      · cases hs
      rename_i hm
      split at hs
      · rename_i hempty
        cases hs
        exact .msgMembersThrow hpc (by simpa using hm) hempty
      · rename_i hne
        cases hs
        exact .msgMembers hpc (by simpa using hm) hne
    | auth =>
      cases hs
      exact .msgAuth hpc
    | lock =>
      simp only [Option.ite_none_right_eq_some] at hs
      obtain ⟨hm, hs⟩ := hs
      cases hs
      exact .msgLock hpc hm

theorem finishJoin_move {h : HostPtr} {v : HostView} {g : GameHost} {c : ConnId} {accepted : Bool}
    (hpc : g.pc = .joinDone c accepted) (hm : accepted = true → g.mutexFree = true) :
    HostMove h v g (finishJoin v g c accepted).1 (finishJoin v g c accepted).2 := by
  cases accepted with
  | false => exact .joinRefused hpc
  | true =>
    by_cases hgm : g.gameMaster = 0
    · simp only [finishJoin, if_pos hgm, if_true]
      exact .joinFirst hpc (hm rfl) hgm
    · simp only [finishJoin, if_neg hgm, if_true]
      exact .joinOther hpc (hm rfl) hgm

theorem reassignMaster_move {h : HostPtr} {v : HostView} {g : GameHost} {c : ConnId} (pick : Nat)
    (hpc : g.pc = .discStart c) (hm : g.mutexFree = true) :
    HostMove h v g (reassignMaster v g c pick).1 (reassignMaster v g c pick).2 := by
  unfold reassignMaster
  by_cases hgm : g.gameMaster = v.playerIdOf c
  · rw [if_pos hgm]
    cases hget : g.clients[pick % g.clients.length]? with
    | none =>
      refine .discNoMaster hpc hm hgm ?_
      have hlen := List.getElem?_eq_none_iff.1 hget
      by_contra hne
      have hpos := List.length_pos_iff.2 hne
      exact absurd (Nat.mod_lt pick hpos) (by omega)
    | some owner =>
      obtain ⟨playerId, owner⟩ := owner
      exact .discReassign hpc hm hgm (List.mem_of_getElem? hget)
  · rw [if_neg hgm]
    exact .discKeep hpc hm hgm

theorem hostStep_move {h : HostPtr} {v : HostView} {g g' : GameHost} {ch : Choice}
    {eff : HostEffect} (hs : hostStep h v g ch = some (g', eff)) : HostMove h v g g' eff := by
  unfold hostStep at hs
  split at hs
  · cases hs
  · rename_i hpc
    split at hs
    · cases hs
    · rename_i hq
      cases hs
      exact .take hpc hq
  · rename_i hpc
    cases hs
    exact .joinCall hpc
  · rename_i hpc
    obtain ⟨accepted, hr, hs⟩ := Option.map_eq_some_iff.1 hs
    cases hs
    exact .joinWait hpc hr
  · rename_i hpc
    split at hs
    · cases hs
    · rename_i hm
      have hmove := finishJoin_move (h := h) (v := v) hpc fun ha => by simpa [ha] using hm
      rwa [Option.some.inj hs] at hmove
  · rename_i hpc
    simp only [Option.ite_none_right_eq_some, Option.some.injEq] at hs
    obtain ⟨hm, hs⟩ := hs
    have hmove := reassignMaster_move (h := h) (v := v) ch.pick hpc hm
    rwa [hs] at hmove
  · rename_i hpc
    cases hs
    exact .discCall hpc
  · rename_i hpc
    obtain ⟨ok, hr, hs⟩ := Option.map_eq_some_iff.1 hs
    cases hs
    exact .discWait hpc hr
  · rename_i hpc
    split at hs
    · rename_i hempty
      cases hs
      exact .discPost hpc hempty
    · rename_i hne
      cases hs
      exact .discStay hpc hne
  · rename_i hpc
    cases hs
    exact .discReply hpc
  · rename_i hpc
    exact msgStep_move hpc hs
  · rename_i hpc
    obtain ⟨ok, hr, hs⟩ := Option.map_eq_some_iff.1 hs
    cases hs
    exact .msgWait hpc hr
  · rename_i hpc
    simp only [Option.ite_none_right_eq_some] at hs
    obtain ⟨hm, hs⟩ := hs
    cases hs
    exact .msgUnlock hpc hm
  · rename_i hpc
    cases hs
    cases ch.ok with
    | true => exact .sdlAccept hpc
    | false => exact .sdlRefuse hpc
  · rename_i hpc
    cases hs
    exact .sdlCall hpc
  · rename_i hpc
    obtain ⟨ok, hr, hs⟩ := Option.map_eq_some_iff.1 hs
    cases hs
    exact .sdlWait hpc hr
  · rename_i hpc
    simp only [Option.ite_none_right_eq_some] at hs
    obtain ⟨hm, hs⟩ := hs
    cases hs
    exact .bcast hpc hm
  · rename_i hpc
    simp only [Option.ite_none_right_eq_some] at hs
    obtain ⟨hm, hs⟩ := hs
    cases hs
    exact .shutClose hpc hm
  · rename_i hpc
    simp only [Option.ite_none_right_eq_some] at hs
    obtain ⟨hm, hs⟩ := hs
    cases hs
    exact .shutWait hpc hm
  · rename_i hpc
    simp only [Option.ite_none_right_eq_some] at hs
    obtain ⟨hm, hs⟩ := hs
    cases hs
    exact .shutLock hpc hm
  · rename_i hpc
    cases hs
    exact .shutDelete hpc
  · cases hs

/-- The moves of a worker, inside a callback or at a message of its client. -/
inductive WorkerMove (c : ConnId) (v : WorkerView) :
    GameWorker → GameWorker → WorkerEffect → Prop where
  | joinNobody {w} (hpc : w.pc = .idle) : WorkerMove c v w { w with playerId := 0 } {}
  | recvJoin {w mcpId playerId} (hpc : w.pc = .idle) (hp : playerId ≠ 0) :
      WorkerMove c v w { w with playerId := playerId, pc := .lookup mcpId } {}
  | recvMsg {w h ops} (hpc : w.pc = .idle) (hops : ValidOps ops) (hh : w.mHost = some h) :
      WorkerMove c v w { w with pc := .waitMsg } { act := some (h, .put (.propagate c ops)) }
  | hangup {w} (hpc : w.pc = .idle) : WorkerMove c v w { w with pc := .cleanup } {}
  | find {w mcpId h} (hpc : w.pc = .lookup mcpId) (hm : v.mutex = none)
      (hfind : v.find mcpId = some h) : WorkerMove c v w { w with pc := .found h } {}
  | miss {w mcpId} (hpc : w.pc = .lookup mcpId) (hm : v.mutex = none)
      (hfind : v.find mcpId = none) : WorkerMove c v w { w with pc := .startSelect mcpId } {}
  | select {w mcpId age} (hpc : w.pc = .startSelect mcpId) :
      WorkerMove c v w { w with pc := .startFetch mcpId v.nextHost }
        { auth := some (.fetchSDL c)
          alloc := some { serverIdx := mcpId, ageFilename := age } }
  | selectFails {w mcpId} (hpc : w.pc = .startSelect mcpId) : WorkerMove c v w w.noHost {}
  | fetchFails {w mcpId h ok rest} (hpc : w.pc = .startFetch mcpId h) (hr : w.chan = ok :: rest) :
      WorkerMove c v w { w.noHost with chan := rest } { act := some (h, .free) }
  | fetched {w mcpId h ok rest} (hpc : w.pc = .startFetch mcpId h) (hr : w.chan = ok :: rest) :
      WorkerMove c v w { w with pc := .startInsert mcpId h, chan := rest } {}
  | fetchedOld {w mcpId h ok rest} (hpc : w.pc = .startFetch mcpId h) (hr : w.chan = ok :: rest) :
      WorkerMove c v w { w with pc := .startUpdate mcpId h, chan := rest }
        { auth := some (.startUpdateNode c) }
  | updated {w mcpId h ok rest} (hpc : w.pc = .startUpdate mcpId h) (hr : w.chan = ok :: rest) :
      WorkerMove c v w { w with pc := .startInsert mcpId h, chan := rest } {}
  | publish {w mcpId h} (hpc : w.pc = .startInsert mcpId h) (hm : v.mutex = none) :
      WorkerMove c v w { w with pc := .startLoad h } { publish := some (mcpId, h) }
  | start {w h} (hpc : w.pc = .startLoad h) :
      WorkerMove c v w { w with pc := .found h } { act := some (h, .start) }
  | startThrows {w h} (hpc : w.pc = .startLoad h) : WorkerMove c v w w.noHost {}
  | callNode {w h} (hpc : w.pc = .found h) :
      WorkerMove c v w { w with pc := .waitNode, mHost := some h } { auth := some (.fetchNode c) }
  | putJoin {w h rest} (hpc : w.pc = .waitNode) (hr : w.chan = true :: rest)
      (hh : w.mHost = some h) :
      WorkerMove c v w { w with pc := .waitJoin, chan := rest } { act := some (h, .put (.join c)) }
  | noNode {w rest} (hpc : w.pc = .waitNode) (hr : w.chan = false :: rest) :
      WorkerMove c v w { w with pc := .idle, chan := rest } {}
  | joined {w ok rest} (hpc : w.pc = .waitJoin) (hr : w.chan = ok :: rest) :
      WorkerMove c v w { w with pc := .insertClient, chan := rest } {}
  | joinHup {w ok rest} (hpc : w.pc = .waitJoin) (hr : w.chan = ok :: rest) :
      WorkerMove c v w { w with pc := .cleanup, chan := rest } {}
  | insert {w h} (hpc : w.pc = .insertClient) (hh : w.mHost = some h) (hm : v.hostFree h = true) :
      WorkerMove c v w { w with pc := .idle } { act := some (h, .insert w.playerId c) }
  | msgDone {w ok rest} (hpc : w.pc = .waitMsg) (hr : w.chan = ok :: rest) :
      WorkerMove c v w { w with pc := .idle, chan := rest } {}
  | endFree {w} (hpc : w.pc = .cleanup) (hh : w.mHost = none) :
      WorkerMove c v w { w with pc := .ended } {}
  | erase {w h} (hpc : w.pc = .cleanup) (hh : w.mHost = some h) (hm : v.hostFree h = true) :
      WorkerMove c v w { w with pc := .putDisc } { act := some (h, .erase w.playerId) }
  | putDisc {w h} (hpc : w.pc = .putDisc) (hh : w.mHost = some h) :
      WorkerMove c v w { w with pc := .waitDisc } { act := some (h, .put (.disconnect c)) }
  | discDone {w ok rest} (hpc : w.pc = .waitDisc) (hr : w.chan = ok :: rest) :
      WorkerMove c v w { w with pc := .ended, chan := rest } {}

theorem recvStep_move {c : ConnId} {v : WorkerView} {w w' : GameWorker} {e : Event}
    {eff : WorkerEffect} (hpc : w.pc = .idle) (hs : recvStep c w e = some (w', eff)) :
    WorkerMove c v w w' eff := by
  unfold recvStep at hs
  split at hs
  · split at hs
    · cases hs
      exact .joinNobody hpc
    · rename_i hp
      cases hs
      exact .recvJoin hpc hp
  · split at hs
    · rename_i hops
      split at hs
      · cases hs
        exact .hangup hpc
      · rename_i hh
        cases hs
        exact .recvMsg hpc hops hh
    · cases hs
  · cases hs
    exact .hangup hpc
  · cases hs

theorem workerStep_move {c : ConnId} {v : WorkerView} {w w' : GameWorker} {ch : Choice}
    {eff : WorkerEffect} (hs : workerStep c v w ch = some (w', eff)) :
    WorkerMove c v w w' eff := by
  unfold workerStep at hs
  split at hs
  · cases hs
  · rename_i hpc
    split at hs
    · cases hs
    rename_i hm
    split at hs
    · rename_i hfind
      cases hs
      exact .find hpc (not_not.1 hm) hfind
    · rename_i hfind
      cases hs
      exact .miss hpc (not_not.1 hm) hfind
  · rename_i hpc
    split at hs
    · cases hs
      exact .select hpc
    · cases hs
      exact .selectFails hpc
  · rename_i hpc
    split at hs
    · cases hs
    rename_i hr
    split at hs
    · cases hs
      exact .fetchFails hpc hr
    split at hs
    · cases hs
      exact .fetched hpc hr
    · cases hs
      exact .fetchedOld hpc hr
  · rename_i hpc
    split at hs
    · cases hs
    · rename_i hr
      cases hs
      exact .updated hpc hr
  · rename_i hpc
    split at hs
    · cases hs
    · rename_i hm
      cases hs
      exact .publish hpc (not_not.1 hm)
  · rename_i hpc
    split at hs
    · cases hs
      exact .start hpc
    · cases hs
      exact .startThrows hpc
  · rename_i hpc
    cases hs
    exact .callNode hpc
  · rename_i hpc
    split at hs
    · rename_i hr hh
      cases hs
      exact .putJoin hpc hr hh
    · rename_i hr
      cases hs
      exact .noNode hpc hr
    · cases hs
  · rename_i hpc
    split at hs
    · cases hs
    · rename_i hr
      cases hs
      cases ch.ok with
      | true => exact .joined hpc hr
      | false => exact .joinHup hpc hr
  · rename_i hpc
    obtain ⟨h, hh, hs⟩ := Option.bind_eq_some_iff.1 hs
    simp only [Option.ite_none_right_eq_some] at hs
    obtain ⟨hm, hs⟩ := hs
    cases hs
    exact .insert hpc hh hm
  · rename_i hpc
    split at hs
    · cases hs
    · rename_i hr
      cases hs
      exact .msgDone hpc hr
  · rename_i hpc
    split at hs
    · rename_i hh
      cases hs
      exact .endFree hpc hh
    · rename_i hh
      simp only [Option.ite_none_right_eq_some] at hs
      obtain ⟨hm, hs⟩ := hs
      cases hs
      exact .erase hpc hh hm
  · rename_i hpc
    obtain ⟨h, hh, hs⟩ := Option.bind_eq_some_iff.1 hs
    cases hs
    exact .putDisc hpc hh
  · rename_i hpc
    split at hs
    · cases hs
    · rename_i hr
      cases hs
      exact .discDone hpc hr
  · cases hs

/-- What the daemon does next with a client's request. -/
def AuthReq.daemonPc : AuthReq → DaemonPc
  | .clientUpdateSdl mcpId => .wantLock mcpId
  | .updateGlobalSDL age => .wantGlobal age
  | _ => .idle

theorem DaemonPc.idle_ne (k : HostPtr) : DaemonPc.idle ≠ .waitHost k := by simp

theorem AuthReq.daemonPc_ne (r : AuthReq) (h : HostPtr) : r.daemonPc ≠ .waitHost h := by
  cases r <;> simp [AuthReq.daemonPc]

/-- The moves of the auth daemon. -/
inductive DaemonMove (s : State) : State → Prop where
  | host {r h rest ok} (hd : s.daemon = .idle) (hc : s.authChan = r :: rest)
      (hr : r = .updateAgeSrv h ∨ r = .hostUpdateNode h) :
      DaemonMove s ({ s with authChan := rest }.answerHost h ok)
  | worker {r c rest ok} (hd : s.daemon = .idle) (hc : s.authChan = r :: rest)
      (hr : r = .fetchSDL c ∨ r = .startUpdateNode c ∨ r = .fetchNode c) :
      DaemonMove s ({ s with authChan := rest }.answerWorker c ok)
  | client {r rest} (hd : s.daemon = .idle) (hc : s.authChan = r :: rest)
      (hr : r.fromClient = true) :
      DaemonMove s { s with authChan := rest, daemon := r.daemonPc }
  | miss {mcpId} (hd : s.daemon = .wantLock mcpId) (hm : s.mutex = none)
      (hfind : s.find mcpId = none) : DaemonMove s { s with daemon := .idle }
  | forward {mcpId h} (hd : s.daemon = .wantLock mcpId) (hm : s.mutex = none)
      (hfind : s.find mcpId = some h) :
      DaemonMove s { s.modifyHost h (HostAct.put .localSdl).run with
        daemon := .waitHost h, mutex := some .authDaemon }
  | back {h ok rest} (hd : s.daemon = .waitHost h) (hr : s.daemonChan = ok :: rest) :
      DaemonMove s { s with daemon := .idle, daemonChan := rest, mutex := none }
  | global {age} (hd : s.daemon = .wantGlobal age) (hm : s.mutex = none) :
      DaemonMove s { s.putAll (fun g => g.ageFilename = age) .globalSdl with daemon := .idle }

theorem daemonStep_move {s s' : State} {ch : Choice} (hs : daemonStep s ch = some s') :
    DaemonMove s s' := by
  unfold daemonStep at hs
  split at hs
  · rename_i hd
    split at hs
    · cases hs
    rename_i r rest hc
    cases r with
    | updateAgeSrv h =>
      cases hs
      exact .host hd hc (.inl rfl)
    | hostUpdateNode h =>
      cases hs
      exact .host hd hc (.inr rfl)
    | fetchSDL c =>
      cases hs
      exact .worker hd hc (.inl rfl)
    | startUpdateNode c =>
      cases hs
      exact .worker hd hc (.inr (.inl rfl))
    | fetchNode c =>
      cases hs
      exact .worker hd hc (.inr (.inr rfl))
    | clientUpdateSdl mcpId =>
      cases hs
      exact .client hd hc rfl
    | updateGlobalSDL age =>
      cases hs
      exact .client hd hc rfl
    | other =>
      cases hs
      have hidle : ({ s with authChan := rest } : State) =
          { s with authChan := rest, daemon := .idle } := by rw [← hd]
      rw [hidle]
      exact .client hd hc rfl
  · rename_i hd
    split at hs
    · cases hs
    rename_i hm
    split at hs
    · rename_i hfind
      cases hs
      exact .miss hd (not_not.1 hm) hfind
    · rename_i hfind
      cases hs
      exact .forward hd (not_not.1 hm) hfind
  · rename_i hd
    split at hs
    · cases hs
    · rename_i hr
      cases hs
      exact .back hd hr
  · rename_i hd
    split at hs
    · cases hs
    · rename_i hm
      cases hs
      exact .global hd (not_not.1 hm)

/-- Which move an event is. -/
inductive StepCase (s : State) : Event → State → Prop where
  | accept {c} (hw : s.workers c = none) :
      StepCase s (.accept c) { s with workers := Function.update s.workers c (some {}) }
  | recv {e c w w' eff} (hw : s.workers c = some w) (hidle : w.pc = .idle)
      (hmove : WorkerMove c s.workerView w w' eff) : StepCase s e (s.applyWorker c w' eff)
  | worker {c ch w w' eff} (hw : s.workers c = some w)
      (hstep : workerStep c s.workerView w ch = some (w', eff))
      (hmove : WorkerMove c s.workerView w w' eff) :
      StepCase s (.worker c ch) (s.applyWorker c w' eff)
  | host {h ch g g' eff} (hg : s.hosts h = some g) (hmove : HostMove h s.hostView g g' eff) :
      StepCase s (.host h ch) (s.applyHost h g' eff)
  | daemon {ch s'} (hmove : DaemonMove s s') : StepCase s (.daemon ch) s'
  | authRequest {r} (hr : r.fromClient = true) :
      StepCase s (.authRequest r) { s with authChan := s.authChan ++ [r] }
  | serverShutdown (hm : s.mutex = none) :
      StepCase s .serverShutdown (s.putAll (fun _ => true) (.shutdown false))

theorem recv_case {s s' : State} {c : ConnId} {e : Event} (hs : s.recv c e = some s') :
    StepCase s e s' := by
  obtain ⟨w, hw, hs⟩ := Option.bind_eq_some_iff.1 hs
  split at hs
  · cases hs
  rename_i hidle
  obtain ⟨⟨w', eff⟩, hrecv, hs⟩ := Option.bind_eq_some_iff.1 hs
  cases hs
  exact .recv hw (not_not.1 hidle) (recvStep_move (not_not.1 hidle) hrecv)

theorem step_case {s s' : State} {e : Event} (hs : step s e = some s') : StepCase s e s' := by
  cases e with
  | accept c =>
    rw [step] at hs
    split at hs
    · cases hs
    · rename_i hnone
      cases hs
      exact .accept (by simpa using hnone)
  | recvJoin c mcpId playerId => exact recv_case hs
  | recvMsg c ops => exact recv_case hs
  | hangup c => exact recv_case hs
  | authRequest r =>
    simp only [step, Option.ite_none_right_eq_some] at hs
    obtain ⟨hr, hs⟩ := hs
    cases hs
    exact .authRequest hr
  | serverShutdown =>
    rw [step] at hs
    split at hs
    · cases hs
    · rename_i hm
      cases hs
      exact .serverShutdown (not_not.1 hm)
  | worker c ch =>
    obtain ⟨w, hw, hs⟩ := Option.bind_eq_some_iff.1 hs
    obtain ⟨⟨w', eff⟩, hstep, hs⟩ := Option.bind_eq_some_iff.1 hs
    cases hs
    exact .worker hw hstep (workerStep_move hstep)
  | host h ch =>
    obtain ⟨g, hg, hs⟩ := Option.bind_eq_some_iff.1 hs
    obtain ⟨⟨g', eff⟩, hstep, hs⟩ := Option.bind_eq_some_iff.1 hs
    cases hs
    exact .host hg (hostStep_move hstep)
  | daemon ch => exact .daemon (daemonStep_move hs)

end Dirtsand.GameServ
