import Dirtsand.GameServ.Calls

/-!
# The clients of a host

`m_clients` is filled by the worker of a connection after its join, under the
player id that the connection has then, and emptied by the worker at its end.
The host's thread reads it.

* `members_sound` — in a run that meets `MemberOk`, each entry is a live connection
  whose latest join was to this host, with this player, and was accepted by the
  auth daemon, and the host handles game messages of its clients only.
* `refused_member` — a run in which a connection whose join was refused becomes a
  client.
-/

namespace Dirtsand.GameServ

/-- The connection whose game message the host handles. -/
def HostPc.message : HostPc → Option ConnId
  | .msg c _ => some c
  | .msgWait c _ => some c
  | .msgHold c _ => some c
  | _ => none

structure MembersSound (s : State) (past : Past) : Prop where
  entries : ∀ h g p c, s.hosts h = some g → g.pc ≠ .deleted → (p, c) ∈ g.clients →
    (∃ w, s.workers c = some w ∧ w.pc ≠ .ended) ∧
      latestJoin c past = some (g.serverIdx, p) ∧ joinAnswer c past = some (h, true)
  messages : ∀ h g c, s.hosts h = some g → g.pc.message = some c → ∃ p, (p, c) ∈ g.clients

/-! ## The condition -/

/-- Nobody joins who is a client of a host already, and who is refused is gone
when the reply is sent on. -/
def JoinOk (s : State) : Event → Prop
  | .recvJoin c _ _ => ∀ h g p, s.hosts h = some g → g.pc ≠ .deleted → (p, c) ∉ g.clients
  | .worker c ch => ∀ w, s.workers c = some w → w.pc = .waitJoin → w.chan.head? = some false →
      ch.ok = false
  | _ => True

/-- **The condition on a step.**  Beside `JoinOk`: who sends a game message is a
client of its host, and no worker takes away the entry of another connection
whose game message the host has still to handle. -/
def MemberOk (s : State) (e : Event) : Prop :=
  JoinOk s e ∧ match e with
    | .recvMsg c _ => ∀ w h g, s.workers c = some w → w.mHost = some h → s.hosts h = some g →
        ∃ p, (p, c) ∈ g.clients
    | .worker c _ => ∀ w h g c', s.workers c = some w → w.mHost = some h → s.hosts h = some g →
        w.pc = .insertClient ∨ w.pc = .cleanup → c' ≠ c → (w.playerId, c') ∈ g.clients →
        ¬ g.Calls c' .waitMsg
    | _ => True

/-! ## What moves do to a member -/

/-- The worker of a client that is in `m_clients`. -/
def GameWorker.IsMember (w : GameWorker) (h : HostPtr) (playerId : UInt32) : Prop :=
  w.mHost = some h ∧ w.playerId = playerId ∧ (w.pc = .idle ∨ w.pc = .waitMsg ∨ w.pc = .cleanup)

/-- A member goes on as one, or takes itself out. -/
theorem WorkerMove.member {c : ConnId} {v : WorkerView} {w w' : GameWorker} {eff : WorkerEffect}
    {h : HostPtr} {p : UInt32} (hmove : WorkerMove c v w w' eff)
    (hidle : w.pc = .idle → w'.pc = .waitMsg ∨ w'.pc = .cleanup) (hw : w.IsMember h p) :
    w'.IsMember h p ∨ eff.act = some (h, .erase p) := by
  obtain ⟨hm, rfl, hpc⟩ := hw
  cases hmove <;> simp_all [GameWorker.IsMember]

theorem WorkerMove.inserts {c : ConnId} {v : WorkerView} {w w' : GameWorker} {eff : WorkerEffect}
    {h : HostPtr} {p : UInt32} {c' : ConnId} (hmove : WorkerMove c v w w' eff)
    (hact : eff.act = some (h, .insert p c')) :
    c' = c ∧ p = w.playerId ∧ w.pc = .insertClient ∧ w.mHost = some h ∧
      w' = { w with pc := .idle } := by
  cases hmove <;> simp_all

theorem WorkerMove.to_waitJoin {c : ConnId} {v : WorkerView} {w w' : GameWorker}
    {eff : WorkerEffect} (hmove : WorkerMove c v w w' eff) (hpc : w'.pc = .waitJoin) :
    w.pc = .waitNode ∧ w.chan = true :: w'.chan := by
  cases hmove <;> simp_all [GameWorker.noHost]

theorem WorkerMove.to_insertClient {c : ConnId} {v : WorkerView} {w w' : GameWorker}
    {eff : WorkerEffect} (hmove : WorkerMove c v w w' eff) (hpc : w'.pc = .insertClient) :
    w.pc = .waitJoin ∧ w'.mHost = w.mHost ∧ ∃ ok, w.chan = ok :: w'.chan := by
  cases hmove <;> simp_all [GameWorker.noHost]

/-- Where a refused one is gone when the reply is sent on, who gets on was
accepted. -/
theorem WorkerMove.accepted {c : ConnId} {v : WorkerView} {w w' : GameWorker} {eff : WorkerEffect}
    {ch : Choice} (hmove : WorkerMove c v w w' eff) (hstep : workerStep c v w ch = some (w', eff))
    (hgone : w.pc = .waitJoin → w.chan.head? = some false → ch.ok = false)
    (hpc : w'.pc = .insertClient) : w.chan.head? = some true := by
  obtain ⟨hwait, -, ok, hchan⟩ := hmove.to_insertClient hpc
  rw [hchan, List.head?_cons]
  cases ok with
  | true => rfl
  | false =>
    have hok := hgone hwait (by rw [hchan, List.head?_cons])
    simp only [workerStep, hwait, hchan, hok, Bool.false_eq_true, if_false, Option.some.injEq,
      Prod.mk.injEq] at hstep
    rw [← hstep.1] at hpc
    cases hpc

/-- What a worker does to the clients of a host. -/
theorem WorkerEffect.onHost_clients {eff : WorkerEffect} {h : HostPtr} {g : GameHost} {p : UInt32}
    {c : ConnId} (hmem : (p, c) ∈ (eff.onHost h g).clients) :
    ((p, c) ∈ g.clients ∧ eff.act ≠ some (h, .erase p)) ∨ eff.act = some (h, .insert p c) := by
  unfold WorkerEffect.onHost at hmem
  split at hmem
  · rename_i k act hact
    split at hmem
    · rename_i hk
      subst hk
      cases act with
      | put m | start | free => exact .inl ⟨hmem, by simp [hact]⟩
      | erase p' =>
        obtain ⟨hmem, hne⟩ := List.mem_filter.1 hmem
        refine .inl ⟨hmem, fun heq => ?_⟩
        simp only [hact, Option.some.injEq, Prod.mk.injEq, HostAct.erase.injEq, true_and] at heq
        simp [heq] at hne
      | insert p' c' =>
        obtain heq | hmem := List.mem_cons.1 hmem
        · cases heq
          exact .inr hact
        · exact .inl ⟨(List.mem_filter.1 hmem).1, by simp [hact]⟩
    · rename_i hk
      refine .inl ⟨hmem, fun heq => ?_⟩
      rw [hact, Option.some.injEq, Prod.mk.injEq] at heq
      exact hk heq.1
  · rename_i hact
    exact .inl ⟨hmem, by simp [hact]⟩

/-- What a worker's step takes from the clients of a host. -/
theorem WorkerEffect.onHost_keeps {h : HostPtr} {g : GameHost} {p : UInt32} {c : ConnId}
    (eff : WorkerEffect) (hmem : (p, c) ∈ g.clients) (hgone : (p, c) ∉ (eff.onHost h g).clients) :
    eff.act = some (h, .erase p) ∨ ∃ c', eff.act = some (h, .insert p c') := by
  unfold WorkerEffect.onHost at hgone
  split at hgone
  · rename_i k act hact
    split at hgone
    · rename_i hk
      subst hk
      cases act with
      | put m | start | free => exact absurd hmem hgone
      | erase p' =>
        by_cases hp : p = p'
        · subst hp
          exact .inl hact
        · exact absurd (List.mem_filter.2 ⟨hmem, by simpa using hp⟩) hgone
      | insert p' c' =>
        by_cases hp : p = p'
        · subst hp
          exact .inr ⟨c', hact⟩
        · exact absurd (List.mem_cons_of_mem _ (List.mem_filter.2 ⟨hmem, by simpa using hp⟩)) hgone
    · exact absurd hmem hgone
  · exact absurd hmem hgone

theorem WorkerMove.takes_entry {c : ConnId} {v : WorkerView} {w w' : GameWorker}
    {eff : WorkerEffect} {h : HostPtr} {p : UInt32} (hmove : WorkerMove c v w w' eff)
    (hact : eff.act = some (h, .erase p) ∨ ∃ c', eff.act = some (h, .insert p c')) :
    w.mHost = some h ∧ w.playerId = p ∧ (w.pc = .insertClient ∨ w.pc = .cleanup) := by
  cases hmove <;> simp_all

theorem WorkerMove.to_waitMsg {c : ConnId} {v : WorkerView} {w w' : GameWorker}
    {eff : WorkerEffect} {h : HostPtr} {m : HostMsg} (hmove : WorkerMove c v w w' eff)
    (hact : eff.act = some (h, .put m)) (hpc : w'.pc = .waitMsg) : w.pc = .idle := by
  cases hmove <;> simp_all

theorem WorkerMove.alloc_clients {c : ConnId} {v : WorkerView} {w w' : GameWorker}
    {eff : WorkerEffect} {g : GameHost} (hmove : WorkerMove c v w w' eff)
    (halloc : eff.alloc = some g) : g.clients = [] ∧ g.gameMaster = 0 := by
  cases hmove with
  | select hpc =>
    cases halloc
    exact ⟨rfl, rfl⟩
  | _ => cases halloc

/-- A client of a host after a worker's move. -/
theorem State.applyWorker_clients {s : State} {c : ConnId} {w w' : GameWorker}
    {eff : WorkerEffect} {k : HostPtr} {g' : GameHost} {p : UInt32} {c' : ConnId}
    (hmove : WorkerMove c s.workerView w w' eff)
    (hg' : (s.applyWorker c w' eff).hosts k = some g') (hmem : (p, c') ∈ g'.clients) :
    ∃ g, s.hosts k = some g ∧ g' = eff.onHost k g ∧
      (((p, c') ∈ g.clients ∧ eff.act ≠ some (k, .erase p)) ∨ eff.act = some (k, .insert p c')) := by
  obtain ⟨g, hg, rfl⟩ := Option.map_eq_some_iff.1 hg'
  have hclients := WorkerEffect.onHost_clients hmem
  cases halloc : eff.alloc with
  | none =>
    rw [halloc] at hg
    exact ⟨g, hg, rfl, hclients⟩
  | some a =>
    rw [halloc] at hg
    obtain ⟨rfl, rfl⟩ | ⟨-, hg⟩ := Lib.update_eq_some hg
    · obtain ⟨hact, -⟩ := hmove.alloc_fresh halloc
      obtain ⟨hnone, -⟩ := hmove.alloc_clients halloc
      obtain ⟨hmem, -⟩ | hins := hclients
      · rw [hnone] at hmem
        cases hmem
      · rw [hact] at hins
        cases hins
    · exact ⟨g, hg, rfl, hclients⟩

/-- A worker leaves the thread of a host alone. -/
theorem StartInv.onHost_pc_eq {s : State} {c : ConnId} {w w' : GameWorker} {eff : WorkerEffect}
    {k : HostPtr} {g : GameHost} (h : StartInv s) (hw : s.workers c = some w)
    (hmove : WorkerMove c s.workerView w w' eff) (hg : s.hosts k = some g)
    (hne : g.pc ≠ .unstarted) : (eff.onHost k g).pc = g.pc := by
  refine WorkerEffect.onHost_pc fun act hact => ?_
  obtain hok | hstarting := hmove.act_starting hact
  · exact hok
  · obtain ⟨g₁, hg₁, hun⟩ := h.starting c w k hw hstarting
    rw [hg] at hg₁
    cases hg₁
    exact absurd hun hne

/-- A reply to a join comes from `dm_game_join`, and is the answer that it got. -/
theorem HostMove.reply_call {h : HostPtr} {v : HostView} {g g' : GameHost} {eff : HostEffect}
    {c : ConnId} {ok : Bool} (hmove : HostMove h v g g' eff)
    (hr : eff.reply = some (.worker c, ok)) :
    ∃ pc, g.pc.call = some (c, pc) ∧ (pc = .waitJoin → g.pc = .joinDone c ok) := by
  cases hmove <;> simp_all [HostPc.call]

/-- What the daemon does with the join it answers next. -/
theorem daemonStep_join {s s' : State} {ch : Choice} {k : HostPtr} {c : ConnId}
    (hat : s.joinAtDaemon = some (k, c)) (hstep : daemonStep s ch = some s') :
    ∃ g rest, s.hosts k = some g ∧ g.pc = .joinWait c ∧
      s' = { s with authChan := rest }.answerHost k ch.ok := by
  unfold State.joinAtDaemon at hat
  split at hat
  · rename_i h rest hd hc
    split at hat
    · rename_i c' hpc
      cases hat
      obtain ⟨g, hg, hpc⟩ := Option.map_eq_some_iff.1 hpc
      refine ⟨g, rest, hg, hpc, ?_⟩
      simp only [daemonStep, hd, hc, Option.some.injEq] at hstep
      rw [← hstep, hd]
    · cases hat
  · cases hat

/-! ## The invariant -/

structure JoinInv (s : State) (past : Past) : Prop where
  ask : AskInv s past
  answers : AnswerInv s
  calls : CallInv s
  requests : RequestInv s
  /-- A host knows the answer of the auth daemon. -/
  answered : ∀ h g c ok, s.hosts h = some g →
    (g.pc = .joinWait c ∧ g.authReply = some ok) ∨ g.pc = .joinDone c ok →
    joinAnswer c past = some (h, ok)
  /-- A worker knows it. -/
  told : ∀ c w h ok, s.workers c = some w → w.mHost = some h →
    (w.pc = .waitJoin ∧ ok ∈ w.chan) ∨ (w.pc = .insertClient ∧ ok = true) →
    joinAnswer c past = some (h, ok)
  member : ∀ h g p c, s.hosts h = some g → g.pc ≠ .deleted → (p, c) ∈ g.clients →
    (∃ w, s.workers c = some w ∧ w.IsMember h p) ∧
      latestJoin c past = some (g.serverIdx, p) ∧ joinAnswer c past = some (h, true)

namespace JoinInv

variable {s s' : State} {past past' : Past}

theorem initial : JoinInv State.initial [] :=
  ⟨.initial, .initial, fun _ _ _ _ _ hg => (nomatch hg), fun _ _ _ hg => (nomatch hg),
    fun _ _ _ _ hg => (nomatch hg), fun _ _ _ _ hw => (nomatch hw), fun _ _ _ _ hg => (nomatch hg)⟩

/-- The worker of a join that a host has before it waits for it. -/
theorem joiner (h : JoinInv s past) {k : HostPtr} {g : GameHost} {c : ConnId} {pc : WorkerPc}
    (hg : s.hosts k = some g) (hcall : g.pc.call = some (c, pc)) :
    ∃ w, s.workers c = some w ∧ w.pc = pc ∧ w.mHost = some k ∧ w.chan = [] := by
  obtain ⟨w, hw, -, hm, hchan⟩ := h.answers.caller hg (.inr hcall)
  exact ⟨w, hw, h.calls k g c w pc hg hw (.inr hcall), hm, hchan⟩

/-- The parts that hold in any run. -/
theorem base {e : Event} (h : JoinInv s past) (hs : GameServ.step s e = some s') :
    AskInv s' ((s, e) :: past) ∧ AnswerInv s' ∧ CallInv s' ∧ RequestInv s' :=
  ⟨h.ask.step hs, h.answers.step hs, h.calls.step h.answers hs, h.requests.step h.answers hs⟩

/-- A worker goes on, or gets a message that is not a join. -/
theorem worker {c : ConnId} {w w' : GameWorker} {eff : WorkerEffect} (h : JoinInv s past)
    (hbase : AskInv (s.applyWorker c w' eff) past' ∧ AnswerInv (s.applyWorker c w' eff) ∧
      CallInv (s.applyWorker c w' eff) ∧ RequestInv (s.applyWorker c w' eff))
    (hpast : ∀ c, joinAnswer c past' = joinAnswer c past ∧ latestJoin c past' = latestJoin c past)
    (hw : s.workers c = some w) (hmove : WorkerMove c s.workerView w w' eff)
    (hidle : w.pc = .idle → w'.pc = .waitMsg ∨ w'.pc = .cleanup)
    (hjoined : w'.pc = .insertClient → w.chan.head? = some true) :
    JoinInv (s.applyWorker c w' eff) past' := by
  obtain ⟨hask, hans, hcalls, hreq⟩ := hbase
  refine ⟨hask, hans, hcalls, hreq, fun k g' c' ok hg' hpc => ?_, fun c' w₁ k ok hw₁ hm hpc => ?_,
    fun k g' p c' hg' hdel hmem => ?_⟩
  · have hcall : g'.pc.call ≠ none := by
      obtain ⟨hpc, -⟩ | hpc := hpc <;> simp [hpc, HostPc.call]
    obtain ⟨g, hg, heq, hreply⟩ := State.applyWorker_call hmove hg' hcall
    rw [heq, hreply] at hpc
    rw [(hpast c').1]
    exact h.answered k g c' ok hg hpc
  · rw [(hpast c').1]
    obtain ⟨rfl, rfl⟩ | ⟨-, hw₁⟩ := Lib.update_eq_some hw₁
    · obtain ⟨hpc, hok⟩ | ⟨hpc, rfl⟩ := hpc
      · -- Nothing is on its channel when it begins to wait.
        obtain ⟨hnode, hchan⟩ := hmove.to_waitJoin hpc
        have hsettled := h.answers.settled hw
        simp only [GameWorker.Settled, hnode, hchan, WorkerPc.hostWait, WorkerPc.authWait,
          List.length_cons, Bool.or_true, if_true] at hsettled
        rw [List.length_eq_zero_iff.1 (show w₁.chan.length = 0 by omega)] at hok
        cases hok
      · obtain ⟨hwait, hmEq, ok, hchan⟩ := hmove.to_insertClient hpc
        have hhead := hjoined hpc
        rw [hchan, List.head?_cons, Option.some.injEq] at hhead
        refine h.told c' w k true hw (hmEq ▸ hm) (.inl ⟨hwait, ?_⟩)
        rw [hchan, hhead]
        exact List.mem_cons_self
    · exact h.told c' w₁ k ok hw₁ hm hpc
  · obtain ⟨g, hg, rfl, hold | hins⟩ := State.applyWorker_clients hmove hg' hmem
    · obtain ⟨hmem, hnot⟩ := hold
      have hdel' : g.pc ≠ .deleted := by
        intro hd
        apply hdel
        rw [h.answers.start.onHost_pc_eq hw hmove hg (by simp [hd]), hd]
      obtain ⟨⟨w₁, hw₁, hmem₁⟩, hlatest, hanswer⟩ := h.member k g p c' hg hdel' hmem
      rw [(hpast c').1, (hpast c').2, eff.onHost_serverIdx]
      refine ⟨?_, hlatest, hanswer⟩
      by_cases hc : c' = c
      · subst hc
        rw [hw] at hw₁
        cases hw₁
        obtain hstill | herase := hmove.member hidle hmem₁
        · exact ⟨w', Function.update_self .., hstill⟩
        · exact absurd herase hnot
      · exact ⟨w₁, (Function.update_of_ne hc ..).trans hw₁, hmem₁⟩
    · obtain ⟨rfl, rfl, hpc, hm, rfl⟩ := hmove.inserts hins
      obtain ⟨-, g₁, hg₁, hlatest⟩ := h.ask.joins c' w k hw (by simp [GameWorker.joins, hpc, hm])
      rw [hg] at hg₁
      cases hg₁
      rw [(hpast c').1, (hpast c').2, eff.onHost_serverIdx]
      exact ⟨⟨_, Function.update_self .., hm, rfl, .inl rfl⟩, hlatest,
        h.told c' w k true hw hm (.inr ⟨hpc, rfl⟩)⟩

theorem host {k : HostPtr} {g g' : GameHost} {eff : HostEffect} {ch : Choice} (h : JoinInv s past)
    (hbase : AskInv (s.applyHost k g' eff) ((s, .host k ch) :: past) ∧
      AnswerInv (s.applyHost k g' eff) ∧ CallInv (s.applyHost k g' eff) ∧
      RequestInv (s.applyHost k g' eff))
    (hg : s.hosts k = some g) (hmove : HostMove k s.hostView g g' eff) :
    JoinInv (s.applyHost k g' eff) ((s, .host k ch) :: past) := by
  obtain ⟨hask, hans, hcalls, hreq⟩ := hbase
  refine ⟨hask, hans, hcalls, hreq, fun j g₁ c ok hg₁ hpc => ?_, fun c w' j ok hw' hm hpc => ?_,
    fun j g₁ p c hg₁ hdel hmem => ?_⟩
  · obtain ⟨rfl, rfl⟩ | ⟨-, hg₁⟩ := Lib.update_eq_some hg₁
    · obtain ⟨hpc, hr⟩ | hpc := hpc
      · -- The host has no answer before it has asked.
        obtain ⟨hcall, hsame, -⟩ := hmove.to_joinWait hpc
        have hasked := h.answers.asked (.host j)
        simp only [State.calls, State.told, hg, hcall, ← hsame, hr, HostPc.authWait,
          Bool.false_eq_true, if_false, Option.toList_some, List.length_singleton] at hasked
        omega
      · exact h.answered j g c ok hg (.inl (hmove.to_joinDone hpc))
    · exact h.answered j g₁ c ok hg₁ hpc
  · obtain ⟨w, hw, rfl⟩ := Option.map_eq_some_iff.1 hw'
    obtain ⟨hpc, hok⟩ | hpc := hpc
    · obtain hok | hok := List.mem_append.1 hok
      · exact h.told c w j ok hw hm (.inl ⟨hpc, hok⟩)
      · have hr : eff.reply = some (.worker c, ok) := by
          unfold HostEffect.toWorker at hok
          split at hok
          · rename_i c' ok' hr
            split at hok
            · rename_i hc
              rw [hr, hc, List.mem_singleton.1 hok]
            · cases hok
          · cases hok
        obtain ⟨pc, hcall, hjoin⟩ := hmove.reply_call hr
        obtain ⟨w₁, hw₁, hpc₁, hm₁, -⟩ := h.joiner hg hcall
        rw [hw] at hw₁
        cases hw₁
        obtain rfl : k = j := Option.some.inj (hm₁.symm.trans hm)
        exact h.answered k g c ok hg (.inr (hjoin (hpc₁.symm.trans hpc)))
    · exact h.told c w j ok hw hm (.inr hpc)
  · have hcase : ∃ g₂, s.hosts j = some g₂ ∧ g₂.pc ≠ .deleted ∧ (p, c) ∈ g₂.clients ∧
        g₁.serverIdx = g₂.serverIdx := by
      obtain ⟨rfl, rfl⟩ | ⟨-, hg₁⟩ := Lib.update_eq_some hg₁
      · exact ⟨g, hg, hmove.running.2, hmove.clients ▸ hmem, hmove.serverIdx⟩
      · exact ⟨g₁, hg₁, hdel, hmem, rfl⟩
    obtain ⟨g₂, hg₂, hdel₂, hmem₂, hidx⟩ := hcase
    obtain ⟨⟨w, hw, hmember⟩, hlatest, hanswer⟩ := h.member j g₂ p c hg₂ hdel₂ hmem₂
    refine ⟨⟨eff.onWorker c w, ?_, hmember⟩, hidx ▸ hlatest, hanswer⟩
    simp only [State.applyHost, hw, Option.map_some]

/-- A step that moves no worker and no host, and answers no join. -/
theorem still (h : JoinInv s past)
    (hbase : AskInv s' past' ∧ AnswerInv s' ∧ CallInv s' ∧ RequestInv s')
    (hpast : ∀ c, joinAnswer c past' = joinAnswer c past ∧ latestJoin c past' = latestJoin c past)
    (hhosts : ∀ k g', s'.hosts k = some g' → ∃ g, s.hosts k = some g ∧ g'.pc = g.pc ∧
      g'.clients = g.clients ∧ g'.serverIdx = g.serverIdx ∧
      ∀ c, g.pc = .joinWait c → g'.authReply = g.authReply)
    (hworkers : ∀ c w', s'.workers c = some w' → ∃ w, s.workers c = some w ∧ w'.pc = w.pc ∧
      w'.mHost = w.mHost ∧ (w.pc = .waitJoin → w'.chan = w.chan))
    (hmembers : ∀ c w k p, s.workers c = some w → w.IsMember k p →
      ∃ w', s'.workers c = some w' ∧ w'.IsMember k p) :
    JoinInv s' past' := by
  obtain ⟨hask, hans, hcalls, hreq⟩ := hbase
  refine ⟨hask, hans, hcalls, hreq, fun k g' c ok hg' hpc => ?_, fun c w' k ok hw' hm hpc => ?_,
    fun k g' p c hg' hdel hmem => ?_⟩
  · obtain ⟨g, hg, heq, -, -, hreply⟩ := hhosts k g' hg'
    rw [(hpast c).1]
    obtain ⟨hpc, hr⟩ | hpc := hpc
    · have hwait := heq.symm.trans hpc
      exact h.answered k g c ok hg (.inl ⟨hwait, (hreply c hwait).symm.trans hr⟩)
    · exact h.answered k g c ok hg (.inr (heq.symm.trans hpc))
  · obtain ⟨w, hw, heq, hmEq, hchan⟩ := hworkers c w' hw'
    rw [(hpast c).1]
    obtain ⟨hpc, hok⟩ | ⟨hpc, hok⟩ := hpc
    · have hwait := heq.symm.trans hpc
      exact h.told c w k ok hw (hmEq.symm.trans hm) (.inl ⟨hwait, hchan hwait ▸ hok⟩)
    · exact h.told c w k ok hw (hmEq.symm.trans hm) (.inr ⟨heq.symm.trans hpc, hok⟩)
  · obtain ⟨g, hg, heq, hclients, hidx, -⟩ := hhosts k g' hg'
    obtain ⟨⟨w, hw, hmember⟩, hlatest, hanswer⟩ :=
      h.member k g p c hg (heq ▸ hdel) (hclients ▸ hmem)
    rw [(hpast c).1, (hpast c).2, hidx]
    exact ⟨hmembers c w k p hw hmember, hlatest, hanswer⟩

/-- The auth daemon answers a join. -/
theorem answer {k : HostPtr} {g : GameHost} {c : ConnId} {rest : List AuthReq} {ch : Choice}
    (h : JoinInv s past) (hg : s.hosts k = some g) (hpc : g.pc = .joinWait c)
    (hat : s.joinAtDaemon = some (k, c))
    (hbase : AskInv ({ s with authChan := rest }.answerHost k ch.ok) ((s, .daemon ch) :: past) ∧
      AnswerInv ({ s with authChan := rest }.answerHost k ch.ok) ∧
      CallInv ({ s with authChan := rest }.answerHost k ch.ok) ∧
      RequestInv ({ s with authChan := rest }.answerHost k ch.ok)) :
    JoinInv ({ s with authChan := rest }.answerHost k ch.ok) ((s, .daemon ch) :: past) := by
  obtain ⟨hask, hans, hcalls, hreq⟩ := hbase
  obtain ⟨w, hw, hwait, hm, hchan⟩ := h.joiner hg (by rw [hpc]; rfl)
  have hother : ∀ c', c' ≠ c → joinAnswer c' ((s, .daemon ch) :: past) = joinAnswer c' past := by
    intro c' hne
    simp only [joinAnswer, hat, if_neg (Ne.symm hne)]
  have hself : joinAnswer c ((s, .daemon ch) :: past) = some (k, ch.ok) := by
    simp only [joinAnswer, hat, if_true]
  refine ⟨hask, hans, hcalls, hreq, fun j g' c' ok hg' hpc' => ?_, fun c' w' j ok hw' hm' hpc' => ?_,
    fun j g' p c' hg' hdel hmem => ?_⟩
  · obtain ⟨g₁, hg₁, rfl⟩ := Option.map_eq_some_iff.1 hg'
    by_cases hj : j = k
    · subst hj
      rw [hg] at hg₁
      cases hg₁
      rw [if_pos rfl] at hpc'
      obtain ⟨hpc', hr⟩ | hpc' := hpc'
      · cases hpc.symm.trans hpc'
        cases hr
        exact hself
      · cases hpc.symm.trans hpc'
    · rw [if_neg hj] at hpc'
      have hne : c' ≠ c := by
        rintro rfl
        have hcall : g₁.pc.call = some (c', .waitJoin) := by
          obtain ⟨hpc', -⟩ | hpc' := hpc' <;> rw [hpc'] <;> rfl
        obtain ⟨w₁, hw₁, -, hm₁, -⟩ := h.joiner hg₁ hcall
        rw [hw] at hw₁
        cases hw₁
        exact hj (Option.some.inj (hm₁.symm.trans hm))
      rw [hother c' hne]
      exact h.answered j g₁ c' ok hg₁ hpc'
  · have hne : c' ≠ c := by
      rintro rfl
      rw [show s.workers c' = some w' from hw', Option.some.injEq] at hw
      subst hw
      obtain ⟨-, hok⟩ | ⟨hpc', -⟩ := hpc'
      · rw [hchan] at hok
        cases hok
      · cases hwait.symm.trans hpc'
    rw [hother c' hne]
    exact h.told c' w' j ok hw' hm' hpc'
  · obtain ⟨g₁, hg₁, hclients, hdel₁, hidx⟩ : ∃ g₁, s.hosts j = some g₁ ∧
        g'.clients = g₁.clients ∧ g'.pc = g₁.pc ∧ g'.serverIdx = g₁.serverIdx := by
      obtain ⟨g₁, hg₁, rfl⟩ := Option.map_eq_some_iff.1 hg'
      refine ⟨g₁, hg₁, ?_⟩
      split <;> exact ⟨rfl, rfl, rfl⟩
    obtain ⟨⟨w', hw', hmember⟩, hlatest, hanswer⟩ :=
      h.member j g₁ p c' hg₁ (hdel₁ ▸ hdel) (hclients ▸ hmem)
    have hne : c' ≠ c := by
      rintro rfl
      rw [hw] at hw'
      cases hw'
      simp [GameWorker.IsMember, hwait] at hmember
    rw [hother c' hne, hidx]
    exact ⟨⟨w', hw', hmember⟩, hlatest, hanswer⟩

theorem daemon {ch : Choice} (h : JoinInv s past)
    (hbase : AskInv s' ((s, .daemon ch) :: past) ∧ AnswerInv s' ∧ CallInv s' ∧ RequestInv s')
    (hstep : daemonStep s ch = some s') (hmove : DaemonMove s s') :
    JoinInv s' ((s, .daemon ch) :: past) := by
  cases hat : s.joinAtDaemon with
  | some e =>
    obtain ⟨k, c⟩ := e
    obtain ⟨g, rest, hg, hpc, rfl⟩ := daemonStep_join hat hstep
    exact h.answer hg hpc hat hbase
  | none =>
    have hpast : ∀ c, joinAnswer c ((s, .daemon ch) :: past) = joinAnswer c past ∧
        latestJoin c ((s, .daemon ch) :: past) = latestJoin c past := by
      intro c
      simp only [joinAnswer, hat, latestJoin, and_self]
    have hsame : ∀ k g', s.hosts k = some g' → ∃ g, s.hosts k = some g ∧ g'.pc = g.pc ∧
        g'.clients = g.clients ∧ g'.serverIdx = g.serverIdx ∧
        ∀ c, g.pc = .joinWait c → g'.authReply = g.authReply :=
      fun k g' hg' => ⟨g', hg', rfl, rfl, rfl, fun _ _ => rfl⟩
    have hkeep : ∀ c w', s.workers c = some w' → ∃ w, s.workers c = some w ∧ w'.pc = w.pc ∧
        w'.mHost = w.mHost ∧ (w.pc = .waitJoin → w'.chan = w.chan) :=
      fun c w' hw' => ⟨w', hw', rfl, rfl, fun _ => rfl⟩
    have hmembers : ∀ c w k p, s.workers c = some w → w.IsMember k p →
        ∃ w', s.workers c = some w' ∧ w'.IsMember k p :=
      fun c w k p hw hmember => ⟨w, hw, hmember⟩
    cases hmove with
    | @host r j rest ok hd hc hr =>
      refine h.still hbase hpast (fun k g' hg' => ?_) hkeep hmembers
      obtain ⟨g, hg, rfl⟩ := Option.map_eq_some_iff.1 hg'
      refine ⟨g, hg, ?_⟩
      split
      · rename_i hj
        subst hj
        refine ⟨rfl, rfl, rfl, fun c hpc => ?_⟩
        obtain rfl | rfl := hr
        · simp [State.joinAtDaemon, hd, hc, show s.hosts k = some g from hg, hpc] at hat
        · exact absurd (hc ▸ List.mem_cons_self) (h.requests k g c hg hpc)
      · exact ⟨rfl, rfl, rfl, fun _ _ => rfl⟩
    | @worker r c' rest ok hd hc hr =>
      refine h.still hbase hpast hsame (fun c w' hw' => ?_) fun c w k p hw hmember => ?_
      · obtain ⟨w, hw, rfl⟩ := Option.map_eq_some_iff.1 hw'
        refine ⟨w, hw, ?_⟩
        split
        · rename_i hcc
          subst hcc
          refine ⟨rfl, rfl, fun hwait => ?_⟩
          -- A worker with a request on the auth channel waits for its answer.
          have hasked := h.answers.asked (.worker c)
          have hpos : 0 < s.asked (.worker c) :=
            List.countP_pos_iff.2 ⟨r, hc ▸ List.mem_cons_self, by
              obtain rfl | rfl | rfl := hr <;> simp [AuthReq.caller]⟩
          simp only [State.calls, show s.workers c = some w from hw, hwait, WorkerPc.authWait,
            Bool.false_eq_true, if_false] at hasked
          omega
        · exact ⟨rfl, rfl, fun _ => rfl⟩
      · simp only [State.answerWorker, hw, Option.map_some]
        refine ⟨_, rfl, ?_⟩
        split <;> exact hmember
    | forward | global =>
      refine h.still hbase hpast (fun k g' hg' => ?_) hkeep hmembers
      obtain ⟨g, hg, rfl⟩ := Option.map_eq_some_iff.1 hg'
      refine ⟨g, hg, ?_⟩
      split <;> exact ⟨rfl, rfl, rfl, fun _ _ => rfl⟩
    | client | miss | back => exact h.still hbase hpast hsame hkeep hmembers

/-- A client that is in no host's `m_clients` asks to join. -/
theorem recvJoin {c : ConnId} {mcpId playerId : UInt32} {w : GameWorker} (h : JoinInv s past)
    (hbase : AskInv (s.applyWorker c (w.asks mcpId playerId) {})
        ((s, .recvJoin c mcpId playerId) :: past) ∧
      AnswerInv (s.applyWorker c (w.asks mcpId playerId) {}) ∧
      CallInv (s.applyWorker c (w.asks mcpId playerId) {}) ∧
      RequestInv (s.applyWorker c (w.asks mcpId playerId) {}))
    (hw : s.workers c = some w) (hidle : w.pc = .idle)
    (hok : ∀ k g p, s.hosts k = some g → g.pc ≠ .deleted → (p, c) ∉ g.clients) :
    JoinInv (s.applyWorker c (w.asks mcpId playerId) {})
      ((s, .recvJoin c mcpId playerId) :: past) := by
  obtain ⟨hask, hans, hcalls, hreq⟩ := hbase
  have hother : ∀ c', c' ≠ c →
      joinAnswer c' ((s, .recvJoin c mcpId playerId) :: past) = joinAnswer c' past ∧
      latestJoin c' ((s, .recvJoin c mcpId playerId) :: past) = latestJoin c' past := by
    intro c' hne
    simp only [joinAnswer, latestJoin, if_neg (Ne.symm hne), and_self]
  have hpcs : (w.asks mcpId playerId).pc ≠ .waitJoin ∧
      (w.asks mcpId playerId).pc ≠ .insertClient := by
    unfold GameWorker.asks
    split <;> simp [hidle]
  have hhosts : ∀ k g', (s.applyWorker c (w.asks mcpId playerId) {}).hosts k = some g' →
      s.hosts k = some g' := by
    intro k g' hg'
    obtain ⟨g, hg, rfl⟩ := Option.map_eq_some_iff.1 hg'
    exact hg
  refine ⟨hask, hans, hcalls, hreq, fun k g c' ok hg hpc => ?_, fun c' w' k ok hw' hm hpc => ?_,
    fun k g p c' hg hdel hmem => ?_⟩
  · replace hg := hhosts k g hg
    have hne : c' ≠ c := by
      rintro rfl
      have hcall : g.pc.call = some (c', .waitJoin) := by
        obtain ⟨hpc, -⟩ | hpc := hpc <;> rw [hpc] <;> rfl
      obtain ⟨w₁, hw₁, hpc₁, -⟩ := h.joiner hg hcall
      rw [hw] at hw₁
      cases hw₁
      cases hidle.symm.trans hpc₁
    rw [(hother c' hne).1]
    exact h.answered k g c' ok hg hpc
  · obtain ⟨rfl, rfl⟩ | ⟨hne, hw'⟩ := Lib.update_eq_some hw'
    · obtain ⟨hpc, -⟩ | ⟨hpc, -⟩ := hpc
      · exact absurd hpc hpcs.1
      · exact absurd hpc hpcs.2
    · rw [(hother c' hne).1]
      exact h.told c' w' k ok hw' hm hpc
  · replace hg := hhosts k g hg
    have hne : c' ≠ c := by
      rintro rfl
      exact hok k g p hg hdel hmem
    obtain ⟨⟨w', hw', hmember⟩, hlatest, hanswer⟩ := h.member k g p c' hg hdel hmem
    rw [(hother c' hne).1, (hother c' hne).2]
    exact ⟨⟨w', (Function.update_of_ne hne ..).trans hw', hmember⟩, hlatest, hanswer⟩

theorem step {e : Event} (h : JoinInv s past) (hok : JoinOk s e)
    (hs : GameServ.step s e = some s') : JoinInv s' ((s, e) :: past) := by
  have hbase := h.base hs
  have hsame : ∀ k g', s.hosts k = some g' → ∃ g, s.hosts k = some g ∧ g'.pc = g.pc ∧
      g'.clients = g.clients ∧ g'.serverIdx = g.serverIdx ∧
      ∀ c, g.pc = .joinWait c → g'.authReply = g.authReply :=
    fun k g' hg' => ⟨g', hg', rfl, rfl, rfl, fun _ _ => rfl⟩
  have hkeep : ∀ c w', s.workers c = some w' → ∃ w, s.workers c = some w ∧ w'.pc = w.pc ∧
      w'.mHost = w.mHost ∧ (w.pc = .waitJoin → w'.chan = w.chan) :=
    fun c w' hw' => ⟨w', hw', rfl, rfl, fun _ => rfl⟩
  have hmembers : ∀ c w k p, s.workers c = some w → w.IsMember k p →
      ∃ w', s.workers c = some w' ∧ w'.IsMember k p :=
    fun c w k p hw hmember => ⟨w, hw, hmember⟩
  cases step_happens hs with
  | @accept c hnone =>
    obtain ⟨hask, hans, hcalls, hreq⟩ := hbase
    refine ⟨hask, hans, hcalls, hreq, fun k g c' ok hg hpc => h.answered k g c' ok hg hpc,
      fun c' w' k ok hw' hm hpc => ?_, fun k g p c' hg hdel hmem => ?_⟩
    · obtain ⟨rfl, rfl⟩ | ⟨-, hw'⟩ := Lib.update_eq_some hw'
      · cases hm
      · exact h.told c' w' k ok hw' hm hpc
    · obtain ⟨⟨w, hw, hmember⟩, hpast⟩ := h.member k g p c' hg hdel hmem
      exact ⟨⟨w, Lib.update_of_some hnone hw _, hmember⟩, hpast⟩
  | recvJoin hw hidle => exact h.recvJoin hbase hw hidle hok
  | recvMsg hw hidle hops hh =>
    exact h.worker hbase (fun _ => ⟨rfl, rfl⟩) hw (.recvMsg hidle hops hh) (fun _ => .inl rfl)
      (by simp)
  | @leave e c w hw hidle he =>
    have hpast : ∀ c', joinAnswer c' ((s, e) :: past) = joinAnswer c' past ∧
        latestJoin c' ((s, e) :: past) = latestJoin c' past := by
      obtain rfl | ⟨ops, rfl⟩ := he <;> exact fun _ => ⟨rfl, rfl⟩
    exact h.worker hbase hpast hw (.hangup hidle) (fun _ => .inr rfl) (by simp)
  | @worker c ch w w' eff hw hbusy hstep hmove =>
    exact h.worker hbase (fun _ => ⟨rfl, rfl⟩) hw hmove (fun hidle => absurd hidle hbusy)
      (hmove.accepted hstep fun hwait hhead => hok w hw hwait hhead)
  | host hg hmove => exact h.host hbase hg hmove
  | daemon hstep hmove => exact h.daemon hbase hstep hmove
  | authRequest =>
    exact h.still hbase (fun _ => ⟨rfl, rfl⟩) hsame hkeep hmembers
  | serverShutdown =>
    refine h.still hbase (fun _ => ⟨rfl, rfl⟩) (fun k g' hg' => ?_) hkeep hmembers
    obtain ⟨g, hg, rfl⟩ := Option.map_eq_some_iff.1 hg'
    refine ⟨g, hg, ?_⟩
    split <;> exact ⟨rfl, rfl, rfl, fun _ _ => rfl⟩

end JoinInv

/-! ## Game messages -/

/-- Whose game message a host has before it, or under way, is its client. -/
def MessageInv (s : State) : Prop :=
  ∀ k g c, s.hosts k = some g → g.Calls c .waitMsg → ∃ p, (p, c) ∈ g.clients

namespace MessageInv

variable {s s' : State}

theorem still (h : MessageInv s)
    (hhosts : ∀ k g', s'.hosts k = some g' → ∃ g, s.hosts k = some g ∧ g'.clients = g.clients ∧
      ∀ c pc, g'.Calls c pc → g.Calls c pc) : MessageInv s' := by
  intro k g' c hg' hcalls
  obtain ⟨g, hg, hclients, hold⟩ := hhosts k g' hg'
  rw [hclients]
  exact h k g c hg (hold c _ hcalls)

/-- A worker goes on: it takes away nobody whose message is still to be handled,
and sends none if it is not a client. -/
theorem worker {c : ConnId} {w w' : GameWorker} {eff : WorkerEffect} (h : MessageInv s)
    (hans : AnswerInv s) (hcallInv : CallInv s) (hw : s.workers c = some w)
    (hmove : WorkerMove c s.workerView w w' eff)
    (hsend : ∀ k g m, s.hosts k = some g → eff.act = some (k, .put m) → w'.pc = .waitMsg →
      ∃ p, (p, c) ∈ g.clients)
    (htake : ∀ k g c', w.mHost = some k → s.hosts k = some g →
      w.pc = .insertClient ∨ w.pc = .cleanup → c' ≠ c → (w.playerId, c') ∈ g.clients →
      ¬ g.Calls c' .waitMsg) : MessageInv (s.applyWorker c w' eff) := by
  intro k g' c' hg' hcalls
  obtain ⟨g, hg, rfl, hold | ⟨m, hact, hcall⟩⟩ :=
    State.applyWorker_calls hans.start hw hmove hg' hcalls
  · obtain ⟨p, hmem⟩ := h k g c' hg hold
    refine ⟨p, ?_⟩
    by_contra hgone
    -- Then the worker has taken the entry of `c'` away.
    obtain ⟨hm, rfl, hpc⟩ := hmove.takes_entry (eff.onHost_keeps hmem hgone)
    have hne : c' ≠ c := by
      rintro rfl
      have hwait := hcallInv k g c' w .waitMsg hg hw hold
      rw [hwait] at hpc
      obtain hpc | hpc := hpc <;> cases hpc
    exact htake k g c' hm hg hpc hne hmem hold
  · rw [hmove.put_call hact, Option.some.injEq, Prod.mk.injEq] at hcall
    obtain ⟨rfl, hpc⟩ := hcall
    obtain ⟨p, hmem⟩ := hsend k g m hg hact hpc
    refine ⟨p, ?_⟩
    rw [WorkerEffect.onHost, hact]
    simp only [if_true, HostAct.run]
    exact hmem

theorem step {e : Event} (h : MessageInv s) (hans : AnswerInv s) (hcallInv : CallInv s)
    (hok : MemberOk s e) (hs : GameServ.step s e = some s') : MessageInv s' := by
  obtain ⟨-, hok⟩ := hok
  have hsame : ∀ k g', s.hosts k = some g' → ∃ g, s.hosts k = some g ∧ g'.clients = g.clients ∧
      ∀ c pc, g'.Calls c pc → g.Calls c pc := fun k g' hg' => ⟨g', hg', rfl, fun _ _ => id⟩
  cases step_happens hs with
  | accept => exact h.still hsame
  | @recvJoin c mcpId playerId w hw hidle =>
    refine h.still fun k g' hg' => ?_
    obtain ⟨g, hg, rfl⟩ := Option.map_eq_some_iff.1 hg'
    exact ⟨g, hg, rfl, fun _ _ => id⟩
  | @recvMsg c ops w j hw hidle hops hh =>
    refine h.worker hans hcallInv hw (.recvMsg hidle hops hh) (fun k g m hg hact _ => ?_)
      fun k g c' _ _ hpc => ?_
    · cases hact
      exact hok w j g hw hh hg
    · obtain hpc | hpc := hpc <;> cases hidle.symm.trans hpc
  | leave =>
    refine h.still fun k g' hg' => ?_
    obtain ⟨g, hg, rfl⟩ := Option.map_eq_some_iff.1 hg'
    exact ⟨g, hg, rfl, fun _ _ => id⟩
  | @worker c ch w w' eff hw hbusy hstep hmove =>
    refine h.worker hans hcallInv hw hmove (fun k g m hg hact hpc => ?_)
      fun k g c' hm hg hpc hne hmem => hok w k g c' hw hm hg hpc hne hmem
    exact absurd (hmove.to_waitMsg hact hpc) hbusy
  | @host k ch g g' eff hg hmove =>
    refine h.still fun j g₁ hg₁ => ?_
    obtain ⟨rfl, rfl⟩ | ⟨-, hg₁⟩ := Lib.update_eq_some hg₁
    · exact ⟨g, hg, hmove.clients, fun _ _ => hmove.calls_of⟩
    · exact ⟨g₁, hg₁, rfl, fun _ _ => id⟩
  | daemon hstep hmove =>
    cases hmove with
    | host =>
      refine h.still fun k g' hg' => ?_
      obtain ⟨g, hg, rfl⟩ := Option.map_eq_some_iff.1 hg'
      refine ⟨g, hg, ?_⟩
      split <;> exact ⟨rfl, fun _ _ => id⟩
    | forward =>
      refine h.still fun k g' hg' => ?_
      obtain ⟨g, hg, rfl⟩ := Option.map_eq_some_iff.1 hg'
      refine ⟨g, hg, ?_⟩
      split
      · exact ⟨rfl, CallInv.put_still rfl g⟩
      · exact ⟨rfl, fun _ _ => id⟩
    | global =>
      refine h.still fun k g' hg' => ?_
      obtain ⟨g, hg, rfl⟩ := Option.map_eq_some_iff.1 hg'
      refine ⟨g, hg, ?_⟩
      split
      · exact ⟨rfl, CallInv.put_still (m := .globalSdl) rfl g⟩
      · exact ⟨rfl, fun _ _ => id⟩
    | worker | client | miss | back => exact h.still hsame
  | authRequest => exact h.still hsame
  | serverShutdown =>
    refine h.still fun k g' hg' => ?_
    obtain ⟨g, hg, rfl⟩ := Option.map_eq_some_iff.1 hg'
    refine ⟨g, hg, ?_⟩
    split
    · exact ⟨rfl, CallInv.put_still (m := .shutdown false) rfl g⟩
    · exact ⟨rfl, fun _ _ => id⟩

end MessageInv

/-! ## The clients of a host -/

theorem HostPc.call_of_message {pc : HostPc} {c : ConnId} (h : pc.message = some c) :
    pc.call = some (c, .waitMsg) := by
  cases pc <;> simp_all [HostPc.message, HostPc.call]

theorem JoinInv.sound {s : State} {past : Past} (h : JoinInv s past) (hmsg : MessageInv s) :
    MembersSound s past where
  entries k g p c hg hdel hmem := by
    obtain ⟨⟨w, hw, hm, hid, hpc⟩, hpast⟩ := h.member k g p c hg hdel hmem
    refine ⟨⟨w, hw, ?_⟩, hpast⟩
    obtain hpc | hpc | hpc := hpc <;> rw [hpc] <;> simp
  messages k g c hg hpc := hmsg k g c hg (.inr (HostPc.call_of_message hpc))

/-- **The clients of a host.**  In a run whose steps all meet the condition, an
entry of a host's `m_clients` is a connection that is there, whose latest join
was to this host with this player, and was accepted; and a host handles game
messages of its clients only. -/
theorem members_sound (p : State × Past)
    (h : machine.withHistory.ReachableWith (fun p e => MemberOk p.1 e) p) :
    MembersSound p.1 p.2 := by
  have hinv : JoinInv p.1 p.2 ∧ MessageInv p.1 := by
    refine Lib.Machine.withHistory_invariant (I := fun s past => JoinInv s past ∧ MessageInv s)
      ?_ ?_ h
    · rintro s rfl
      exact ⟨.initial, fun _ _ _ hg => absurd hg (by simp [State.initial])⟩
    · rintro s past e s' ⟨hinv, hmsg⟩ hok hs
      exact ⟨hinv.step hok.1 hs, hmsg.step hinv.answers hinv.calls hok hs⟩
  exact hinv.1.sound hinv.2

/-! ## Two runs -/

section Runs

/-- A step at which `MemberOk` asks for nothing, or for what can be looked up. -/
def State.membersKept (s : State) : Event → Bool
  | .recvJoin .. => false
  | .recvMsg c _ => match (s.workers c).bind GameWorker.mHost |>.bind s.hosts with
    | some g => g.clients.any fun e => e.2 = c
    | none => true
  | .worker c _ => match s.workers c with
    | some w => w.chan.head? ≠ some false && match w.mHost.bind s.hosts with
      | some g => g.clients.isEmpty
      | none => true
    | none => true
  | _ => true

theorem memberOk_of_kept (s : State) (e : Event) (h : s.membersKept e = true) : MemberOk s e := by
  cases e with
  | recvJoin c mcpId playerId => cases h
  | recvMsg c ops =>
    refine ⟨trivial, fun w k g hw hm hg => ?_⟩
    simp only [State.membersKept, hw, Option.bind_some, hm, hg, List.any_eq_true,
      decide_eq_true_eq] at h
    obtain ⟨⟨p, c'⟩, hmem, rfl⟩ := h
    exact ⟨p, hmem⟩
  | worker c ch =>
    refine ⟨fun w hw _ hhead => ?_, fun w k g c' hw hm hg _ _ hmem => ?_⟩
    · simp [State.membersKept, hw, hhead] at h
    · simp only [State.membersKept, hw, hm, Option.bind_some, hg, Bool.and_eq_true,
        List.isEmpty_iff] at h
      rw [h.2] at hmem
      cases hmem
  | _ => exact ⟨trivial, trivial⟩

/-- The one player of an age says something. -/
def joinAndTalk : List Event :=
  joinNewAge ++ [.host 0 {}, .host 0 {}, .daemon {}, .host 0 {}, .host 0 {}, .worker 0 {},
    .worker 0 {}, .recvMsg 0 [.own], .host 0 {}, .host 0 {}]

theorem members_sound_join : ∃ p, machine.withHistory.run (.initial, []) joinAndTalk = some p ∧
    (p.1.hosts 0).map GameHost.clients = some [(7, 0)] ∧ MembersSound p.1 p.2 := by
  have hok : machine.OkRun MemberOk .initial joinAndTalk := by
    refine ⟨⟨trivial, trivial⟩, ⟨fun k g p hg => (nomatch hg), trivial⟩,
      Lib.Machine.okRun_of_allRun memberOk_of_kept (by decide)⟩
  have hstart : machine.withHistory.start (.initial, []) := ⟨rfl, rfl⟩
  obtain ⟨p, hrun, hp⟩ := (Lib.Machine.ReachableWith.start hstart).run (hok.withHistory [])
  have hclients : (machine.withHistory.run (.initial, []) joinAndTalk).map
      (fun p => (p.1.hosts 0).map GameHost.clients) = some (some [(7, 0)]) := by decide
  rw [hrun, Option.map_some, Option.some.injEq] at hclients
  exact ⟨p, hrun, hclients, members_sound p hp⟩

/-- **A client that was refused.**  The auth daemon does not know the player, and
the worker puts it into `m_clients` all the same. -/
theorem refused_member : ¬ ∀ p, machine.withHistory.Reachable p → MembersSound p.1 p.2 := by
  intro hall
  have hend : (machine.withHistory.run (.initial, []) (joinNewAge ++ [.host 0 {}, .host 0 {},
      .daemon { ok := false }, .host 0 {}, .host 0 {}, .worker 0 {}, .worker 0 {}])).map (fun p =>
        ((p.1.hosts 0).map fun g => (g.pc, g.clients), joinAnswer 0 p.2)) =
      some (some (.idle, [(7, 0)]), some (0, false)) := by decide
  obtain ⟨p, hrun, hp⟩ := Option.map_eq_some_iff.1 hend
  simp only [Prod.mk.injEq, Option.map_eq_some_iff] at hp
  obtain ⟨⟨g, hg, hpc, hclients⟩, hanswer⟩ := hp
  have hstart : machine.withHistory.start (.initial, []) := ⟨rfl, rfl⟩
  have hreach := Lib.Machine.run_reachable (.start hstart) hrun
  obtain ⟨-, -, haccepted⟩ := (hall p hreach).entries 0 g 7 0 hg (by simp [hpc]) (by simp [hclients])
  cases hanswer.symm.trans haccepted

end Runs

end Dirtsand.GameServ
