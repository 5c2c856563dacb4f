import Dirtsand.GameServ.Members

/-!
# The game master

One client of a host owns all synchronised objects.  `dm_game_join` makes the
first one the owner, before it is in `m_clients`, and `dm_game_disconnect` picks
the next one from `m_clients`.

* `one_master` — in a run that meets `MasterOk`, a host with clients and nobody
  on the way in or out has one game master, which is a client that was told so,
  and no other client was.
* `no_master` — a run in which the last client in `m_clients` leaves while the
  next one is not in it yet.
-/

namespace Dirtsand.GameServ

/-- Nobody is on the way into the host's `m_clients`, or out. -/
def State.Quiet (s : State) (h : HostPtr) : Prop :=
  ∀ c w, s.workers c = some w → w.mHost = some h → w.pc ≠ .waitJoin ∧ w.pc ≠ .insertClient ∧
    w.pc ≠ .cleanup ∧ w.pc ≠ .putDisc ∧ w.pc ≠ .waitDisc

/-- A quiet host with clients has one game master. -/
def OneMaster (s : State) : Prop :=
  ∀ h g, s.hosts h = some g → g.pc ≠ .deleted → s.Quiet h → g.clients ≠ [] →
    ∃ c w, (g.gameMaster, c) ∈ g.clients ∧ s.workers c = some w ∧ w.notice = some true ∧
      ∀ p c' w', (p, c') ∈ g.clients → c' ≠ c → s.workers c' = some w' → w'.notice ≠ some true

/-! ## The condition -/

/-- The auth daemon has accepted it, and it is not in `m_clients` yet. -/
def GameWorker.Entering (w : GameWorker) : Prop :=
  (w.pc = .waitJoin ∧ true ∈ w.chan) ∨ w.pc = .insertClient

/-- **The condition on a step.**  Beside `JoinOk`: a worker takes no entry of
another connection from `m_clients`; and when the game master leaves, no other
connection of the host has its player id, and if there is no client left in
`m_clients` then nobody is on the way in. -/
def MasterOk (s : State) (e : Event) : Prop :=
  JoinOk s e ∧ match e with
    | .worker c _ => ∀ w h g c', s.workers c = some w → w.mHost = some h → s.hosts h = some g →
        w.pc = .insertClient ∨ w.pc = .cleanup → (w.playerId, c') ∈ g.clients → c' = c
    | .host h _ => ∀ g c w, s.hosts h = some g → g.pc = .discStart c → s.workers c = some w →
        g.gameMaster = w.playerId →
        (∀ c' w', s.workers c' = some w' → w'.mHost = some h → w'.pc ≠ .ended →
          w'.playerId = w.playerId → c' = c) ∧
        (g.clients = [] → ∀ c' w', s.workers c' = some w' → w'.mHost = some h → ¬ w'.Entering)
    | _ => True

/-! ## Who stays and who leaves -/

def GameWorker.Staying (w : GameWorker) (c : ConnId) (h : HostPtr) (g : GameHost) : Prop :=
  w.mHost = some h ∧ (w.Entering ∨ ∃ p, (p, c) ∈ g.clients)

/-- It leaves, and the host has not come to that yet. -/
def GameWorker.Leaving (w : GameWorker) (c : ConnId) (h : HostPtr) (g : GameHost) : Prop :=
  w.mHost = some h ∧ (w.pc = .cleanup ∨ w.pc = .putDisc ∨ (w.pc = .waitDisc ∧ w.chan = [] ∧
    (.disconnect c ∈ g.queue ∨ g.pc = .discStart c)))

/-- For whom `dm_game_disconnect` has done with the game-mastership. -/
def HostPc.leftBy : HostPc → Option ConnId
  | .discCall c => some c
  | .discWait c => some c
  | .discEnd c => some c
  | .discReply c => some c
  | _ => none

structure MasterIs (s : State) (h : HostPtr) (g : GameHost) (m : ConnId) : Prop where
  worker : ∃ w, s.workers m = some w ∧ w.playerId = g.gameMaster ∧ w.notice = some true ∧
    (w.Staying m h g ∨ w.Leaving m h g)
  here : g.pc.leftBy ≠ some m
  only : ∀ c w, s.workers c = some w → w.Staying c h g → c ≠ m → w.notice ≠ some true

/-- A host without a game master has nobody who stays, and a host with one has
only this one. -/
structure HostMaster (s : State) (h : HostPtr) (g : GameHost) : Prop where
  nobody : g.gameMaster = 0 → ∀ c w, s.workers c = some w → ¬ w.Staying c h g
  master : g.gameMaster ≠ 0 → ∃ m, MasterIs s h g m

/-- The game master stays what it is. -/
theorem HostMaster.keep {s s' : State} {k : HostPtr} {g g' : GameHost} (h : HostMaster s k g)
    (hgm : g'.gameMaster = g.gameMaster)
    (hleft : ∀ m w, g'.pc.leftBy = some m → s.workers m = some w → w.playerId = g.gameMaster →
      g.pc.leftBy = some m)
    (hstay : ∀ c w', s'.workers c = some w' → w'.Staying c k g' →
      (∃ w, s.workers c = some w ∧ w.Staying c k g ∧ w'.notice = w.notice) ∨
        (g.gameMaster ≠ 0 ∧ w'.notice ≠ some true))
    (hgo : ∀ m w, s.workers m = some w → w.playerId = g.gameMaster → g.pc.leftBy ≠ some m →
      w.Staying m k g ∨ w.Leaving m k g → ∃ w', s'.workers m = some w' ∧
        w'.playerId = w.playerId ∧ w'.notice = w.notice ∧
          (w'.Staying m k g' ∨ w'.Leaving m k g')) : HostMaster s' k g' := by
  refine ⟨fun hzero c w' hw' hstays => ?_, fun hne => ?_⟩
  · rw [hgm] at hzero
    obtain ⟨w, hw, hold, -⟩ | ⟨hne, -⟩ := hstay c w' hw' hstays
    · exact h.nobody hzero c w hw hold
    · exact hne hzero
  · rw [hgm] at hne
    obtain ⟨m, ⟨w, hw, hid, hnotice, hgoes⟩, hhere, honly⟩ := h.master hne
    obtain ⟨w', hw', hid', hnotice', hgoes'⟩ := hgo m w hw hid hhere hgoes
    refine ⟨m, ⟨w', hw', ?_, hnotice'.trans hnotice, hgoes'⟩, fun hl => ?_, ?_⟩
    · rw [hid', hid, hgm]
    · exact hhere (hleft m w hl hw hid)
    · intro c w₁ hw₁ hstays hc
      obtain ⟨w₀, hw₀, hold, heq⟩ | ⟨-, hno⟩ := hstay c w₁ hw₁ hstays
      · rw [heq]
        exact honly c w₀ hw₀ hold hc
      · exact hno

/-! ## What moves do to the game master -/

theorem WorkerMove.notice {c : ConnId} {v : WorkerView} {w w' : GameWorker} {eff : WorkerEffect}
    (hmove : WorkerMove c v w w' eff) : w'.notice = w.notice := by
  cases hmove <;> rfl

/-- Who is on the way in gets in, or leaves. -/
theorem WorkerMove.entering {c : ConnId} {v : WorkerView} {w w' : GameWorker} {eff : WorkerEffect}
    {h : HostPtr} (hmove : WorkerMove c v w w' eff) (hm : w.mHost = some h) (hw : w.Entering) :
    w'.mHost = some h ∧ w'.playerId = w.playerId ∧
      (w'.pc = .insertClient ∨ w'.pc = .cleanup ∨ eff.act = some (h, .insert w.playerId c)) := by
  unfold GameWorker.Entering at hw
  cases hmove <;> simp_all

/-- Who is in stays in, or takes itself out. -/
theorem WorkerMove.stays {c : ConnId} {v : WorkerView} {w w' : GameWorker} {eff : WorkerEffect}
    {h : HostPtr} {p : UInt32} (hmove : WorkerMove c v w w' eff)
    (hidle : w.pc = .idle → w'.pc = .waitMsg ∨ w'.pc = .cleanup) (hw : w.IsMember h p) :
    w'.mHost = some h ∧ w'.playerId = w.playerId ∧
      (w'.pc = .putDisc ∨ ∀ j p' c', eff.act ≠ some (j, .erase p') ∧
        eff.act ≠ some (j, .insert p' c')) := by
  obtain ⟨hm, rfl, hpc⟩ := hw
  cases hmove <;> simp_all

theorem WorkerMove.leaving {c : ConnId} {v : WorkerView} {w w' : GameWorker} {eff : WorkerEffect}
    {h : HostPtr} (hmove : WorkerMove c v w w' eff) (hm : w.mHost = some h)
    (hw : w.pc = .cleanup ∨ w.pc = .putDisc) : w'.mHost = some h ∧ w'.playerId = w.playerId ∧
      (w'.pc = .putDisc ∨ (w'.pc = .waitDisc ∧ w.pc = .putDisc ∧ w'.chan = w.chan ∧
        eff.act = some (h, .put (.disconnect c)))) := by
  cases hmove <;> simp_all

theorem WorkerMove.alloc_pc {c : ConnId} {v : WorkerView} {w w' : GameWorker} {eff : WorkerEffect}
    {g : GameHost} (hmove : WorkerMove c v w w' eff) (halloc : eff.alloc = some g) :
    ∃ mcpId, w'.pc = .startFetch mcpId v.nextHost := by
  cases hmove <;> simp_all

theorem WorkerMove.from_waitDisc {c : ConnId} {v : WorkerView} {w w' : GameWorker}
    {eff : WorkerEffect} (hmove : WorkerMove c v w w' eff) (hw : w.pc = .waitDisc) :
    w.chan ≠ [] := by
  cases hmove <;> simp_all

/-- Who has the host's notice is joining it, or is its client. -/
theorem HostMove.notice_to {h : HostPtr} {v : HostView} {g g' : GameHost} {eff : HostEffect}
    {c : ConnId} {own : Bool} (hmove : HostMove h v g g' eff)
    (hn : eff.notice = some (c, own)) :
    g.pc.call = some (c, .waitJoin) ∨ ∃ p, (p, c) ∈ g.clients := by
  cases hmove with
  | discReassign hpc hm hgm howner =>
    cases hn
    exact .inr ⟨_, howner⟩
  | joinFirst hpc | joinOther hpc =>
    cases hn
    exact .inl (by rw [hpc]; rfl)
  | _ => cases hn

/-- A move that does not touch the game-mastership. -/
structure HostMove.Aside (v : HostView) (g g' : GameHost) (eff : HostEffect) : Prop where
  notice : eff.notice = none
  gameMaster : g'.gameMaster = g.gameMaster
  accepts : ∀ c, eff.reply = some (.worker c, true) → g.pc.call ≠ some (c, .waitJoin)
  keeps : ∀ c, g.pc = .discStart c → g.gameMaster ≠ v.playerIdOf c
  left : ∀ c, g'.pc.leftBy = some c → g.pc.leftBy = some c ∨ g.pc = .discStart c

/-- What a host's move does to the game-mastership. -/
inductive HostMove.Mastery (v : HostView) (g g' : GameHost) (eff : HostEffect) : Prop where
  | aside (h : HostMove.Aside v g g' eff)
  | joinFirst {c} (hpc : g.pc = .joinDone c true) (hgm : g.gameMaster = 0)
      (hg' : g' = { g with pc := .idle, gameMaster := v.playerIdOf c })
      (heff : eff = { reply := some (.worker c, true), notice := some (c, true) })
  | joinOther {c} (hpc : g.pc = .joinDone c true) (hgm : g.gameMaster ≠ 0)
      (hg' : g' = { g with pc := .idle })
      (heff : eff = { reply := some (.worker c, true), notice := some (c, false) })
  | reassign {c playerId owner} (hpc : g.pc = .discStart c) (hgm : g.gameMaster = v.playerIdOf c)
      (howner : (playerId, owner) ∈ g.clients)
      (hg' : g' = { g with pc := .discCall c, gameMaster := v.playerIdOf owner })
      (heff : eff = { notice := some (owner, true) })
  | none {c} (hpc : g.pc = .discStart c) (hgm : g.gameMaster = v.playerIdOf c)
      (hempty : g.clients = []) (hg' : g' = { g with pc := .discCall c, gameMaster := 0 })
      (heff : eff = {})

theorem HostMove.mastery {h : HostPtr} {v : HostView} {g g' : GameHost} {eff : HostEffect}
    (hmove : HostMove h v g g' eff) : HostMove.Mastery v g g' eff := by
  cases hmove with
  | joinFirst hpc hm hgm => exact .joinFirst hpc hgm rfl rfl
  | joinOther hpc hm hgm => exact .joinOther hpc hgm rfl rfl
  | discReassign hpc hm hgm howner => exact .reassign hpc hgm howner rfl rfl
  | discNoMaster hpc hm hgm hnone => exact .none hpc hgm hnone rfl rfl
  | @take m rest hpc hq =>
    refine .aside ⟨rfl, rfl, by simp, by simp [hpc], fun c hl => ?_⟩
    cases m <;> simp [HostMsg.start, HostPc.leftBy] at hl
  | _ hpc =>
    refine .aside ⟨rfl, rfl, ?_, ?_, ?_⟩
    all_goals simp_all [HostPc.leftBy, HostPc.call]

/-- A reply to who leaves comes at the end of `dm_game_disconnect`. -/
theorem HostMove.reply_left {h : HostPtr} {v : HostView} {g g' : GameHost} {eff : HostEffect}
    {c : ConnId} {ok : Bool} (hmove : HostMove h v g g' eff)
    (hr : eff.reply = some (.worker c, ok)) (hcall : g.pc.call = some (c, .waitDisc)) :
    g.pc.leftBy = some c := by
  cases hmove <;> simp_all [HostPc.call, HostPc.leftBy]

theorem HostMove.queue {h : HostPtr} {v : HostView} {g g' : GameHost} {eff : HostEffect}
    (hmove : HostMove h v g g' eff) : ∀ m ∈ g.queue, m ∈ g'.queue ∨ g'.pc = m.start := by
  intro m hm
  cases hmove with
  | take hpc hq =>
    rw [hq] at hm
    obtain rfl | hm := List.mem_cons.1 hm
    · exact .inr rfl
    · exact .inl hm
  | discPost => exact .inl (List.mem_append_left _ hm)
  | _ => exact .inl hm

theorem HostEffect.onWorker_eq {eff : HostEffect} {c : ConnId} (w : GameWorker)
    (hr : ∀ ok, eff.reply ≠ some (.worker c, ok)) (hn : ∀ own, eff.notice ≠ some (c, own)) :
    eff.onWorker c w = w := by
  have hworker : eff.toWorker c = [] := by
    unfold HostEffect.toWorker
    split
    · rename_i c' ok heq
      split
      · rename_i hc
        subst hc
        exact absurd heq (hr ok)
      · rfl
    · rfl
  have hnotice : eff.noticeTo c = none := by
    unfold HostEffect.noticeTo
    split
    · rename_i c' own heq
      split
      · rename_i hc
        subst hc
        exact absurd heq (hn own)
      · rfl
    · rfl
  rw [HostEffect.onWorker, hworker, hnotice, List.append_nil, Option.none_or]

theorem HostEffect.mem_toWorker {eff : HostEffect} {c : ConnId} {ok : Bool}
    (h : ok ∈ eff.toWorker c) : eff.reply = some (.worker c, ok) := by
  unfold HostEffect.toWorker at h
  split at h
  · rename_i c' ok' hr
    split at h
    · rename_i hc
      rw [hr, hc, List.mem_singleton.1 h]
    · cases h
  · cases h

theorem WorkerEffect.mem_onHost_queue {eff : WorkerEffect} {h : HostPtr} {g : GameHost}
    {m : HostMsg} (hm : m ∈ g.queue) : m ∈ (eff.onHost h g).queue := by
  unfold WorkerEffect.onHost
  split
  · split
    · rename_i act _ _
      cases act with
      | put m' => exact List.mem_append_left _ hm
      | start | free | insert p c | erase p => exact hm
    · exact hm
  · exact hm

theorem WorkerEffect.onHost_gameMaster (eff : WorkerEffect) (h : HostPtr) (g : GameHost) :
    (eff.onHost h g).gameMaster = g.gameMaster := by
  unfold WorkerEffect.onHost
  split
  · rename_i act _
    split
    · cases act <;> rfl
    · rfl
  · rfl

theorem WorkerEffect.onHost_leftBy {eff : WorkerEffect} {h : HostPtr} {g : GameHost} {c : ConnId}
    (hl : (eff.onHost h g).pc.leftBy = some c) : g.pc.leftBy = some c := by
  unfold WorkerEffect.onHost at hl
  split at hl
  · rename_i act _
    split at hl
    · cases act with
      | start | free => cases hl
      | put m | insert p c | erase p => exact hl
    · exact hl
  · exact hl

/-- What a worker is to a host, but for its channel. -/
structure GameWorker.Same (w w' : GameWorker) : Prop where
  pc : w'.pc = w.pc
  mHost : w'.mHost = w.mHost
  playerId : w'.playerId = w.playerId
  notice : w'.notice = w.notice
  chan : w.pc.hostWait = true → w'.chan = w.chan

theorem GameWorker.Same.refl (w : GameWorker) : w.Same w :=
  ⟨rfl, rfl, rfl, rfl, fun _ => rfl⟩

theorem GameWorker.Same.staying {w w' : GameWorker} {c : ConnId} {k : HostPtr} {g g' : GameHost}
    (h : w.Same w') (hclients : g'.clients = g.clients) :
    w'.Staying c k g' ↔ w.Staying c k g := by
  have hent : w'.Entering ↔ w.Entering := by
    unfold GameWorker.Entering
    rw [h.pc]
    refine or_congr_left (and_congr_right fun hpc => ?_)
    rw [h.chan (by rw [hpc]; rfl)]
  rw [GameWorker.Staying, GameWorker.Staying, h.mHost, hclients, hent]

theorem GameWorker.Same.leaving {w w' : GameWorker} {c : ConnId} {k : HostPtr} {g g' : GameHost}
    (h : w.Same w') (hq : ∀ m ∈ g.queue, m ∈ g'.queue ∨ g'.pc = m.start)
    (hpc : g'.pc = g.pc ∨ g.pc ≠ .discStart c) (hw : w.Leaving c k g) : w'.Leaving c k g' := by
  obtain ⟨hm, hw⟩ := hw
  refine ⟨h.mHost.trans hm, ?_⟩
  rw [h.pc]
  obtain hw | hw | ⟨hwait, hchan, hat⟩ := hw
  · exact .inl hw
  · exact .inr (.inl hw)
  · refine .inr (.inr ⟨hwait, ?_, ?_⟩)
    · rw [h.chan (by rw [hwait]; rfl), hchan]
    · obtain hat | hat := hat
      · exact (hq _ hat).imp_right id
      · obtain hpc | hpc := hpc
        · exact .inr (hpc.trans hat)
        · exact absurd hat hpc

/-! ## The invariant -/

structure MasterInv (s : State) (past : Past) : Prop where
  join : JoinInv s past
  nonzero : ∀ k g p c, s.hosts k = some g → g.pc ≠ .deleted → (p, c) ∈ g.clients → p ≠ 0
  hosts : ∀ k g, s.hosts k = some g → g.pc ≠ .deleted → HostMaster s k g

namespace MasterInv

variable {s s' : State} {past past' : Past}

theorem initial : MasterInv State.initial [] :=
  ⟨.initial, fun _ _ _ _ hg => (nomatch hg), fun _ _ hg => (nomatch hg)⟩

/-- Who is on the way into a host is joining it. -/
theorem entering_host (h : JoinInv s past) {c : ConnId} {w : GameWorker} {k : HostPtr}
    (hw : s.workers c = some w) (hm : w.mHost = some k) (hent : w.Entering) :
    w.playerId ≠ 0 ∧ ∃ g, s.hosts k = some g := by
  have hjoins : w.joins = some k := by
    obtain ⟨hpc, -⟩ | hpc := hent <;> simp [GameWorker.joins, hpc, hm]
  obtain ⟨hne, g, hg, -⟩ := h.ask.joins c w k hw hjoins
  exact ⟨hne, g, hg⟩

/-- A worker gets into `m_clients` only from the way in. -/
theorem worker_staying {c : ConnId} {w w' : GameWorker} {eff : WorkerEffect} {k : HostPtr}
    {g : GameHost} (h : JoinInv s past) (hw : s.workers c = some w)
    (hmove : WorkerMove c s.workerView w w' eff)
    (hjoined : w'.pc = .insertClient → w.chan.head? = some true)
    (hg : s.hosts k = some g) (hdel : g.pc ≠ .deleted)
    (hstays : w'.Staying c k (eff.onHost k g)) : w.Staying c k g := by
  obtain ⟨hm, hent | ⟨p, hmem⟩⟩ := hstays
  · obtain ⟨hpc, hok⟩ | hpc := hent
    · -- Nothing is on its channel when it begins to wait.
      obtain ⟨hnode, hchan⟩ := hmove.to_waitJoin hpc
      have hsettled := h.answers.settled hw
      simp only [GameWorker.Settled, hnode, hchan, WorkerPc.hostWait, WorkerPc.authWait,
        List.length_cons, Bool.or_true, if_true] at hsettled
      rw [List.length_eq_zero_iff.1 (show w'.chan.length = 0 by omega)] at hok
      cases hok
    · obtain ⟨hwait, hmEq, ok, hchan⟩ := hmove.to_insertClient hpc
      have hhead := hjoined hpc
      rw [hchan, List.head?_cons, Option.some.injEq] at hhead
      refine ⟨hmEq ▸ hm, .inl (.inl ⟨hwait, ?_⟩)⟩
      rw [hchan, hhead]
      exact List.mem_cons_self
  · obtain ⟨hmem, -⟩ | hins := WorkerEffect.onHost_clients hmem
    · obtain ⟨⟨w₁, hw₁, hmember⟩, -⟩ := h.member k g p c hg hdel hmem
      rw [hw] at hw₁
      cases hw₁
      exact ⟨hmember.1, .inr ⟨p, hmem⟩⟩
    · obtain ⟨-, -, hpc, hm, -⟩ := hmove.inserts hins
      exact ⟨hm, .inl (.inr hpc)⟩

/-- The game master goes on. -/
theorem worker_goes {c : ConnId} {w w' : GameWorker} {eff : WorkerEffect} {k : HostPtr}
    {g : GameHost} (h : JoinInv s past) (hw : s.workers c = some w)
    (hmove : WorkerMove c s.workerView w w' eff)
    (hidle : w.pc = .idle → w'.pc = .waitMsg ∨ w'.pc = .cleanup)
    (hg : s.hosts k = some g) (hdel : g.pc ≠ .deleted)
    (hgoes : w.Staying c k g ∨ w.Leaving c k g) : w'.playerId = w.playerId ∧
      (w'.Staying c k (eff.onHost k g) ∨ w'.Leaving c k (eff.onHost k g)) := by
  obtain ⟨hm, hent | ⟨p, hmem⟩⟩ | ⟨hm, hleave⟩ := hgoes
  · obtain ⟨hm', hid, hpc | hpc | hins⟩ := hmove.entering hm hent
    · exact ⟨hid, .inl ⟨hm', .inl (.inr hpc)⟩⟩
    · exact ⟨hid, .inr ⟨hm', .inl hpc⟩⟩
    · refine ⟨hid, .inl ⟨hm', .inr ⟨w.playerId, ?_⟩⟩⟩
      rw [WorkerEffect.onHost, hins]
      simp only [if_true, HostAct.run]
      exact List.mem_cons_self
  · obtain ⟨⟨w₁, hw₁, hmember⟩, -⟩ := h.member k g p c hg hdel hmem
    rw [hw] at hw₁
    cases hw₁
    obtain ⟨hm', hid, hpc | hno⟩ := hmove.stays hidle hmember
    · exact ⟨hid, .inr ⟨hm', .inr (.inl hpc)⟩⟩
    · refine ⟨hid, .inl ⟨hm', .inr ⟨p, ?_⟩⟩⟩
      by_contra hgone
      obtain herase | ⟨c', hins⟩ := eff.onHost_keeps hmem hgone
      · exact (hno k p c).1 herase
      · exact (hno k p c').2 hins
  · have hput : w.pc = .cleanup ∨ w.pc = .putDisc → w'.playerId = w.playerId ∧
        (w'.Staying c k (eff.onHost k g) ∨ w'.Leaving c k (eff.onHost k g)) := by
      intro hpc
      obtain ⟨hm', hid, hpc' | ⟨hpc', hput, hchan, hact⟩⟩ := hmove.leaving hm hpc
      · exact ⟨hid, .inr ⟨hm', .inr (.inl hpc')⟩⟩
      · have hsettled := h.answers.settled hw
        simp only [GameWorker.Settled, hput, WorkerPc.hostWait, WorkerPc.authWait, Bool.or_self,
          Bool.false_eq_true, if_false, Nat.le_zero, List.length_eq_zero_iff] at hsettled
        refine ⟨hid, .inr ⟨hm', .inr (.inr ⟨hpc', hchan.trans hsettled, .inl ?_⟩)⟩⟩
        rw [WorkerEffect.onHost, hact]
        simp [HostAct.run]
    obtain hpc | hpc | ⟨hpc, hchan, -⟩ := hleave
    · exact hput (.inl hpc)
    · exact hput (.inr hpc)
    · exact absurd hchan (hmove.from_waitDisc hpc)

/-- A worker goes on, or gets a message that is not a join. -/
theorem worker {c : ConnId} {w w' : GameWorker} {eff : WorkerEffect} (h : MasterInv s past)
    (hjoin : JoinInv (s.applyWorker c w' eff) past') (hw : s.workers c = some w)
    (hmove : WorkerMove c s.workerView w w' eff)
    (hidle : w.pc = .idle → w'.pc = .waitMsg ∨ w'.pc = .cleanup)
    (hjoined : w'.pc = .insertClient → w.chan.head? = some true)
    (htake : ∀ k g c', w.mHost = some k → s.hosts k = some g →
      w.pc = .insertClient ∨ w.pc = .cleanup → (w.playerId, c') ∈ g.clients → c' = c) :
    MasterInv (s.applyWorker c w' eff) past' := by
  have hstart := h.join.answers.start
  have hlive : ∀ k g, s.hosts k = some g → (eff.onHost k g).pc ≠ .deleted → g.pc ≠ .deleted := by
    intro k g hg hdel hd
    apply hdel
    rw [hstart.onHost_pc_eq hw hmove hg (by simp [hd]), hd]
  refine ⟨hjoin, fun k g' p c' hg' hdel hmem => ?_, fun k g' hg' hdel => ?_⟩
  · obtain ⟨g, hg, rfl, ⟨hold, -⟩ | hins⟩ := State.applyWorker_clients hmove hg' hmem
    · exact h.nonzero k g p c' hg (hlive k g hg hdel) hold
    · obtain ⟨-, rfl, hpc, hm, -⟩ := hmove.inserts hins
      exact (entering_host h.join hw hm (.inr hpc)).1
  · obtain ⟨g, hg, rfl⟩ := Option.map_eq_some_iff.1 hg'
    by_cases hnew : s.hosts k = none
    · -- The host is new, and nobody has it yet.
      obtain ⟨a, halloc⟩ : ∃ a, eff.alloc = some a := by
        by_contra hno
        rw [Option.eq_none_iff_forall_not_mem.2 fun a ha => hno ⟨a, ha⟩] at hg
        cases hnew.symm.trans hg
      rw [halloc] at hg
      obtain ⟨rfl, rfl⟩ | ⟨-, hg⟩ := Lib.update_eq_some hg
      · obtain ⟨hact, -⟩ := hmove.alloc_fresh halloc
        obtain ⟨hclients, hgm⟩ := hmove.alloc_clients halloc
        have hon : eff.onHost s.nextHost g = g := by simp [WorkerEffect.onHost, hact]
        rw [hon]
        refine ⟨fun _ c' w₁ hw₁ hstays => ?_, fun hne => absurd hgm hne⟩
        obtain ⟨hm, hent | ⟨p, hmem⟩⟩ := hstays
        · obtain ⟨rfl, rfl⟩ | ⟨-, hw₁⟩ := Lib.update_eq_some hw₁
          · obtain ⟨mcpId, hpc⟩ := hmove.alloc_pc halloc
            simp [GameWorker.Entering, hpc] at hent
          · obtain ⟨-, g₁, hg₁⟩ := entering_host h.join hw₁ hm hent
            cases hnew.symm.trans hg₁
        · rw [hclients] at hmem
          cases hmem
      · cases hnew.symm.trans hg
    · obtain ⟨g₁, hg₁⟩ := Option.ne_none_iff_exists'.1 hnew
      rw [State.allocated_of_some hstart hg₁] at hg
      obtain rfl := Option.some.inj hg
      have hdel₁ := hlive k g₁ hg₁ hdel
      refine (h.hosts k g₁ hg₁ hdel₁).keep (eff.onHost_gameMaster k g₁)
        (fun m w₁ hl _ _ => WorkerEffect.onHost_leftBy hl) (fun c' w₁ hw₁ hstays => ?_)
        fun m w₁ hw₁ hid hhere hgoes => ?_
      · left
        obtain ⟨rfl, rfl⟩ | ⟨hc, hw₁⟩ := Lib.update_eq_some hw₁
        · exact ⟨w, hw, worker_staying h.join hw hmove hjoined hg₁ hdel₁ hstays, hmove.notice⟩
        · refine ⟨w₁, hw₁, ⟨hstays.1, hstays.2.imp_right fun hin => ?_⟩, rfl⟩
          obtain ⟨p, hmem⟩ := hin
          obtain ⟨hold, -⟩ | hins := WorkerEffect.onHost_clients hmem
          · exact ⟨p, hold⟩
          · exact absurd (hmove.inserts hins).1 hc
      · by_cases hc : m = c
        · subst hc
          rw [hw] at hw₁
          cases hw₁
          obtain ⟨hid', hgoes'⟩ := worker_goes h.join hw hmove hidle hg₁ hdel₁ hgoes
          exact ⟨w', Function.update_self .., hid', hmove.notice, hgoes'⟩
        · refine ⟨w₁, (Function.update_of_ne hc ..).trans hw₁, rfl, rfl, ?_⟩
          obtain ⟨hm, hstays⟩ | hleave := hgoes
          · refine .inl ⟨hm, hstays.imp_right fun hin => ?_⟩
            obtain ⟨p, hmem⟩ := hin
            refine ⟨p, ?_⟩
            by_contra hgone
            obtain ⟨hm', rfl, hpc⟩ := hmove.takes_entry (eff.onHost_keeps hmem hgone)
            exact hc (htake k g₁ m hm' hg₁ hpc hmem)
          · refine .inr ((GameWorker.Same.refl w₁).leaving
              (fun m hm => .inl (WorkerEffect.mem_onHost_queue hm)) ?_ hleave)
            by_cases hd : g₁.pc = .discStart m
            · exact .inl (hstart.onHost_pc_eq hw hmove hg₁ (by simp [hd]))
            · exact .inr hd

/-- A step that leaves the clients and the threads where they are. -/
theorem still (h : MasterInv s past) (hjoin : JoinInv s' past')
    (hhosts : ∀ k g', s'.hosts k = some g' → ∃ g, s.hosts k = some g ∧ g'.pc = g.pc ∧
      g'.clients = g.clients ∧ g'.gameMaster = g.gameMaster ∧ ∀ m ∈ g.queue, m ∈ g'.queue)
    (hback : ∀ c w', s'.workers c = some w' → w'.mHost = none ∨
      ∃ w, s.workers c = some w ∧ w.Same w')
    (hforth : ∀ c w, s.workers c = some w → ∃ w', s'.workers c = some w' ∧ w.Same w') :
    MasterInv s' past' := by
  refine ⟨hjoin, fun k g' p c hg' hdel hmem => ?_, fun k g' hg' hdel => ?_⟩
  · obtain ⟨g, hg, hpc, hclients, -⟩ := hhosts k g' hg'
    exact h.nonzero k g p c hg (hpc ▸ hdel) (hclients ▸ hmem)
  · obtain ⟨g, hg, hpc, hclients, hgm, hq⟩ := hhosts k g' hg'
    refine (h.hosts k g hg (hpc ▸ hdel)).keep hgm (fun m w hl _ _ => hpc ▸ hl)
      (fun c w' hw' hstays => ?_) fun m w hw _ _ hgoes => ?_
    · obtain hnone | ⟨w, hw, hsame⟩ := hback c w' hw'
      · rw [GameWorker.Staying, hnone] at hstays
        cases hstays.1
      · exact .inl ⟨w, hw, (hsame.staying hclients).1 hstays, hsame.notice⟩
    · obtain ⟨w', hw', hsame⟩ := hforth m w hw
      refine ⟨w', hw', hsame.playerId, hsame.notice, ?_⟩
      exact hgoes.imp (hsame.staying hclients).2
        (hsame.leaving (fun m hm => .inl (hq m hm)) (.inl hpc))

/-- A client that is in no host's `m_clients` asks to join. -/
theorem recvJoin {c : ConnId} {mcpId playerId : UInt32} {w : GameWorker} (h : MasterInv s past)
    (hjoin : JoinInv (s.applyWorker c (w.asks mcpId playerId) {}) past')
    (hw : s.workers c = some w) (hidle : w.pc = .idle)
    (hok : ∀ k g p, s.hosts k = some g → g.pc ≠ .deleted → (p, c) ∉ g.clients) :
    MasterInv (s.applyWorker c (w.asks mcpId playerId) {}) past' := by
  have hhosts : ∀ k g', (s.applyWorker c (w.asks mcpId playerId) {}).hosts k = some g' →
      s.hosts k = some g' := by
    intro k g' hg'
    obtain ⟨g, hg, rfl⟩ := Option.map_eq_some_iff.1 hg'
    exact hg
  refine ⟨hjoin, fun k g p c' hg => h.nonzero k g p c' (hhosts k g hg), fun k g hg hdel => ?_⟩
  replace hg := hhosts k g hg
  refine (h.hosts k g hg hdel).keep rfl (fun m w hl _ _ => hl) (fun c' w' hw' hstays => ?_)
    fun m w₁ hw₁ _ _ hgoes => ?_
  · left
    obtain ⟨rfl, rfl⟩ | ⟨-, hw'⟩ := Lib.update_eq_some hw'
    · obtain ⟨-, hent | ⟨p, hmem⟩⟩ := hstays
      · unfold GameWorker.Entering GameWorker.asks at hent
        split at hent <;> simp [hidle] at hent
      · exact absurd hmem (hok k g p hg hdel)
    · exact ⟨w', hw', hstays, rfl⟩
  · have hne : m ≠ c := by
      rintro rfl
      rw [hw] at hw₁
      cases hw₁
      obtain ⟨-, hent | ⟨p, hmem⟩⟩ | ⟨-, hleave⟩ := hgoes
      · simp [GameWorker.Entering, hidle] at hent
      · exact hok k g p hg hdel hmem
      · simp [hidle] at hleave
    exact ⟨w₁, (Function.update_of_ne hne ..).trans hw₁, rfl, rfl, hgoes⟩

/-! ### Steps of a host -/

section Host

variable {k : HostPtr} {g g' : GameHost} {eff : HostEffect}

/-- A host tells nobody anything who is not at it. -/
theorem onWorker_elsewhere (h : JoinInv s past) (hg : s.hosts k = some g)
    (hmove : HostMove k s.hostView g g' eff) {c : ConnId} {w : GameWorker}
    (hw : s.workers c = some w) (hm : w.mHost ≠ some k) : eff.onWorker c w = w := by
  have hjoiner : ∀ pc, g.pc.call ≠ some (c, pc) := by
    intro pc hcall
    obtain ⟨w₁, hw₁, -, hm₁, -⟩ := h.joiner hg hcall
    rw [hw] at hw₁
    cases hw₁
    exact hm hm₁
  refine HostEffect.onWorker_eq w (fun ok hr => ?_) fun own hn => ?_
  · obtain ⟨pc, hcall, -⟩ := hmove.reply_call hr
    exact hjoiner pc hcall
  · obtain hcall | ⟨p, hmem⟩ := hmove.notice_to hn
    · exact hjoiner _ hcall
    · obtain ⟨⟨w₁, hw₁, hmember⟩, -⟩ := h.member k g p c hg hmove.running.2 hmem
      rw [hw] at hw₁
      cases hw₁
      exact hm hmember.1

/-- Where the workers stand that a host with a game master has. -/
theorem staying_pc (h : JoinInv s past) (hg : s.hosts k = some g) (hdel : g.pc ≠ .deleted)
    {c : ConnId} {w : GameWorker} (hw : s.workers c = some w) (hstays : w.Staying c k g) :
    (w.pc = .waitJoin ∧ true ∈ w.chan) ∨ w.pc = .insertClient ∨ w.pc = .idle ∨ w.pc = .waitMsg ∨
      w.pc = .cleanup := by
  obtain ⟨-, (hent | hent) | ⟨p, hmem⟩⟩ := hstays
  · exact .inl hent
  · exact .inr (.inl hent)
  · obtain ⟨⟨w₁, hw₁, hmember⟩, -⟩ := h.member k g p c hg hdel hmem
    rw [hw] at hw₁
    cases hw₁
    exact .inr (.inr hmember.2.2)

/-- The move has nothing to do with the game-mastership. -/
theorem host_aside (h : MasterInv s past) (hg : s.hosts k = some g)
    (hmove : HostMove k s.hostView g g' eff) (haside : HostMove.Aside s.hostView g g' eff) :
    HostMaster (s.applyHost k g' eff) k g' := by
  have hdel := hmove.running.2
  have hid : ∀ c w, s.workers c = some w → s.hostView.playerIdOf c = w.playerId := by
    intro c w hw
    simp only [State.hostView, hw]
  refine (h.hosts k g hg hdel).keep haside.gameMaster (fun m w hl hw hgm => ?_)
    (fun c w' hw' hstays => ?_) fun m w hw hgm hhere hgoes => ?_
  · obtain hl | hpc := haside.left m hl
    · exact hl
    · exact absurd (hgm.symm.trans (hid m w hw).symm) (haside.keeps m hpc)
  · obtain ⟨w, hw, rfl⟩ := Option.map_eq_some_iff.1 hw'
    have hnotice : (eff.onWorker c w).notice = w.notice := by
      simp [HostEffect.onWorker, HostEffect.noticeTo, haside.notice]
    refine .inl ⟨w, hw, ⟨hstays.1, ?_⟩, hnotice⟩
    obtain ⟨-, (⟨hwait, hok⟩ | hent) | ⟨p, hmem⟩⟩ := hstays
    · obtain hok | hok := List.mem_append.1 hok
      · exact .inl (.inl ⟨hwait, hok⟩)
      · have hr := HostEffect.mem_toWorker hok
        obtain ⟨pc, hcall, -⟩ := hmove.reply_call hr
        obtain ⟨w₁, hw₁, hpc, -⟩ := h.join.joiner hg hcall
        rw [hw] at hw₁
        cases hw₁
        obtain rfl : pc = .waitJoin := hpc.symm.trans hwait
        exact absurd hcall (haside.accepts c hr)
    · exact .inl (.inr hent)
    · exact .inr ⟨p, hmove.clients ▸ hmem⟩
  · refine ⟨eff.onWorker m w, by simp only [State.applyHost, hw, Option.map_some], rfl, ?_, ?_⟩
    · simp [HostEffect.onWorker, HostEffect.noticeTo, haside.notice]
    · obtain ⟨hm, (⟨hwait, hok⟩ | hent) | ⟨p, hmem⟩⟩ | ⟨hm, hleave⟩ := hgoes
      · exact .inl ⟨hm, .inl (.inl ⟨hwait, List.mem_append_left _ hok⟩)⟩
      · exact .inl ⟨hm, .inl (.inr hent)⟩
      · exact .inl ⟨hm, .inr ⟨p, hmove.clients ▸ hmem⟩⟩
      · refine .inr ⟨hm, ?_⟩
        obtain hpc | hpc | ⟨hpc, hchan, hat⟩ := hleave
        · exact .inl hpc
        · exact .inr (.inl hpc)
        · refine .inr (.inr ⟨hpc, ?_, ?_⟩)
          · -- The host has no reply for who it has not come to.
            rw [List.eq_nil_iff_forall_not_mem]
            intro ok hok
            obtain hok | hok := List.mem_append.1 hok
            · rw [hchan] at hok
              cases hok
            · have hr := HostEffect.mem_toWorker hok
              obtain ⟨pc, hcall, -⟩ := hmove.reply_call hr
              obtain ⟨w₁, hw₁, hpc₁, -⟩ := h.join.joiner hg hcall
              rw [hw] at hw₁
              cases hw₁
              obtain rfl : pc = .waitDisc := hpc₁.symm.trans hpc
              exact hhere (hmove.reply_left hr hcall)
          · obtain hat | hat := hat
            · exact hmove.queue _ hat
            · exact absurd (hgm.symm.trans (hid m w hw).symm) (haside.keeps m hat)

/-- The first one is made the game master. -/
theorem host_joinFirst {c : ConnId} (h : MasterInv s past) (hg : s.hosts k = some g)
    (hpc : g.pc = .joinDone c true) (hgm : g.gameMaster = 0) :
    HostMaster (s.applyHost k { g with pc := .idle, gameMaster := s.hostView.playerIdOf c }
        { reply := some (.worker c, true), notice := some (c, true) }) k
      { g with pc := .idle, gameMaster := s.hostView.playerIdOf c } := by
  obtain ⟨w, hw, hwait, hm, -⟩ := h.join.joiner hg (by rw [hpc]; rfl)
  have hid : s.hostView.playerIdOf c = w.playerId := by simp only [State.hostView, hw]
  have hne : w.playerId ≠ 0 :=
    (h.join.ask.joins c w k hw (by simp [GameWorker.joins, hwait, hm])).1
  refine ⟨fun hzero => absurd (hid.symm.trans hzero) hne, fun _ => ⟨c, ?_, by simp [HostPc.leftBy],
    fun c' w' hw' hstays hc => ?_⟩⟩
  · refine ⟨_, Option.map_eq_some_iff.2 ⟨w, hw, rfl⟩, hid.symm, ?_,
      .inl ⟨hm, .inl (.inl ⟨hwait, ?_⟩)⟩⟩
    · simp [HostEffect.onWorker, HostEffect.noticeTo]
    · simp [HostEffect.onWorker, HostEffect.toWorker]
  · obtain ⟨w₁, hw₁, rfl⟩ := Option.map_eq_some_iff.1 hw'
    rw [HostEffect.onWorker_eq w₁ (by simp [Ne.symm hc]) (by simp [Ne.symm hc])] at hstays
    exact absurd hstays ((h.hosts k g hg (by simp [hpc])).nobody hgm c' w₁ hw₁)

/-- Another one is not. -/
theorem host_joinOther {c : ConnId} (h : MasterInv s past) (hg : s.hosts k = some g)
    (hpc : g.pc = .joinDone c true) (hgm : g.gameMaster ≠ 0) :
    HostMaster (s.applyHost k { g with pc := .idle }
        { reply := some (.worker c, true), notice := some (c, false) }) k
      { g with pc := .idle } := by
  obtain ⟨w, hw, hwait, hm, hchan⟩ := h.join.joiner hg (by rw [hpc]; rfl)
  have hdel : g.pc ≠ .deleted := by simp [hpc]
  refine (h.hosts k g hg hdel).keep rfl (fun m w hl => ?_) (fun c' w' hw' hstays => ?_)
    fun m w₁ hw₁ hid hhere hgoes => ?_
  · cases hl
  · obtain ⟨w₁, hw₁, rfl⟩ := Option.map_eq_some_iff.1 hw'
    by_cases hc : c' = c
    · subst hc
      exact .inr ⟨hgm, by simp [HostEffect.onWorker, HostEffect.noticeTo]⟩
    · rw [HostEffect.onWorker_eq w₁ (by simp [Ne.symm hc]) (by simp [Ne.symm hc])] at hstays ⊢
      exact .inl ⟨w₁, hw₁, hstays, rfl⟩
  · have hne : m ≠ c := by
      rintro rfl
      rw [hw] at hw₁
      cases hw₁
      obtain hstays | ⟨-, hleave⟩ := hgoes
      · have hat := staying_pc h.join hg hdel hw hstays
        simp [hwait, hchan] at hat
      · simp [hwait] at hleave
    refine ⟨w₁, ?_, rfl, rfl, hgoes.imp (fun hstays => hstays) fun hleave => ?_⟩
    · simp only [State.applyHost, hw₁, Option.map_some]
      rw [HostEffect.onWorker_eq w₁ (by simp [Ne.symm hne]) (by simp [Ne.symm hne])]
    · exact (GameWorker.Same.refl w₁).leaving (g := g) (fun _ hm => .inl hm)
        (.inr (by simp [hpc])) hleave

/-- The game master leaves, and a client takes its place. -/
theorem host_reassign {c owner : ConnId} {p : UInt32} (h : MasterInv s past)
    (hg : s.hosts k = some g) (hpc : g.pc = .discStart c)
    (hgm : g.gameMaster = s.hostView.playerIdOf c) (howner : (p, owner) ∈ g.clients)
    (hok : ∀ w, s.workers c = some w → g.gameMaster = w.playerId → ∀ c' w',
      s.workers c' = some w' → w'.mHost = some k → w'.pc ≠ .ended →
        w'.playerId = w.playerId → c' = c) :
    HostMaster (s.applyHost k { g with pc := .discCall c, gameMaster := s.hostView.playerIdOf owner }
        { notice := some (owner, true) }) k
      { g with pc := .discCall c, gameMaster := s.hostView.playerIdOf owner } := by
  obtain ⟨w, hw, hwait, hm, -⟩ := h.join.joiner hg (by rw [hpc]; rfl)
  have hdel : g.pc ≠ .deleted := by simp [hpc]
  obtain ⟨⟨w₀, hw₀, hm₀, hid₀, hpc₀⟩, -⟩ := h.join.member k g p owner hg hdel howner
  have hp : s.hostView.playerIdOf owner = p := by
    simp only [State.hostView, hw₀]
    exact hid₀
  have hid : g.gameMaster = w.playerId := by
    rw [hgm]
    simp only [State.hostView, hw]
  have hleft : ∀ w', s.workers c = some w' → ¬ w'.Staying c k g := by
    intro w' hw' hstays
    rw [hw] at hw'
    cases hw'
    have hat := staying_pc h.join hg hdel hw hstays
    simp [hwait] at hat
  have hold := h.hosts k g hg hdel
  have hstayOwner : w₀.Staying owner k g := ⟨hm₀, .inr ⟨p, howner⟩⟩
  obtain ⟨m, ⟨w₁, hw₁, hid₁, -, hgoes⟩, -, honly⟩ :=
    hold.master fun hzero => hold.nobody hzero owner w₀ hw₀ hstayOwner
  -- The game master is the one that leaves.
  obtain rfl : m = c := by
    refine hok w hw hid m w₁ hw₁ ?_ ?_ (hid₁.trans hid)
    · obtain hstays | hleave := hgoes
      · exact hstays.1
      · exact hleave.1
    · obtain hstays | ⟨-, hleave⟩ := hgoes
      · obtain ⟨hpc, -⟩ | hpc | hpc | hpc | hpc := staying_pc h.join hg hdel hw₁ hstays <;>
          simp [hpc]
      · obtain hpc | hpc | ⟨hpc, -⟩ := hleave <;> simp [hpc]
  refine ⟨fun hzero => absurd (hp.symm.trans hzero) (h.nonzero k g p owner hg hdel howner),
    fun _ => ⟨owner, ?_, fun hl => ?_, fun c' w' hw' hstays hc => ?_⟩⟩
  · refine ⟨_, Option.map_eq_some_iff.2 ⟨w₀, hw₀, rfl⟩, hid₀.trans hp.symm, ?_,
      .inl ⟨hm₀, .inr ⟨p, howner⟩⟩⟩
    simp [HostEffect.onWorker, HostEffect.noticeTo]
  · cases hl
    exact hleft w₀ hw₀ hstayOwner
  · obtain ⟨w₂, hw₂, rfl⟩ := Option.map_eq_some_iff.1 hw'
    rw [HostEffect.onWorker_eq w₂ (by simp) (by simp [Ne.symm hc])] at hstays ⊢
    refine honly c' w₂ hw₂ hstays ?_
    rintro rfl
    exact hleft w₂ hw₂ hstays

theorem host (h : MasterInv s past) (hjoin : JoinInv (s.applyHost k g' eff) past')
    (hg : s.hosts k = some g) (hmove : HostMove k s.hostView g g' eff)
    (hok : ∀ c w, g.pc = .discStart c → s.workers c = some w → g.gameMaster = w.playerId →
      (∀ c' w', s.workers c' = some w' → w'.mHost = some k → w'.pc ≠ .ended →
        w'.playerId = w.playerId → c' = c) ∧
      (g.clients = [] → ∀ c' w', s.workers c' = some w' → w'.mHost = some k → ¬ w'.Entering)) :
    MasterInv (s.applyHost k g' eff) past' := by
  have hdelk := hmove.running.2
  refine ⟨hjoin, fun j g₁ p c hg₁ hdel hmem => ?_, fun j g₁ hg₁ hdel => ?_⟩
  · obtain ⟨rfl, rfl⟩ | ⟨-, hg₁⟩ := Lib.update_eq_some hg₁
    · exact h.nonzero j g p c hg hdelk (hmove.clients ▸ hmem)
    · exact h.nonzero j g₁ p c hg₁ hdel hmem
  · obtain ⟨rfl, rfl⟩ | ⟨hj, hg₁⟩ := Lib.update_eq_some hg₁
    · cases hmove.mastery with
      | aside haside => exact host_aside h hg hmove haside
      | joinFirst hpc hgm hg' heff =>
        subst hg' heff
        exact host_joinFirst h hg hpc hgm
      | joinOther hpc hgm hg' heff =>
        subst hg' heff
        exact host_joinOther h hg hpc hgm
      | @reassign c p owner hpc hgm howner hg' heff =>
        subst hg' heff
        exact host_reassign h hg hpc hgm howner fun w hw hid => (hok c w hpc hw hid).1
      | @none c hpc hgm hempty hg' heff =>
        subst hg' heff
        refine ⟨fun _ c' w' hw' hstays => ?_, fun hne => absurd rfl hne⟩
        obtain ⟨w₁, hw₁, rfl⟩ := Option.map_eq_some_iff.1 hw'
        rw [HostEffect.onWorker_eq w₁ (by simp) (by simp)] at hstays
        obtain ⟨w, hw, -⟩ := h.join.joiner hg (by rw [hpc]; rfl)
        have hid : g.gameMaster = w.playerId := by
          rw [hgm]
          simp only [State.hostView, hw]
        obtain ⟨hm, hent | ⟨p, hmem⟩⟩ := hstays
        · exact (hok c w hpc hw hid).2 hempty c' w₁ hw₁ hm hent
        · simp [hempty] at hmem
    · -- Another host, and the workers that are at it.
      refine (h.hosts j g₁ hg₁ hdel).keep rfl (fun m w hl _ _ => hl) (fun c w' hw' hstays => ?_)
        fun m w hw _ _ hgoes => ?_
      · obtain ⟨w, hw, rfl⟩ := Option.map_eq_some_iff.1 hw'
        have hm : w.mHost = some j := hstays.1
        rw [onWorker_elsewhere h.join hg hmove hw (by simp [hm, hj])] at hstays ⊢
        exact .inl ⟨w, hw, hstays, rfl⟩
      · have hm : w.mHost = some j := by
          obtain hstays | hleave := hgoes
          · exact hstays.1
          · exact hleave.1
        refine ⟨w, ?_, rfl, rfl, hgoes⟩
        simp only [State.applyHost, hw, Option.map_some]
        rw [onWorker_elsewhere h.join hg hmove hw (by simp [hm, hj])]

end Host

/-! ### The other threads -/

theorem daemon (h : MasterInv s past) (hjoin : JoinInv s' past') (hmove : DaemonMove s s') :
    MasterInv s' past' := by
  have hsame : ∀ k g', s.hosts k = some g' → ∃ g, s.hosts k = some g ∧ g'.pc = g.pc ∧
      g'.clients = g.clients ∧ g'.gameMaster = g.gameMaster ∧ ∀ m ∈ g.queue, m ∈ g'.queue :=
    fun k g' hg' => ⟨g', hg', rfl, rfl, rfl, fun _ => id⟩
  have hback : ∀ c w', s.workers c = some w' → w'.mHost = none ∨
      ∃ w, s.workers c = some w ∧ w.Same w' := fun c w' hw' => .inr ⟨w', hw', .refl w'⟩
  have hforth : ∀ c w, s.workers c = some w → ∃ w', s.workers c = some w' ∧ w.Same w' :=
    fun c w hw => ⟨w, hw, .refl w⟩
  cases hmove with
  | host =>
    refine h.still hjoin (fun k g' hg' => ?_) hback hforth
    obtain ⟨g, hg, rfl⟩ := Option.map_eq_some_iff.1 hg'
    refine ⟨g, hg, ?_⟩
    split <;> exact ⟨rfl, rfl, rfl, fun _ => id⟩
  | @worker r c rest ok hd hc hr =>
    have hanswered : ∀ c' w, s.workers c' = some w →
        w.Same (if c' = c then { w with chan := w.chan ++ [ok] } else w) := by
      intro c' w hw
      split
      · rename_i hcc
        subst hcc
        refine ⟨rfl, rfl, rfl, rfl, fun hwait => ?_⟩
        -- A worker with a request on the auth channel waits for its answer.
        have hasked := h.join.answers.asked (.worker c')
        have hpos : 0 < s.asked (.worker c') :=
          List.countP_pos_iff.2 ⟨r, hc ▸ List.mem_cons_self, by
            obtain rfl | rfl | rfl := hr <;> simp [AuthReq.caller]⟩
        have hno : w.pc.authWait = false := by
          cases hpc : w.pc <;> simp_all [WorkerPc.hostWait, WorkerPc.authWait]
        simp only [State.calls, hw, hno, Bool.false_eq_true, if_false] at hasked
        omega
      · exact .refl w
    refine h.still hjoin hsame (fun c' w' hw' => ?_) fun c' w hw => ?_
    · obtain ⟨w, hw, rfl⟩ := Option.map_eq_some_iff.1 hw'
      exact .inr ⟨w, hw, hanswered c' w hw⟩
    · exact ⟨_, Option.map_eq_some_iff.2 ⟨w, hw, rfl⟩, hanswered c' w hw⟩
  | forward | global =>
    refine h.still hjoin (fun k g' hg' => ?_) hback hforth
    obtain ⟨g, hg, rfl⟩ := Option.map_eq_some_iff.1 hg'
    refine ⟨g, hg, ?_⟩
    split
    · exact ⟨rfl, rfl, rfl, fun _ => List.mem_append_left _⟩
    · exact ⟨rfl, rfl, rfl, fun _ => id⟩
  | client | miss | back => exact h.still hjoin hsame hback hforth

theorem step {e : Event} (h : MasterInv s past) (hok : MasterOk s e)
    (hs : GameServ.step s e = some s') : MasterInv s' ((s, e) :: past) := by
  obtain ⟨hjoinOk, hok⟩ := hok
  have hjoin := h.join.step hjoinOk hs
  have hsame : ∀ k g', s.hosts k = some g' → ∃ g, s.hosts k = some g ∧ g'.pc = g.pc ∧
      g'.clients = g.clients ∧ g'.gameMaster = g.gameMaster ∧ ∀ m ∈ g.queue, m ∈ g'.queue :=
    fun k g' hg' => ⟨g', hg', rfl, rfl, rfl, fun _ => id⟩
  have hback : ∀ c w', s.workers c = some w' → w'.mHost = none ∨
      ∃ w, s.workers c = some w ∧ w.Same w' := fun c w' hw' => .inr ⟨w', hw', .refl w'⟩
  have hforth : ∀ c w, s.workers c = some w → ∃ w', s.workers c = some w' ∧ w.Same w' :=
    fun c w hw => ⟨w, hw, .refl w⟩
  cases step_happens hs with
  | @accept c hnone =>
    refine h.still hjoin hsame (fun c' w' hw' => ?_)
      fun c' w hw => ⟨w, Lib.update_of_some hnone hw _, .refl w⟩
    obtain ⟨rfl, rfl⟩ | ⟨-, hw'⟩ := Lib.update_eq_some hw'
    · exact .inl rfl
    · exact hback c' w' hw'
  | recvJoin hw hidle => exact h.recvJoin hjoin hw hidle hjoinOk
  | recvMsg hw hidle hops hh =>
    exact h.worker hjoin hw (.recvMsg hidle hops hh) (fun _ => .inl rfl) (by simp)
      (by simp [hidle])
  | leave hw hidle =>
    exact h.worker hjoin hw (.hangup hidle) (fun _ => .inr rfl) (by simp) (by simp [hidle])
  | @worker c ch w w' eff hw hbusy hstep hmove =>
    refine h.worker hjoin hw hmove (fun hidle => absurd hidle hbusy)
      (hmove.accepted hstep fun hwait hhead => hjoinOk w hw hwait hhead)
      fun k g c' hm hg hpc hmem => hok w k g c' hw hm hg hpc hmem
  | host hg hmove => exact h.host hjoin hg hmove fun c w hpc hw hgm => hok _ c w hg hpc hw hgm
  | daemon _ hmove => exact h.daemon hjoin hmove
  | authRequest => exact h.still hjoin hsame hback hforth
  | serverShutdown =>
    refine h.still hjoin (fun k g' hg' => ?_) hback hforth
    obtain ⟨g, hg, rfl⟩ := Option.map_eq_some_iff.1 hg'
    refine ⟨g, hg, ?_⟩
    split
    · exact ⟨rfl, rfl, rfl, fun _ => List.mem_append_left _⟩
    · exact ⟨rfl, rfl, rfl, fun _ => id⟩

/-- Who is in a quiet host with clients. -/
theorem oneMaster (h : MasterInv s past) : OneMaster s := by
  intro k g hg hdel hquiet hne
  have hmember : ∀ p c, (p, c) ∈ g.clients →
      ∃ w, s.workers c = some w ∧ w.playerId = p ∧ w.Staying c k g := by
    intro p c hmem
    obtain ⟨⟨w, hw, hm, hid, -⟩, -⟩ := h.join.member k g p c hg hdel hmem
    exact ⟨w, hw, hid, hm, .inr ⟨p, hmem⟩⟩
  have hhost := h.hosts k g hg hdel
  have hgm : g.gameMaster ≠ 0 := by
    intro hzero
    obtain ⟨⟨p, c⟩, hmem⟩ := List.exists_mem_of_ne_nil _ hne
    obtain ⟨w, hw, -, hstays⟩ := hmember p c hmem
    exact hhost.nobody hzero c w hw hstays
  obtain ⟨m, ⟨w, hw, hid, hnotice, hgoes⟩, -, honly⟩ := hhost.master hgm
  have hin : (g.gameMaster, m) ∈ g.clients := by
    obtain ⟨hm, (⟨hpc, -⟩ | hpc) | ⟨p, hmem⟩⟩ | ⟨hm, hpc | hpc | ⟨hpc, -⟩⟩ := hgoes
    · exact absurd hpc (hquiet m w hw hm).1
    · exact absurd hpc (hquiet m w hw hm).2.1
    · obtain ⟨w', hw', hid', -⟩ := hmember p m hmem
      rw [hw] at hw'
      cases hw'
      rw [← hid, hid']
      exact hmem
    · exact absurd hpc (hquiet m w hw hm).2.2.1
    · exact absurd hpc (hquiet m w hw hm).2.2.2.1
    · exact absurd hpc (hquiet m w hw hm).2.2.2.2
  refine ⟨m, w, hin, hw, hnotice, fun p c' w' hmem hc hw' => ?_⟩
  obtain ⟨w₁, hw₁, -, hstays⟩ := hmember p c' hmem
  rw [hw'] at hw₁
  cases hw₁
  exact honly c' w' hw' hstays hc

end MasterInv

/-- **A host has one game master.**  In a run whose steps all meet the condition,
a host with clients and nobody on the way in or out has one game master. -/
theorem one_master {s : State} (h : machine.ReachableWith MasterOk s) : OneMaster s := by
  obtain ⟨past, hpast⟩ := h.withHistory
  have hinv : MasterInv s past := by
    refine Lib.Machine.withHistory_invariant (I := MasterInv) ?_ ?_ hpast
    · rintro s rfl
      exact .initial
    · exact fun s past e s' hinv hok hs => hinv.step hok hs
  exact hinv.oneMaster

/-! ## Two runs -/

section Runs

/-- A step at which `MasterOk` asks for nothing. -/
def State.masterKept (s : State) : Event → Bool
  | .recvJoin .. => false
  | .worker c _ => match s.workers c with
    | some w => w.chan.head? ≠ some false && match w.mHost.bind s.hosts with
      | some g => g.clients.isEmpty
      | none => true
    | none => true
  | .host h _ => match (s.hosts h).map GameHost.pc with
    | some (.discStart _) => false
    | _ => true
  | _ => true

theorem masterOk_of_kept (s : State) (e : Event) (h : s.masterKept e = true) : MasterOk s e := by
  cases e with
  | recvJoin c mcpId playerId => cases h
  | worker c ch =>
    refine ⟨fun w hw _ hhead => ?_, fun w k g c' hw hm hg _ hmem => ?_⟩
    · simp [State.masterKept, hw, hhead] at h
    · simp only [State.masterKept, hw, hm, Option.bind_some, hg, Bool.and_eq_true,
        List.isEmpty_iff] at h
      rw [h.2] at hmem
      cases hmem
  | host k ch =>
    refine ⟨trivial, fun g c w hg hpc => ?_⟩
    simp [State.masterKept, hg, hpc] at h
  | _ => exact ⟨trivial, trivial⟩

/-- The first player of an age is its game master. -/
theorem one_master_join : ∃ s, machine.run .initial joinAndTalk = some s ∧ OneMaster s := by
  have hok : machine.OkRun MasterOk .initial joinAndTalk := by
    refine ⟨⟨trivial, trivial⟩, ⟨fun k g p hg => (nomatch hg), trivial⟩,
      Lib.Machine.okRun_of_allRun masterOk_of_kept (by decide)⟩
  obtain ⟨s, hrun, hs⟩ := (Lib.Machine.ReachableWith.start (M := machine) rfl).run hok
  exact ⟨s, hrun, one_master hs⟩

/-- A connection that is not there comes only by `accept`. -/
theorem workers_none {s s' : State} {es : List Event} {c : ConnId} (hnone : s.workers c = none)
    (hes : ∀ e ∈ es, e ≠ .accept c) (hrun : machine.run s es = some s') : s'.workers c = none := by
  induction es generalizing s with
  | nil =>
    cases hrun
    exact hnone
  | cons e es ih =>
    obtain ⟨s₁, hs, hrun⟩ := Option.bind_eq_some_iff.1 hrun
    refine ih ?_ (fun e' he' => hes e' (List.mem_cons_of_mem _ he')) hrun
    have hother : ∀ c' w, s.workers c' = some w → c ≠ c' := by
      rintro c' w hw rfl
      cases hnone.symm.trans hw
    cases step_case hs with
    | @accept c' =>
      have hne : c ≠ c' := by
        rintro rfl
        exact hes _ List.mem_cons_self rfl
      exact (Function.update_of_ne hne ..).trans hnone
    | recv hw | worker hw => exact (Function.update_of_ne (hother _ _ hw) ..).trans hnone
    | host => simp only [State.applyHost, hnone, Option.map_none]
    | daemon hmove =>
      cases hmove with
      | worker => simp only [State.answerWorker, hnone, Option.map_none]
      | _ => exact hnone
    | authRequest | serverShutdown => exact hnone

/-- Player 8 has been told that it does not own the group, and is not in
`m_clients` yet when the game master leaves. -/
def leaveEarly : List Event :=
  joinAndTalk ++ [.host 0 {}, .worker 0 {}, .accept 1, .recvJoin 1 1 8, .worker 1 {},
    .worker 1 {}, .daemon {}, .worker 1 {}, .host 0 {}, .host 0 {}, .daemon {}, .host 0 {},
    .host 0 {}, .hangup 0, .worker 0 {}, .worker 0 {}, .host 0 {}, .host 0 {}, .host 0 {},
    .daemon {}, .host 0 {}, .worker 1 {}, .worker 1 {}, .host 0 {}, .host 0 {}, .worker 0 {}]

/-- **A host without a game master.** -/
theorem no_master : ¬ ∀ s, machine.Reachable s → OneMaster s := by
  intro hall
  have hhost : (machine.run .initial leaveEarly).map (fun s =>
      (s.hosts 0).map fun g => (g.pc, g.clients, g.gameMaster)) =
        some (some (.idle, [(8, 1)], 0)) := by decide
  have hworkers : (machine.run .initial leaveEarly).map (fun s =>
      [0, 1].map fun c => (s.workers c).map GameWorker.pc) =
        some [some .ended, some .idle] := by decide
  obtain ⟨s, hrun, hs⟩ := Option.map_eq_some_iff.1 hhost
  obtain ⟨g, hg, heq⟩ := Option.map_eq_some_iff.1 hs
  simp only [Prod.mk.injEq] at heq
  obtain ⟨hpc, hclients, hgm⟩ := heq
  simp only [hrun, Option.map_some, List.map_cons, List.map_nil, Option.some.injEq, List.cons.injEq,
    and_true] at hworkers
  have hquiet : s.Quiet 0 := by
    intro c w hw _
    have hat : w.pc = .ended ∨ w.pc = .idle := by
      by_cases h₀ : c = 0
      · rw [h₀] at hw
        rw [hw] at hworkers
        exact .inl (Option.some.inj hworkers.1)
      · by_cases h₁ : c = 1
        · rw [h₁] at hw
          rw [hw] at hworkers
          exact .inr (Option.some.inj hworkers.2)
        · have hnone := workers_none (c := c) rfl
            (by simp [leaveEarly, joinAndTalk, joinNewAge, Ne.symm h₀, Ne.symm h₁]) hrun
          cases hnone.symm.trans hw
    obtain hpc | hpc := hat <;> simp [hpc]
  obtain ⟨c, w, hmem, -⟩ := hall s (Lib.Machine.run_reachable (.start rfl) hrun) 0 g hg
    (by simp [hpc]) hquiet (by simp [hclients])
  simp [hclients, hgm] at hmem

end Runs

end Dirtsand.GameServ
