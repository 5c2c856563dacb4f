import Dirtsand.GameServ.Answers
import Dirtsand.GameServ.Deadlock

/-!
# The lifetime of a host

A host decides by itself to shut down, when the last client has left it, and
does so by a message to its own channel.  Who has looked the host up before can
still put a message behind it, which nobody will answer, and uses a host that is
deleted.  `StepOk` says when a step does not lead there, and `LifeInv` is what
holds in a run whose steps all meet it:

* `LifeInv.held` — the hosts that workers use are not shutting down, except for
  a worker whose last message the host has yet to answer;
* `LifeInv.owed` — who waits for a host's reply is owed it, or has it;
* `LifeInv.linked` — `s_gameHosts` has no host that was deleted.
-/

namespace Dirtsand.GameServ

/-- The worker still uses the host: as `m_host`, until its disconnect is
answered, or as the host it has looked up or is starting. -/
def GameWorker.Holds (w : GameWorker) (h : HostPtr) : Prop :=
  (w.mHost = some h ∧ w.pc ≠ .ended ∧ ¬ (w.pc = .waitDisc ∧ w.chan ≠ [])) ∨ w.pc = .found h ∨
    w.pc.starting = some h

/-- The host is being started, and not in `s_gameHosts` yet. -/
def WorkerPc.unpublished : WorkerPc → Option HostPtr
  | .startFetch _ h => some h
  | .startUpdate _ h => some h
  | .startInsert _ h => some h
  | _ => none

/-- A shutdown is queued, or under way. -/
def GameHost.closing (g : GameHost) : Bool :=
  g.pc.closing || g.queue.any HostMsg.isShutdown

/-- In `dm_game_shutdown`, from the empty-age path. -/
def HostPc.emptyAge : HostPc → Bool
  | .shutClose b => b
  | .shutWait b => b
  | .shutLock b => b
  | .shutDelete b => b
  | _ => false

/-- The host shuts down, or will, because the age is empty. -/
def GameHost.EmptyAge (g : GameHost) : Prop :=
  .shutdown true ∈ g.queue ∨ g.pc.emptyAge = true

/-- Nobody is left who would put another message on the host's channel. -/
def State.Deserted (s : State) (h : HostPtr) : Prop :=
  ∀ c w, s.workers c = some w → w.Holds h → w.pc = .waitDisc

/-- **The condition on a step.** -/
def StepOk (s : State) : Event → Prop
  | .host h _ => ∀ g, s.hosts h = some g →
      -- a shutdown of an empty age is posted when nobody uses the host any more
      (∀ c, g.pc = .discEnd c → g.clients = [] → s.Deserted h) ∧
      -- and nobody asks for the members of an empty age
      ∀ c ops, g.pc = .msg c (.members :: ops) → g.clients ≠ []
  | .worker c ch => ∀ w, s.workers c = some w →
      -- a host is not looked up that is to shut down
      (∀ mcpId h g, w.pc = .lookup mcpId → s.find mcpId = some h → s.hosts h = some g →
        g.closing = false) ∧
      -- and the stored state of an age can be loaded
      ∀ h, w.pc = .startLoad h → ch.ok = true
  | .daemon ch => ForwardOk s (.daemon ch)
  -- the operator shuts the server down when nobody uses it
  | .serverShutdown => ∀ e ∈ s.gameHosts, s.Deserted e.2
  | _ => True

/-! ## What moves do -/

theorem WorkerPc.starting_of_unpublished {pc : WorkerPc} {h : HostPtr}
    (hpc : pc.unpublished = some h) : pc.starting = some h := by
  cases pc <;> simp_all [WorkerPc.unpublished, WorkerPc.starting]

theorem HostMove.clients {h : HostPtr} {v : HostView} {g g' : GameHost} {eff : HostEffect}
    (hmove : HostMove h v g g' eff) : g'.clients = g.clients := by
  cases hmove <;> rfl

theorem HostMove.not_unstarted {h : HostPtr} {v : HostView} {g g' : GameHost} {eff : HostEffect}
    (hmove : HostMove h v g g' eff) : g'.pc ≠ .unstarted := by
  cases hmove with
  | @take m rest hpc hq => cases m <;> simp [HostMsg.start]
  | _ => simp

theorem HostMove.mutexFree {h : HostPtr} {v : HostView} {g g' : GameHost} {eff : HostEffect}
    (hmove : HostMove h v g g' eff) (hok : ∀ c ops, g.pc = .msg c (.members :: ops) → g.clients ≠ [])
    (hfree : g.mutexFree = true) : g'.mutexFree = true := by
  cases hmove with
  | msgMembersThrow hpc hm hempty => exact absurd hempty (hok _ _ hpc)
  | _ => exact hfree

/-- A host posts a shutdown only at the end of `dm_game_disconnect`. -/
theorem HostMove.closing {h : HostPtr} {v : HostView} {g g' : GameHost} {eff : HostEffect}
    (hmove : HostMove h v g g' eff) (hc : g'.closing = true) :
    g.closing = true ∨ ∃ c, g.pc = .discEnd c ∧ g.clients = [] := by
  cases hmove with
  | @take m rest hpc hq =>
    left
    cases m <;> simp_all [GameHost.closing, HostMsg.start, HostPc.closing, HostMsg.isShutdown]
  | discPost hpc hempty => exact .inr ⟨_, hpc, hempty⟩
  | _ hpc =>
    left
    simp_all [GameHost.closing, HostPc.closing]

theorem HostMove.emptyAge {h : HostPtr} {v : HostView} {g g' : GameHost} {eff : HostEffect}
    (hmove : HostMove h v g g' eff) (he : g'.EmptyAge) : g.EmptyAge ∨ g.clients = [] := by
  cases hmove with
  | @take m rest hpc hq =>
    left
    cases m <;> simp_all [GameHost.EmptyAge, HostMsg.start, HostPc.emptyAge, or_comm]
  | discPost hpc hempty => exact .inr hempty
  | _ hpc =>
    left
    simp_all [GameHost.EmptyAge, HostPc.emptyAge]

/-- A host is deleted after it was taken out of `s_gameHosts`. -/
theorem HostMove.unlinks {h : HostPtr} {v : HostView} {g g' : GameHost} {eff : HostEffect}
    (hmove : HostMove h v g g' eff)
    (hgone : (∃ b, g'.pc = .shutDelete b) ∨ g'.pc = .deleted) :
    eff.unlink = true ∨ ∃ b, g.pc = .shutDelete b := by
  cases hmove with
  | @take m rest hpc hq => cases m <;> simp_all [HostMsg.start]
  | shutLock => exact .inl rfl
  | shutDelete hpc => exact .inr ⟨_, hpc⟩
  | _ => simp at hgone

/-- What a worker uses it has used before, or has looked up or allocated. -/
theorem WorkerMove.holds {c : ConnId} {v : WorkerView} {w w' : GameWorker} {eff : WorkerEffect}
    {h : HostPtr} (hmove : WorkerMove c v w w' eff) (hh : w'.Holds h) :
    (w.Holds h ∧ w.pc ≠ .waitDisc) ∨ (∃ mcpId, w.pc = .lookup mcpId ∧ v.find mcpId = some h) ∨
      (h = v.nextHost ∧ eff.alloc.isSome) := by
  cases hmove <;> simp_all [GameWorker.Holds, WorkerPc.starting, GameWorker.noHost]
  all_goals grind

theorem WorkerMove.holds_unpublished {c : ConnId} {v : WorkerView} {w w' : GameWorker}
    {eff : WorkerEffect} {h : HostPtr} (hmove : WorkerMove c v w w' eff)
    (hh : w'.pc.unpublished = some h) :
    (w.pc.unpublished = some h ∧ w'.mHost = w.mHost ∧ eff.publish = none) ∨
      (h = v.nextHost ∧ w'.mHost = w.mHost ∧ eff.publish = none ∧ w.pc.starting = none ∧
        w.pc ≠ .waitDisc ∧ w.pc ≠ .ended) := by
  cases hmove <;> simp_all [WorkerPc.unpublished, GameWorker.noHost, WorkerPc.starting]

/-- Only messages that somebody waits for are put by a worker, and only on the
host it uses. -/
theorem WorkerMove.put_holds {c : ConnId} {v : WorkerView} {w w' : GameWorker}
    {eff : WorkerEffect} {h : HostPtr} {m : HostMsg} (hmove : WorkerMove c v w w' eff)
    (hact : eff.act = some (h, .put m)) :
    m.isShutdown = false ∧ w.Holds h ∧ w.pc ≠ .waitDisc := by
  cases hmove <;> simp_all [GameWorker.Holds]
  all_goals
    obtain ⟨rfl, rfl⟩ := hact
    rfl

/-- A client is entered at the host that the worker uses. -/
theorem WorkerMove.insert_holds {c : ConnId} {v : WorkerView} {w w' : GameWorker}
    {eff : WorkerEffect} {h : HostPtr} {playerId : UInt32} {c' : ConnId}
    (hmove : WorkerMove c v w w' eff) (hact : eff.act = some (h, .insert playerId c')) :
    w.Holds h ∧ w.pc ≠ .waitDisc := by
  cases hmove <;> simp_all [GameWorker.Holds]

/-- A host that is freed was not published. -/
theorem WorkerMove.free_unpublished {c : ConnId} {v : WorkerView} {w w' : GameWorker}
    {eff : WorkerEffect} {h : HostPtr} (hmove : WorkerMove c v w w' eff)
    (hact : eff.act = some (h, .free)) : w.pc.unpublished = some h ∧ ∀ h', ¬ w'.Holds h' := by
  cases hmove <;> simp_all [WorkerPc.unpublished, GameWorker.Holds, GameWorker.noHost,
    WorkerPc.starting]

theorem WorkerMove.alloc_starting {c : ConnId} {v : WorkerView} {w w' : GameWorker}
    {eff : WorkerEffect} (hmove : WorkerMove c v w w' eff) (halloc : eff.alloc.isSome = true) :
    w'.pc.starting = some v.nextHost := by
  cases hmove <;> simp_all [WorkerPc.starting]

theorem WorkerMove.publish_act {c : ConnId} {v : WorkerView} {w w' : GameWorker}
    {eff : WorkerEffect} {e : UInt32 × HostPtr} (hmove : WorkerMove c v w w' eff)
    (hpub : eff.publish = some e) : eff.act = none := by
  cases hmove <;> simp_all

/-- Which worker starts an unstarted host. -/
theorem WorkerMove.keeps_starting {c : ConnId} {v : WorkerView} {w w' : GameWorker}
    {eff : WorkerEffect} {h : HostPtr} (hmove : WorkerMove c v w w' eff)
    (hs : w.pc.starting = some h) :
    w'.pc.starting = some h ∨ eff.act = some (h, .start) ∨ eff.act = some (h, .free) ∨
      (w.pc = .startLoad h ∧ w' = w.noHost) := by
  cases hmove <;> simp_all [WorkerPc.starting]

/-! ## Harmless hosts -/

theorem HostMsg.Harmless.isShutdown_eq {m : HostMsg} (h : m.Harmless) : m.isShutdown = false := by
  cases m with
  | shutdown _ => exact h.elim
  | _ => rfl

/-- A host that is harmless in `dm_game_shutdown` has unlinked itself. -/
theorem GameHost.Harmless.closing_eq {g : GameHost} (h : g.Harmless)
    (hdel : ∀ emptyAge, g.pc ≠ .shutDelete emptyAge) (hgone : g.pc ≠ .deleted) :
    g.pc.closing = false := by
  unfold GameHost.Harmless at h
  cases hpc : g.pc with
  | shutClose _ | shutWait _ | shutLock _ =>
    rw [hpc] at h
    exact h.elim
  | shutDelete emptyAge => exact absurd hpc (hdel emptyAge)
  | deleted => exact absurd hpc hgone
  | _ => rfl

/-! ## The invariant -/

structure LifeInv (s : State) : Prop where
  answers : AnswerInv s
  wait : WaitInv s
  starter : ∀ h g, s.hosts h = some g → g.pc = .unstarted →
    ∃ c w, s.workers c = some w ∧ w.pc.starting = some h
  /-- A host that is not published is known to its starter only. -/
  own : ∀ c w h, s.workers c = some w → w.pc.unpublished = some h →
    (∀ e ∈ s.gameHosts, e.2 ≠ h) ∧ (∀ c' w', s.workers c' = some w' → w'.Holds h → c' = c) ∧
      s.daemon ≠ .waitHost h ∧ w.mHost ≠ some h
  held : ∀ c w h, s.workers c = some w → w.Holds h → w.pc ≠ .waitDisc →
    ∃ g, s.hosts h = some g ∧ g.closing = false
  linked : ∀ e ∈ s.gameHosts, ∃ g, s.hosts e.2 = some g ∧ (∀ b, g.pc ≠ .shutDelete b) ∧
    g.pc ≠ .deleted
  empty : ∀ h g, s.hosts h = some g → g.EmptyAge → g.clients = []
  free : ∀ h g, s.hosts h = some g → g.mutexFree = true
  owed : ∀ x h, s.awaits x = some h → ∃ g, s.hosts h = some g ∧ 1 ≤ g.owes x + s.answers x

namespace LifeInv

variable {s s' : State}

theorem initial : LifeInv State.initial where
  answers := .initial
  wait := .initial
  starter _ _ hg := nomatch hg
  own _ _ _ hw := nomatch hw
  held _ _ _ hw := nomatch hw
  linked _ he := absurd he List.not_mem_nil
  empty _ _ hg := nomatch hg
  free _ _ hg := nomatch hg
  owed x h ha := by cases x <;> cases ha

theorem GameHost.not_emptyAge {g : GameHost} (hc : g.closing = false) : ¬ g.EmptyAge := by
  simp only [GameHost.closing, Bool.or_eq_false_iff] at hc
  rintro (hmem | hpc)
  · have hany : g.queue.any HostMsg.isShutdown = true :=
      List.any_eq_true.2 ⟨_, hmem, rfl⟩
    rw [hc.2] at hany
    cases hany
  · cases hg : g.pc <;> simp_all [HostPc.emptyAge, HostPc.closing]

/-! ### A host moves -/

theorem onWorker_holds {eff : HostEffect} {c : ConnId} {w : GameWorker} {h : HostPtr}
    (hh : (eff.onWorker c w).Holds h) : w.Holds h := by
  rcases hh with ⟨hm, hend, hdisc⟩ | hfound | hstart
  · refine .inl ⟨hm, hend, fun hw => hdisc ⟨hw.1, fun happ => hw.2 ?_⟩⟩
    exact (List.append_eq_nil_iff.1 happ).1
  · exact .inr (.inl hfound)
  · exact .inr (.inr hstart)

theorem applyHost_answers_eq {k : HostPtr} {g : GameHost} {eff : HostEffect} {x : Waiter}
    {h : HostPtr} (ha : s.awaits x = some h) :
    (s.applyHost k g eff).answers x = s.answers x + eff.repliesTo x := by
  cases x with
  | authDaemon =>
    simp only [State.answers, State.applyHost, List.length_append, HostEffect.toDaemon_length]
  | worker c =>
    obtain ⟨w, hw, hwait, -⟩ := AnswerInv.told_of_awaits ha
    have hw' : (s.applyHost k g eff).workers c = some (eff.onWorker c w) := by
      simp [State.applyHost, hw]
    have hwait' : (eff.onWorker c w).pc.hostWait = true := hwait
    simp only [State.answers, hw, hw', hwait, hwait', if_true]
    rw [← HostEffect.toWorker_length, ← List.length_append]
    rfl

section Host

variable {k j : HostPtr} {g g' g₁ : GameHost} {eff : HostEffect}

theorem applyHost_self : (s.applyHost k g' eff).hosts k = some g' := Function.update_self ..

theorem applyHost_other (hj : j ≠ k) : (s.applyHost k g' eff).hosts j = s.hosts j :=
  Function.update_of_ne hj ..

theorem applyHost_workers {c : ConnId} {w' : GameWorker}
    (hw' : (s.applyHost k g' eff).workers c = some w') :
    ∃ w, s.workers c = some w ∧ w' = eff.onWorker c w := by
  obtain ⟨w, hw, rfl⟩ := Option.map_eq_some_iff.1 hw'
  exact ⟨w, hw, rfl⟩

theorem applyHost_gameHosts {e : UInt32 × HostPtr} (he : e ∈ (s.applyHost k g' eff).gameHosts) :
    e ∈ s.gameHosts ∧ (eff.unlink = true → e.2 ≠ k) := by
  simp only [State.applyHost] at he
  split at he
  · obtain ⟨he, hne⟩ := List.mem_filter.1 he
    exact ⟨he, fun _ => by simpa using hne⟩
  · rename_i hun
    exact ⟨he, fun hu => absurd hu hun⟩

theorem host_starter (h : LifeInv s) (hmove : HostMove k s.hostView g g' eff)
    (hg₁ : (s.applyHost k g' eff).hosts j = some g₁) (hun : g₁.pc = .unstarted) :
    ∃ c w, (s.applyHost k g' eff).workers c = some w ∧ w.pc.starting = some j := by
  rcases Lib.update_eq_some hg₁ with ⟨rfl, rfl⟩ | ⟨-, hg₁⟩
  · exact absurd hun hmove.not_unstarted
  · obtain ⟨c, w, hw, hs⟩ := h.starter j g₁ hg₁ hun
    exact ⟨c, eff.onWorker c w, by simp [State.applyHost, hw], hs⟩

theorem host_own (h : LifeInv s) {c : ConnId} {w' : GameWorker}
    (hw' : (s.applyHost k g' eff).workers c = some w') (hj : w'.pc.unpublished = some j) :
    (∀ e ∈ (s.applyHost k g' eff).gameHosts, e.2 ≠ j) ∧
      (∀ c₁ w₁, (s.applyHost k g' eff).workers c₁ = some w₁ → w₁.Holds j → c₁ = c) ∧
      s.daemon ≠ .waitHost j ∧ w'.mHost ≠ some j := by
  obtain ⟨w, hw, rfl⟩ := applyHost_workers hw'
  obtain ⟨hnot, hall, hd, hm⟩ := h.own c w j hw hj
  refine ⟨fun e he => hnot e (applyHost_gameHosts he).1, fun c₁ w₁ hw₁ hh₁ => ?_, hd, hm⟩
  obtain ⟨v₁, hv₁, rfl⟩ := applyHost_workers hw₁
  exact hall c₁ v₁ hv₁ (onWorker_holds hh₁)

/-- A host that posts its own shutdown is used by nobody. -/
theorem host_held (h : LifeInv s) (hg : s.hosts k = some g)
    (hmove : HostMove k s.hostView g g' eff)
    (hpost : ∀ c, g.pc = .discEnd c → g.clients = [] → s.Deserted k) {c : ConnId}
    {w' : GameWorker} (hw' : (s.applyHost k g' eff).workers c = some w') (hh : w'.Holds j)
    (hne : w'.pc ≠ .waitDisc) :
    ∃ g, (s.applyHost k g' eff).hosts j = some g ∧ g.closing = false := by
  obtain ⟨w, hw, rfl⟩ := applyHost_workers hw'
  obtain ⟨g₁, hg₁, hclosing⟩ := h.held c w j hw (onWorker_holds hh) hne
  by_cases hj : j = k
  · subst hj
    rw [hg] at hg₁
    cases hg₁
    refine ⟨g', applyHost_self, ?_⟩
    by_contra hc
    rcases hmove.closing (by simpa using hc) with hold | ⟨c', hpc, hnone⟩
    · rw [hclosing] at hold
      cases hold
    · exact hne (hpost c' hpc hnone c w hw (onWorker_holds hh))
  · exact ⟨g₁, (applyHost_other hj).trans hg₁, hclosing⟩

theorem host_linked (h : LifeInv s) (hg : s.hosts k = some g)
    (hmove : HostMove k s.hostView g g' eff) {e : UInt32 × HostPtr}
    (he : e ∈ (s.applyHost k g' eff).gameHosts) :
    ∃ g, (s.applyHost k g' eff).hosts e.2 = some g ∧ (∀ b, g.pc ≠ .shutDelete b) ∧
      g.pc ≠ .deleted := by
  obtain ⟨hmem, hunlink⟩ := applyHost_gameHosts he
  obtain ⟨g₁, hg₁, hdel, hgone⟩ := h.linked e hmem
  by_cases hj : e.2 = k
  · rw [hj, hg] at hg₁
    cases hg₁
    refine ⟨g', by rw [hj]; exact applyHost_self, ?_⟩
    by_contra hc
    have hgone' : (∃ b, g'.pc = .shutDelete b) ∨ g'.pc = .deleted := by
      by_contra hnot
      exact hc ⟨fun b hb => hnot (.inl ⟨b, hb⟩), fun hd => hnot (.inr hd)⟩
    rcases hmove.unlinks hgone' with hu | ⟨b, hb⟩
    · exact hunlink hu hj
    · exact hdel b hb
  · exact ⟨g₁, (applyHost_other hj).trans hg₁, hdel, hgone⟩

theorem host_empty (h : LifeInv s) (hg : s.hosts k = some g)
    (hmove : HostMove k s.hostView g g' eff) (hg₁ : (s.applyHost k g' eff).hosts j = some g₁)
    (hempty : g₁.EmptyAge) : g₁.clients = [] := by
  rcases Lib.update_eq_some hg₁ with ⟨rfl, rfl⟩ | ⟨-, hg₁⟩
  · rw [hmove.clients]
    rcases hmove.emptyAge hempty with hold | hnone
    · exact h.empty j g hg hold
    · exact hnone
  · exact h.empty j g₁ hg₁ hempty

theorem host_free (h : LifeInv s) (hg : s.hosts k = some g)
    (hmove : HostMove k s.hostView g g' eff)
    (hmembers : ∀ c ops, g.pc = .msg c (.members :: ops) → g.clients ≠ [])
    (hg₁ : (s.applyHost k g' eff).hosts j = some g₁) : g₁.mutexFree = true := by
  rcases Lib.update_eq_some hg₁ with ⟨rfl, rfl⟩ | ⟨-, hg₁⟩
  · exact hmove.mutexFree hmembers (h.free j g hg)
  · exact h.free j g₁ hg₁

theorem host_owed (h : LifeInv s) (hg : s.hosts k = some g)
    (hmove : HostMove k s.hostView g g' eff) {x : Waiter}
    (ha : (s.applyHost k g' eff).awaits x = some j) :
    ∃ g, (s.applyHost k g' eff).hosts j = some g ∧
      1 ≤ g.owes x + (s.applyHost k g' eff).answers x := by
  rw [AnswerInv.applyHost_awaits] at ha
  obtain ⟨g₁, hg₁, howed⟩ := h.owed x j ha
  rw [applyHost_answers_eq ha]
  by_cases hj : j = k
  · subst hj
    rw [hg] at hg₁
    cases hg₁
    have howes := hmove.owes x
    exact ⟨g', applyHost_self, by omega⟩
  · exact ⟨g₁, (applyHost_other hj).trans hg₁, by omega⟩

theorem host {ch : Choice} (h : LifeInv s) (hok : StepOk s (.host k ch)) (hg : s.hosts k = some g)
    (hmove : HostMove k s.hostView g g' eff) : LifeInv (s.applyHost k g' eff) where
  answers := h.answers.host hg hmove
  wait := h.wait.host hg hmove
  starter _ _ hg₁ hun := host_starter h hmove hg₁ hun
  own _ _ _ hw' hj := host_own h hw' hj
  held _ _ _ hw' hh hne := host_held h hg hmove (hok g hg).1 hw' hh hne
  linked _ he := host_linked h hg hmove he
  empty _ _ hg₁ hempty := host_empty h hg hmove hg₁ hempty
  free _ _ hg₁ := host_free h hg hmove (hok g hg).2 hg₁
  owed _ _ ha := host_owed h hg hmove ha

end Host

/-! ### A worker moves -/

section Worker

variable {c : ConnId} {w w' : GameWorker} {eff : WorkerEffect} {k : HostPtr} {g : GameHost}

theorem onHost_cases (h : LifeInv s) (hw : s.workers c = some w)
    (hmove : WorkerMove c s.workerView w w' eff) (hg : s.hosts k = some g) :
    eff.onHost k g = g ∨ ∃ act, eff.act = some (k, act) ∧ eff.onHost k g = act.run g ∧
      ((act ≠ .start ∧ act ≠ .free) ∨ g.pc = .unstarted) := by
  cases hact : eff.act with
  | none => exact .inl (by simp [WorkerEffect.onHost, hact])
  | some p =>
    obtain ⟨k', act⟩ := p
    by_cases hk : k' = k
    · subst hk
      refine .inr ⟨act, rfl, by simp [WorkerEffect.onHost, hact], ?_⟩
      rcases hmove.act_starting hact with hok | hstart
      · exact .inl hok
      · obtain ⟨g₁, hg₁, hun⟩ := h.answers.start.starting c w k' hw hstart
        rw [hg] at hg₁
        cases hg₁
        exact .inr hun
    · exact .inl (by simp [WorkerEffect.onHost, hact, hk])

theorem onHost_mutexFree : (eff.onHost k g).mutexFree = g.mutexFree := by
  unfold WorkerEffect.onHost
  split
  · rename_i act _
    split
    · cases act <;> rfl
    · rfl
  · rfl

theorem onHost_closing (h : LifeInv s) (hw : s.workers c = some w)
    (hmove : WorkerMove c s.workerView w w' eff) (hg : s.hosts k = some g)
    (hfree : eff.act ≠ some (k, .free)) : (eff.onHost k g).closing = g.closing := by
  rcases onHost_cases h hw hmove hg with heq | ⟨act, hact, heq, hun⟩
  · rw [heq]
  · rw [heq]
    cases act with
    | put m =>
      have hm := (hmove.put_holds hact).1
      simp [GameHost.closing, HostAct.run, List.any_append, hm]
    | insert playerId c' => rfl
    | erase playerId => rfl
    | start =>
      have hpc := hun.resolve_left (by simp)
      simp [GameHost.closing, HostAct.run, hpc, HostPc.closing]
    | free => exact absurd hact hfree

theorem onHost_emptyAge (h : LifeInv s) (hw : s.workers c = some w)
    (hmove : WorkerMove c s.workerView w w' eff) (hg : s.hosts k = some g)
    (he : (eff.onHost k g).EmptyAge) : g.EmptyAge := by
  rcases onHost_cases h hw hmove hg with heq | ⟨act, hact, heq, hun⟩
  · rwa [heq] at he
  · rw [heq] at he
    cases act with
    | put m =>
      have hm := (hmove.put_holds hact).1
      rcases he with hmem | hpc
      · rcases List.mem_append.1 hmem with hmem | hmem
        · exact .inl hmem
        · rw [← List.mem_singleton.1 hmem] at hm
          cases hm
      · exact .inr hpc
    | insert playerId c' => exact he
    | erase playerId => exact he
    | start =>
      rcases he with hmem | hpc
      · exact .inl hmem
      · cases hpc
    | free =>
      rcases he with hmem | hpc
      · exact .inl hmem
      · cases hpc

theorem onHost_clients (h : LifeInv s) (hw : s.workers c = some w)
    (hmove : WorkerMove c s.workerView w w' eff) (hg : s.hosts k = some g)
    (hopen : w.Holds k → w.pc ≠ .waitDisc → g.clients ≠ []) (hnone : g.clients = []) :
    (eff.onHost k g).clients = [] := by
  rcases onHost_cases h hw hmove hg with heq | ⟨act, hact, heq, -⟩
  · rwa [heq]
  · rw [heq]
    cases act with
    | insert playerId c' =>
      obtain ⟨hholds, hdisc⟩ := hmove.insert_holds hact
      exact absurd hnone (hopen hholds hdisc)
    | erase playerId => simp [HostAct.run, hnone]
    | put m => exact hnone
    | start => exact hnone
    | free => exact hnone

theorem onHost_owes_ge (h : LifeInv s) (hw : s.workers c = some w)
    (hmove : WorkerMove c s.workerView w w' eff) (hg : s.hosts k = some g)
    (hfree : eff.act ≠ some (k, .free)) (x : Waiter) : g.owes x ≤ (eff.onHost k g).owes x := by
  rcases onHost_cases h hw hmove hg with heq | ⟨act, hact, heq, hun⟩
  · exact Nat.le_of_eq (by rw [heq])
  · rw [heq]
    cases act with
    | put m =>
      rw [GameHost.owes_put]
      omega
    | insert playerId c' => exact Nat.le_refl _
    | erase playerId => exact Nat.le_refl _
    | start =>
      have hpc := hun.resolve_left (by simp)
      simp [GameHost.owes, GameHost.served, HostAct.run, hpc, HostPc.closing, HostPc.serves]
    | free => exact absurd hact hfree

end Worker

theorem holds_exists (h : LifeInv s) {c : ConnId} {w : GameWorker} {k : HostPtr}
    (hw : s.workers c = some w) (hh : w.Holds k) :
    ∃ g, s.hosts k = some g ∧ g.pc ≠ .deleted := by
  by_cases hdisc : w.pc = .waitDisc
  · -- Its disconnect is not answered yet, so the host still has it.
    rcases hh with ⟨hm, -, hchan⟩ | hfound | hstart
    · have hempty : w.chan = [] := by
        by_contra hne
        exact hchan ⟨hdisc, hne⟩
      have ha : s.awaits (.worker c) = some k := by
        simp [State.awaits, hw, hdisc, WorkerPc.hostWait, hm]
      obtain ⟨g, hg, howed⟩ := h.owed _ k ha
      refine ⟨g, hg, fun hdel => ?_⟩
      have hzero : g.owes (.worker c) = 0 := by
        simp [GameHost.owes, GameHost.served, hdel, HostPc.closing, HostPc.serves]
      simp [State.answers, hw, hdisc, WorkerPc.hostWait, hempty, hzero] at howed
    · rw [hdisc] at hfound
      cases hfound
    · rw [hdisc] at hstart
      cases hstart
  · obtain ⟨g, hg, hclosing⟩ := h.held c w k hw hh hdisc
    refine ⟨g, hg, fun hdel => ?_⟩
    simp [GameHost.closing, hdel, HostPc.closing] at hclosing

section Worker

variable {c : ConnId} {w w' : GameWorker} {eff : WorkerEffect} {k : HostPtr} {g : GameHost}

theorem applyWorker_kept (h : LifeInv s) (hg : s.hosts k = some g) :
    (s.applyWorker c w' eff).hosts k = some (eff.onHost k g) := by
  show (s.allocated eff.alloc k).map _ = _
  rw [State.allocated_of_some h.answers.start hg]
  rfl

theorem applyWorker_self : (s.applyWorker c w' eff).workers c = some w' :=
  Function.update_self ..

theorem applyWorker_other {c₁ : ConnId} (hc : c₁ ≠ c) :
    (s.applyWorker c w' eff).workers c₁ = s.workers c₁ := Function.update_of_ne hc ..

theorem nextHost_none (h : LifeInv s) : s.hosts s.nextHost = none :=
  h.answers.start.fresh _ (Nat.le_refl _)

theorem nextHost_unheld (h : LifeInv s) {c₁ : ConnId} {w₁ : GameWorker}
    (hw₁ : s.workers c₁ = some w₁) : ¬ w₁.Holds s.nextHost := by
  intro hh
  obtain ⟨g, hg, -⟩ := h.holds_exists hw₁ hh
  rw [h.nextHost_none] at hg
  cases hg

/-- Nobody uses a host that was freed. -/
theorem freed_unheld (h : LifeInv s) (hw : s.workers c = some w)
    (hmove : WorkerMove c s.workerView w w' eff) (hact : eff.act = some (k, .free)) {c₁ : ConnId}
    {w₁ : GameWorker} (hw₁ : (s.applyWorker c w' eff).workers c₁ = some w₁) : ¬ w₁.Holds k := by
  intro hh
  obtain ⟨hun, hnone⟩ := hmove.free_unpublished hact
  rcases Lib.update_eq_some hw₁ with ⟨rfl, rfl⟩ | ⟨hc, hw₁⟩
  · exact hnone k hh
  · exact hc ((h.own c w k hw hun).2.1 c₁ w₁ hw₁ hh)

theorem onHost_kept (h : LifeInv s) (hw : s.workers c = some w)
    (hmove : WorkerMove c s.workerView w w' eff) (hg : s.hosts k = some g)
    (hfree : eff.act ≠ some (k, .free))
    (hpc : (∀ b, g.pc ≠ .shutDelete b) ∧ g.pc ≠ .deleted) :
    (∀ b, (eff.onHost k g).pc ≠ .shutDelete b) ∧ (eff.onHost k g).pc ≠ .deleted := by
  rcases onHost_cases h hw hmove hg with heq | ⟨act, hact, heq, -⟩
  · rwa [heq]
  · rw [heq]
    cases act with
    | start => simp [HostAct.run]
    | free => exact absurd hact hfree
    | put m => exact hpc
    | insert playerId c' => exact hpc
    | erase playerId => exact hpc

theorem onHost_unstarted (h : LifeInv s) (hw : s.workers c = some w)
    (hmove : WorkerMove c s.workerView w w' eff) (hg : s.hosts k = some g)
    (hun : (eff.onHost k g).pc = .unstarted) : g.pc = .unstarted := by
  rcases onHost_cases h hw hmove hg with heq | ⟨act, hact, heq, -⟩
  · rwa [heq] at hun
  · rw [heq] at hun
    cases act <;> first | exact hun | cases hun

theorem worker_starter (h : LifeInv s) (hw : s.workers c = some w)
    (hmove : WorkerMove c s.workerView w w' eff)
    (hload : ∀ k, w.pc = .startLoad k → w' ≠ w.noHost)
    {g' : GameHost} (hg' : (s.applyWorker c w' eff).hosts k = some g') (hun : g'.pc = .unstarted) :
    ∃ c₁ w₁, (s.applyWorker c w' eff).workers c₁ = some w₁ ∧ w₁.pc.starting = some k := by
  rcases State.applyWorker_hosts hmove hg' with ⟨rfl, halloc, -⟩ | ⟨g, hg, rfl⟩
  · exact ⟨c, w', applyWorker_self, hmove.alloc_starting halloc⟩
  · obtain ⟨c₁, w₁, hw₁, hs₁⟩ := h.starter k g hg (onHost_unstarted h hw hmove hg hun)
    by_cases hc : c₁ = c
    · subst hc
      rw [hw] at hw₁
      cases hw₁
      rcases hmove.keeps_starting hs₁ with hs' | hact | hact | ⟨hpc, hno⟩
      · exact ⟨c₁, w', applyWorker_self, hs'⟩
      · simp [WorkerEffect.onHost, hact, HostAct.run] at hun
      · simp [WorkerEffect.onHost, hact, HostAct.run] at hun
      · exact absurd hno (hload k hpc)
    · exact ⟨c₁, w₁, (applyWorker_other hc).trans hw₁, hs₁⟩

/-- The host that a worker has and publishes later: it had it before, or has made it. -/
theorem worker_own_self (h : LifeInv s) (hw : s.workers c = some w)
    (hmove : WorkerMove c s.workerView w w' eff) (hk : w'.pc.unpublished = some k) :
    (∀ e ∈ (s.applyWorker c w' eff).gameHosts, e.2 ≠ k) ∧
      (∀ c₂ w₂, (s.applyWorker c w' eff).workers c₂ = some w₂ → w₂.Holds k → c₂ = c) ∧
      s.daemon ≠ .waitHost k ∧ w'.mHost ≠ some k := by
  rcases hmove.holds_unpublished hk with ⟨hold, hm, hpub⟩ | ⟨rfl, hm, hpub, -, hdisc, hend⟩
  · obtain ⟨hnot, hall, hd, hmHost⟩ := h.own c w k hw hold
    refine ⟨fun e he => hnot e ?_, fun c₂ w₂ hw₂ hh₂ => ?_, hd, hm ▸ hmHost⟩
    · simpa only [State.applyWorker, hpub] using he
    · by_contra hne
      exact hne (hall c₂ w₂ ((applyWorker_other hne).symm.trans hw₂) hh₂)
  · refine ⟨fun e he heq => ?_, fun c₂ w₂ hw₂ hh₂ => ?_, fun hd => ?_, fun hmHost => ?_⟩
    · simp only [State.applyWorker, hpub] at he
      obtain ⟨g, hg, -⟩ := h.linked e he
      rw [show e.2 = s.nextHost from heq, h.nextHost_none] at hg
      cases hg
    · by_contra hne
      exact h.nextHost_unheld ((applyWorker_other hne).symm.trans hw₂) hh₂
    · obtain ⟨g, hg, -⟩ := h.wait.awaited s.nextHost hd
      rw [h.nextHost_none] at hg
      cases hg
    · rw [hm] at hmHost
      exact h.nextHost_unheld hw (.inl ⟨hmHost, hend, fun hw' => hdisc hw'.1⟩)

/-- The host that another worker has and publishes later. -/
theorem worker_own_other (h : LifeInv s) (hw : s.workers c = some w)
    (hmove : WorkerMove c s.workerView w w' eff) {c₁ : ConnId} {w₁ : GameWorker} (hc : c ≠ c₁)
    (hw₁ : s.workers c₁ = some w₁) (hk : w₁.pc.unpublished = some k) :
    (∀ e ∈ (s.applyWorker c w' eff).gameHosts, e.2 ≠ k) ∧
      (∀ c₂ w₂, (s.applyWorker c w' eff).workers c₂ = some w₂ → w₂.Holds k → c₂ = c₁) ∧
      s.daemon ≠ .waitHost k ∧ w₁.mHost ≠ some k := by
  obtain ⟨hnot, hall, hd, hmHost⟩ := h.own c₁ w₁ k hw₁ hk
  have hstarting := WorkerPc.starting_of_unpublished hk
  refine ⟨fun e he heq => ?_, fun c₂ w₂ hw₂ hh₂ => ?_, hd, hmHost⟩
  · cases hpub : eff.publish with
    | none =>
      simp only [State.applyWorker, hpub] at he
      exact hnot e he heq
    | some e' =>
      simp only [State.applyWorker, hpub, List.mem_cons, List.mem_filter] at he
      rcases he with rfl | ⟨he, -⟩
      · have hs := hmove.publish_starting hpub
        rw [heq] at hs
        exact hc (h.answers.start.unique c₁ c w₁ w k hw₁ hw hstarting hs).symm
      · exact hnot e he heq
  · rcases Lib.update_eq_some hw₂ with ⟨rfl, rfl⟩ | ⟨-, hw₂⟩
    · rcases hmove.holds hh₂ with ⟨hold, -⟩ | ⟨mcpId, -, hfind⟩ | ⟨rfl, -⟩
      · exact hall c₂ w hw hold
      · exact absurd rfl (hnot _ (State.mem_of_find hfind))
      · obtain ⟨g, hg, -⟩ := h.answers.start.starting c₁ w₁ _ hw₁ hstarting
        rw [show s.workerView.nextHost = s.nextHost from rfl, h.nextHost_none] at hg
        cases hg
    · exact hall c₂ w₂ hw₂ hh₂

theorem worker_held (h : LifeInv s) (hw : s.workers c = some w)
    (hmove : WorkerMove c s.workerView w w' eff)
    (hlookup : ∀ mcpId k g, w.pc = .lookup mcpId → s.find mcpId = some k → s.hosts k = some g →
      g.closing = false)
    {c₁ : ConnId} {w₁ : GameWorker} (hw₁ : (s.applyWorker c w' eff).workers c₁ = some w₁)
    (hh : w₁.Holds k) (hne : w₁.pc ≠ .waitDisc) :
    ∃ g, (s.applyWorker c w' eff).hosts k = some g ∧ g.closing = false := by
  have hkeep : ∀ g, s.hosts k = some g → g.closing = false →
      ∃ g', (s.applyWorker c w' eff).hosts k = some g' ∧ g'.closing = false := by
    intro g hg hclosing
    refine ⟨_, h.applyWorker_kept hg, ?_⟩
    rw [onHost_closing h hw hmove hg fun hact => freed_unheld h hw hmove hact hw₁ hh]
    exact hclosing
  rcases Lib.update_eq_some hw₁ with ⟨rfl, rfl⟩ | ⟨hc, hv₁⟩
  · rcases hmove.holds hh with ⟨hold, hdisc⟩ | ⟨mcpId, hpc, hfind⟩ | ⟨rfl, halloc⟩
    · obtain ⟨g, hg, hclosing⟩ := h.held c₁ w k hw hold hdisc
      exact hkeep g hg hclosing
    · obtain ⟨g, hg, -⟩ := h.linked _ (State.mem_of_find hfind)
      exact hkeep g hg (hlookup mcpId k g hpc hfind hg)
    · obtain ⟨a, ha⟩ := Option.isSome_iff_exists.1 halloc
      have hg' : (s.applyWorker c₁ w₁ eff).hosts s.nextHost = some (eff.onHost s.nextHost a) := by
        simp [State.applyWorker, State.allocated, ha]
      refine ⟨_, hg', ?_⟩
      rcases State.applyWorker_hosts hmove hg' with ⟨-, -, -, hq, hpc, -⟩ | ⟨g, hg, -⟩
      · simp [GameHost.closing, hq, hpc, HostPc.closing]
      · rw [h.nextHost_none] at hg
        cases hg
  · obtain ⟨g, hg, hclosing⟩ := h.held c₁ w₁ k hv₁ hh hne
    exact hkeep g hg hclosing

theorem worker_linked (h : LifeInv s) (hw : s.workers c = some w)
    (hmove : WorkerMove c s.workerView w w' eff) :
    ∀ e ∈ (s.applyWorker c w' eff).gameHosts, ∃ g,
      (s.applyWorker c w' eff).hosts e.2 = some g ∧ (∀ b, g.pc ≠ .shutDelete b) ∧
        g.pc ≠ .deleted := by
  intro e he
  have hold : ∀ e ∈ s.gameHosts, ∃ g, (s.applyWorker c w' eff).hosts e.2 = some g ∧
      (∀ b, g.pc ≠ .shutDelete b) ∧ g.pc ≠ .deleted := by
    intro e he
    obtain ⟨g, hg, hpc⟩ := h.linked e he
    refine ⟨_, h.applyWorker_kept hg, onHost_kept h hw hmove hg (fun hact => ?_) hpc⟩
    exact (h.own c w e.2 hw (hmove.free_unpublished hact).1).1 e he rfl
  cases hpub : eff.publish with
  | none =>
    simp only [State.applyWorker, hpub] at he
    exact hold e he
  | some e' =>
    simp only [State.applyWorker, hpub, List.mem_cons, List.mem_filter] at he
    rcases he with rfl | ⟨he, -⟩
    · obtain ⟨g, hg, hun⟩ :=
        h.answers.start.starting c w e.2 hw (hmove.publish_starting hpub)
      refine ⟨_, h.applyWorker_kept hg, onHost_kept h hw hmove hg ?_ (by simp [hun])⟩
      rw [hmove.publish_act hpub]
      simp
    · exact hold e he

theorem worker_empty (h : LifeInv s) (hw : s.workers c = some w)
    (hmove : WorkerMove c s.workerView w w' eff)
    {g' : GameHost} (hg' : (s.applyWorker c w' eff).hosts k = some g') (hempty : g'.EmptyAge) :
    g'.clients = [] := by
  rcases State.applyWorker_hosts hmove hg' with ⟨-, -, -, hq, hpc, -⟩ | ⟨g, hg, rfl⟩
  · simp [GameHost.EmptyAge, hq, hpc, HostPc.emptyAge] at hempty
  · have hold := onHost_emptyAge h hw hmove hg hempty
    refine onHost_clients h hw hmove hg (fun hh hdisc => ?_) (h.empty k g hg hold)
    obtain ⟨g₁, hg₁, hclosing⟩ := h.held c w k hw hh hdisc
    rw [hg] at hg₁
    cases hg₁
    exact absurd hold (GameHost.not_emptyAge hclosing)

theorem worker_free (h : LifeInv s) (hmove : WorkerMove c s.workerView w w' eff) {g' : GameHost}
    (hg' : (s.applyWorker c w' eff).hosts k = some g') : g'.mutexFree = true := by
  rcases State.applyWorker_hosts hmove hg' with ⟨-, -, -, -, -, -, hfree⟩ | ⟨g, hg, rfl⟩
  · exact hfree
  · rw [onHost_mutexFree]
    exact h.free k g hg

/-- The worker has put a message into the queue of the host, and waits. -/
theorem worker_owed_self (h : LifeInv s) (hw : s.workers c = some w)
    (hmove : WorkerMove c s.workerView w w' eff)
    (ha : (s.applyWorker c w' eff).awaits (.worker c) = some k) :
    ∃ g, (s.applyWorker c w' eff).hosts k = some g ∧
      1 ≤ g.owes (.worker c) + (s.applyWorker c w' eff).answers (.worker c) := by
  rw [AnswerInv.applyWorker_awaits_self] at ha
  cases hmove.waits with
  | @puts k₁ m _ hw' hh _ hact hm =>
    rw [if_pos hw', hh] at ha
    cases ha
    obtain ⟨hshut, hholds, hdisc⟩ := hmove.put_holds hact
    obtain ⟨g, hg, hclosing⟩ := h.held c w k hw hholds hdisc
    refine ⟨_, h.applyWorker_kept hg, ?_⟩
    have hon : eff.onHost k g = (HostAct.put m).run g := by simp [WorkerEffect.onHost, hact]
    simp only [GameHost.closing, Bool.or_eq_false_iff] at hclosing
    rw [hon, GameHost.owes_put, hshut, hclosing.1, hclosing.2, if_neg (by simp), if_pos hm]
    omega
  | takes _ hw' => rw [hw'] at ha; cases ha
  | other _ hw' => rw [hw'] at ha; cases ha

/-- Who waits for a host that is freed, and has no reply, would still use it. -/
theorem freed_answered (h : LifeInv s) (hw : s.workers c = some w)
    (hun : w.pc.unpublished = some k) {x : Waiter} (hx : x ≠ .worker c)
    (ha : s.awaits x = some k) : 1 ≤ s.answers x := by
  cases x with
  | authDaemon =>
    simp only [State.awaits] at ha
    split at ha
    · rename_i hd
      cases ha
      exact absurd hd (h.own c w k hw hun).2.2.1
    · cases ha
  | worker c₁ =>
    obtain ⟨w₁, hw₁, hwait, hm⟩ := AnswerInv.told_of_awaits ha
    by_cases hchan : w₁.chan = []
    · have hc : c₁ = c := (h.own c w k hw hun).2.1 c₁ w₁ hw₁
        (.inl ⟨hm, fun hend => by simp [hend, WorkerPc.hostWait] at hwait,
          fun hw' => hw'.2 hchan⟩)
      exact absurd (congrArg Waiter.worker hc) hx
    · simp only [State.answers, hw₁, hwait, if_true]
      exact List.length_pos_iff.2 hchan

theorem worker_owed (h : LifeInv s) (hw : s.workers c = some w)
    (hmove : WorkerMove c s.workerView w w' eff) {x : Waiter}
    (ha : (s.applyWorker c w' eff).awaits x = some k) :
    ∃ g, (s.applyWorker c w' eff).hosts k = some g ∧
      1 ≤ g.owes x + (s.applyWorker c w' eff).answers x := by
  by_cases hx : x = .worker c
  · subst hx
    exact worker_owed_self h hw hmove ha
  · rw [AnswerInv.applyWorker_awaits_other hx] at ha
    rw [AnswerInv.applyWorker_answers_other hx]
    obtain ⟨g, hg, howed⟩ := h.owed x k ha
    refine ⟨_, h.applyWorker_kept hg, ?_⟩
    by_cases hfree : eff.act = some (k, .free)
    · have hpos := freed_answered h hw (hmove.free_unpublished hfree).1 hx ha
      omega
    · have hge := onHost_owes_ge h hw hmove hg hfree x
      omega

theorem worker (h : LifeInv s) (hw : s.workers c = some w)
    (hmove : WorkerMove c s.workerView w w' eff)
    (hlookup : ∀ mcpId k g, w.pc = .lookup mcpId → s.find mcpId = some k → s.hosts k = some g →
      g.closing = false)
    (hload : ∀ k, w.pc = .startLoad k → w' ≠ w.noHost) : LifeInv (s.applyWorker c w' eff) where
  answers := h.answers.worker hw hmove
  wait := h.wait.worker hw hmove
  starter _ _ hg hun := worker_starter h hw hmove hload hg hun
  own c₁ w₁ k hw₁ hk := by
    rcases Lib.update_eq_some hw₁ with ⟨rfl, rfl⟩ | ⟨hc, hw₁⟩
    · exact worker_own_self h hw hmove hk
    · exact worker_own_other h hw hmove (Ne.symm hc) hw₁ hk
  held _ _ _ hw₁ hh hne := worker_held h hw hmove hlookup hw₁ hh hne
  linked := worker_linked h hw hmove
  empty _ _ hg hempty := worker_empty h hw hmove hg hempty
  free _ _ hg := worker_free h hmove hg
  owed _ _ ha := worker_owed h hw hmove ha

end Worker

/-! ### The daemon moves, and the rest -/

/-- A step that moves no host's thread, and no worker but for what it has on its
channel. -/
theorem mapHosts (h : LifeInv s) (hanswers : AnswerInv s') (hwait : WaitInv s')
    {f : HostPtr → GameHost → GameHost} (hhosts : ∀ k, s'.hosts k = (s.hosts k).map (f k))
    (hpc : ∀ k g, (f k g).pc = g.pc) (hclients : ∀ k g, (f k g).clients = g.clients)
    (hfree : ∀ k g, (f k g).mutexFree = g.mutexFree)
    (hempty : ∀ k g, (f k g).EmptyAge → g.EmptyAge)
    (hclosing : ∀ c w k g, s.workers c = some w → w.Holds k → w.pc ≠ .waitDisc →
      g.closing = false → (f k g).closing = false)
    (hmap : s'.gameHosts = s.gameHosts)
    (hworkers : ∀ c w', s'.workers c = some w' → (∀ k, ¬ w'.Holds k) ∨
      ∃ w, s.workers c = some w ∧ w'.pc = w.pc ∧ w'.mHost = w.mHost ∧ (w'.chan = [] → w.chan = []))
    (hstay : ∀ c w, s.workers c = some w → ∃ w', s'.workers c = some w' ∧ w'.pc = w.pc)
    (hdaemon : ∀ k, s'.daemon = .waitHost k → s.daemon = .waitHost k ∨ ∃ e ∈ s.gameHosts, e.2 = k)
    (howed : ∀ x j, s'.awaits x = some j →
      ∃ g, s.hosts j = some g ∧ 1 ≤ (f j g).owes x + s'.answers x) : LifeInv s' := by
  have hhost : ∀ k g, s.hosts k = some g → s'.hosts k = some (f k g) := by
    intro k g hg
    rw [hhosts, hg]
    rfl
  have hback : ∀ k g', s'.hosts k = some g' → ∃ g, s.hosts k = some g ∧ f k g = g' := by
    intro k g' hg'
    rw [hhosts] at hg'
    exact Option.map_eq_some_iff.1 hg'
  have hholds : ∀ c w' k, s'.workers c = some w' → w'.Holds k →
      ∃ w, s.workers c = some w ∧ w'.pc = w.pc ∧ w'.mHost = w.mHost ∧ w.Holds k := by
    intro c w' k hw' hh
    rcases hworkers c w' hw' with hnone | ⟨w, hw, hpc, hm, hchan⟩
    · exact absurd hh (hnone k)
    · refine ⟨w, hw, hpc, hm, ?_⟩
      rcases hh with ⟨hmHost, hend, hdisc⟩ | hfound | hstart
      · exact .inl ⟨hm ▸ hmHost, hpc ▸ hend, fun hw' => hdisc ⟨hpc.trans hw'.1, fun hnil =>
          hw'.2 (hchan hnil)⟩⟩
      · exact .inr (.inl (hpc ▸ hfound))
      · exact .inr (.inr (hpc ▸ hstart))
  refine ⟨hanswers, hwait, fun j g' hg' hun => ?_, fun c w' j hw' hj => ?_,
    fun c w' j hw' hh hne => ?_, fun e he => ?_, fun j g' hg' he => ?_, fun j g' hg' => ?_,
    fun x j ha => ?_⟩
  · obtain ⟨g, hg, rfl⟩ := hback j g' hg'
    obtain ⟨c, w, hw, hs⟩ := h.starter j g hg (hpc j g ▸ hun)
    obtain ⟨w', hw', hpc'⟩ := hstay c w hw
    exact ⟨c, w', hw', hpc' ▸ hs⟩
  · obtain ⟨w, hw, hpc', hm, -⟩ :=
      hholds c w' j hw' (.inr (.inr (WorkerPc.starting_of_unpublished hj)))
    obtain ⟨hnot, hall, hd, hmHost⟩ := h.own c w j hw (hpc' ▸ hj)
    refine ⟨hmap ▸ hnot, fun c₁ w₁ hw₁ hh₁ => ?_, fun hd' => ?_, hm ▸ hmHost⟩
    · obtain ⟨v₁, hv₁, -, -, hv⟩ := hholds c₁ w₁ j hw₁ hh₁
      exact hall c₁ v₁ hv₁ hv
    · rcases hdaemon j hd' with hold | ⟨e, he, heq⟩
      · exact hd hold
      · exact hnot e he heq
  · obtain ⟨w, hw, hpc', -, hold⟩ := hholds c w' j hw' hh
    obtain ⟨g, hg, hc⟩ := h.held c w j hw hold (hpc' ▸ hne)
    exact ⟨_, hhost j g hg, hclosing c w j g hw hold (hpc' ▸ hne) hc⟩
  · obtain ⟨g, hg, hdel⟩ := h.linked e (hmap ▸ he)
    refine ⟨_, hhost _ g hg, ?_⟩
    rw [hpc]
    exact hdel
  · obtain ⟨g, hg, rfl⟩ := hback j g' hg'
    rw [hclients]
    exact h.empty j g hg (hempty j g he)
  · obtain ⟨g, hg, rfl⟩ := hback j g' hg'
    rw [hfree]
    exact h.free j g hg
  · obtain ⟨g, hg, hone⟩ := howed x j ha
    exact ⟨_, hhost j g hg, hone⟩

/-- Who waits is still owed its reply if no host owes less and no reply is lost. -/
theorem owed_of_le (h : LifeInv s) {f : HostPtr → GameHost → GameHost}
    (hf : ∀ k g x, g.owes x ≤ (f k g).owes x)
    (hs : ∀ x j, s'.awaits x = some j → s.awaits x = some j ∧ s.answers x ≤ s'.answers x)
    (x : Waiter) (j : HostPtr) (ha : s'.awaits x = some j) :
    ∃ g, s.hosts j = some g ∧ 1 ≤ (f j g).owes x + s'.answers x := by
  obtain ⟨ha, hle⟩ := hs x j ha
  obtain ⟨g, hg, howed⟩ := h.owed x j ha
  have := hf j g x
  exact ⟨g, hg, by omega⟩

theorem putIf_owes (g : GameHost) (p : Bool) (m : HostMsg) (x : Waiter) :
    g.owes x ≤ (if p then (HostAct.put m).run g else g).owes x := by
  cases p with
  | false => exact Nat.le_refl _
  | true =>
    simp only [if_true, g.owes_put m x]
    omega

theorem putIf_closing (g : GameHost) (p : Bool) {m : HostMsg} (hm : m.isShutdown = false)
    (hc : g.closing = false) :
    (if p then (HostAct.put m).run g else g).closing = false := by
  cases p with
  | false => exact hc
  | true => simpa [GameHost.closing, HostAct.run, List.any_append, hm] using hc

theorem putIf_emptyAge (g : GameHost) (p : Bool) {m : HostMsg} (hm : m ≠ .shutdown true)
    (he : (if p then (HostAct.put m).run g else g).EmptyAge) :
    g.EmptyAge := by
  cases p with
  | false => exact he
  | true =>
    rcases he with hmem | hpc
    · rcases List.mem_append.1 hmem with hmem | hmem
      · exact .inl hmem
      · exact absurd (List.mem_singleton.1 hmem).symm hm
    · exact .inr hpc

theorem putAll (h : LifeInv s) {p : GameHost → Bool} {m : HostMsg} (hm : m ≠ .shutdown true)
    (hs' : s'.hosts = (s.putAll p m).hosts) (hw : s'.workers = s.workers)
    (hmap : s'.gameHosts = s.gameHosts) (hchan : s'.daemonChan = s.daemonChan)
    (hd : ∀ k, s'.daemon = .waitHost k → s.daemon = .waitHost k)
    (hclosing : m.isShutdown = true → ∀ e ∈ s.gameHosts, s.Deserted e.2)
    (hanswers : AnswerInv s') (hwait : WaitInv s') : LifeInv s' := by
  refine h.mapHosts hanswers hwait (f := fun k g =>
      if (s.gameHosts.any fun e => e.2 = k) && p g then { g with queue := g.queue ++ [m] } else g)
    (fun k => by rw [hs']; rfl) (fun k g => ?_) (fun k g => ?_) (fun k g => ?_)
    (fun k g he => putIf_emptyAge g _ hm he) (fun c w k g hw hh hne hc => ?_) hmap
    (fun c w' hw' => .inr ⟨w', hw ▸ hw', rfl, rfl, id⟩) (fun c w hw' => ⟨w, hw ▸ hw', rfl⟩)
    (fun k hk => .inl (hd k hk))
    (h.owed_of_le (fun k g x => putIf_owes g _ m x) fun x j ha => ?_)
  · split <;> rfl
  · split <;> rfl
  · split <;> rfl
  · cases hshut : m.isShutdown with
    | false => exact putIf_closing g _ hshut hc
    | true =>
      -- a host of the map is deserted
      split
      · rename_i hin
        simp only [Bool.and_eq_true, List.any_eq_true, decide_eq_true_eq] at hin
        obtain ⟨⟨e, he, rfl⟩, -⟩ := hin
        exact absurd (hclosing hshut e he c w hw hh) hne
      · exact hc
  · cases x with
    | worker c =>
      simp only [State.awaits, State.answers, hw] at ha ⊢
      exact ⟨ha, Nat.le_refl _⟩
    | authDaemon =>
      simp only [State.awaits] at ha
      split at ha
      · rename_i k hk
        cases ha
        simp only [State.awaits, State.answers, hd _ hk, hchan]
        exact ⟨trivial, Nat.le_refl _⟩
      · cases ha

/-- The daemon leaves the hosts and the workers as they are, and waits for no host. -/
theorem sameHosts (h : LifeInv s) (hanswers : AnswerInv s') (hwait : WaitInv s')
    (hhosts : s'.hosts = s.hosts) (hmap : s'.gameHosts = s.gameHosts)
    (hworkers : s'.workers = s.workers) (hd : ∀ k, s'.daemon ≠ .waitHost k) : LifeInv s' := by
  refine h.mapHosts hanswers hwait (f := fun _ g => g)
    (fun k => (congrFun hhosts k).trans Option.map_id_apply.symm)
    (fun _ _ => rfl) (fun _ _ => rfl) (fun _ _ => rfl) (fun _ _ he => he)
    (fun c w k g _ _ _ hc => hc) hmap (fun c w' hw' => .inr ⟨w', hworkers ▸ hw', rfl, rfl, id⟩)
    (fun c w hw => ⟨w, hworkers ▸ hw, rfl⟩) (fun k hk => absurd hk (hd k))
    (h.owed_of_le (fun _ _ _ => Nat.le_refl _) fun x k ha => ?_)
  cases x with
  | worker c =>
    simp only [State.awaits, State.answers, hworkers] at ha ⊢
    exact ⟨ha, Nat.le_refl _⟩
  | authDaemon =>
    simp only [State.awaits] at ha
    cases ha

/-- The daemon replies to a host. -/
theorem answerHost (h : LifeInv s) {k : HostPtr} {ok : Bool} {rest : List AuthReq}
    (hanswers : AnswerInv ({ s with authChan := rest }.answerHost k ok))
    (hwait : WaitInv ({ s with authChan := rest }.answerHost k ok)) :
    LifeInv ({ s with authChan := rest }.answerHost k ok) := by
  refine h.mapHosts hanswers hwait (f := fun j g => if j = k then { g with authReply := some ok }
      else g) (fun j => rfl) (fun j g => ?_) (fun j g => ?_) (fun j g => ?_) (fun j g he => ?_)
    (fun c w j g _ _ _ hc => ?_) rfl (fun c w' hw' => .inr ⟨w', hw', rfl, rfl, id⟩)
    (fun c w hw => ⟨w, hw, rfl⟩) (fun j hj => .inl hj)
    (h.owed_of_le (fun j g x => ?_) fun x j ha => ?_)
  · split <;> rfl
  · split <;> rfl
  · split <;> rfl
  · split at he <;> exact he
  · split <;> exact hc
  · split <;> exact Nat.le_refl _
  · cases x <;> exact ⟨ha, Nat.le_refl _⟩

/-- A reply of the daemon takes from no worker what it has on its channel. -/
theorem answerWorker_answers {k : ConnId} {ok : Bool} {rest : List AuthReq} {c : ConnId}
    {j : HostPtr}
    (ha : ({ s with authChan := rest }.answerWorker k ok).awaits (.worker c) = some j) :
    s.awaits (.worker c) = some j ∧ s.answers (.worker c) ≤
      ({ s with authChan := rest }.answerWorker k ok).answers (.worker c) := by
  simp only [State.awaits, State.answers, State.answerWorker] at ha ⊢
  cases hw : s.workers c with
  | none =>
    rw [hw] at ha
    cases ha
  | some w =>
    simp only [hw, Option.map_some] at ha ⊢
    by_cases hc : c = k
    · simp only [if_pos hc] at ha ⊢
      refine ⟨ha, ?_⟩
      split
      · rw [List.length_append]
        omega
      · exact Nat.le_refl _
    · simp only [if_neg hc] at ha ⊢
      exact ⟨ha, Nat.le_refl _⟩

/-- The daemon replies to a worker. -/
theorem answerWorker (h : LifeInv s) {k : ConnId} {ok : Bool} {rest : List AuthReq}
    (hanswers : AnswerInv ({ s with authChan := rest }.answerWorker k ok))
    (hwait : WaitInv ({ s with authChan := rest }.answerWorker k ok)) :
    LifeInv ({ s with authChan := rest }.answerWorker k ok) := by
  refine h.mapHosts hanswers hwait (f := fun _ g => g) (fun j => Option.map_id_apply.symm)
    (fun _ _ => rfl) (fun _ _ => rfl) (fun _ _ => rfl) (fun _ _ he => he)
    (fun c w j g _ _ _ hc => hc) rfl (fun c w' hw' => ?_) (fun c w hw => ?_) (fun j hj => .inl hj)
    (h.owed_of_le (fun _ _ _ => Nat.le_refl _) fun x j ha => ?_)
  · obtain ⟨w, hw, rfl⟩ := Option.map_eq_some_iff.1 hw'
    refine .inr ⟨w, hw, ?_⟩
    split
    · exact ⟨rfl, rfl, fun happ => (List.append_eq_nil_iff.1 happ).1⟩
    · exact ⟨rfl, rfl, id⟩
  · refine ⟨_, congrArg (Option.map _) hw, ?_⟩
    dsimp only
    split <;> rfl
  · cases x with
    | authDaemon => exact ⟨ha, Nat.le_refl _⟩
    | worker c => exact answerWorker_answers ha

/-- A host that the daemon finds, and that has no shutdown before the update, comes to it. -/
theorem forward_owed (h : LifeInv s) {c : Choice} {mcpId : UInt32} {k : HostPtr}
    (hok : ForwardOk s (.daemon c)) (hd : s.daemon = .wantLock mcpId) (hm : s.mutex = none)
    (hfind : s.find mcpId = some k) :
    ∃ g, s.hosts k = some g ∧ 1 ≤ ((HostAct.put .localSdl).run g).owes .authDaemon := by
  obtain ⟨g, hg, hdel, hgone⟩ := h.linked _ (State.mem_of_find hfind)
  simp only [ForwardOk, hd] at hok
  obtain ⟨hh, hq⟩ := hok k g hm hfind hg
  have hnoshut : g.queue.any HostMsg.isShutdown = false := by
    rw [List.any_eq_false]
    intro m hmem
    rw [(hq m hmem).isShutdown_eq]
    exact Bool.false_ne_true
  have hopen : g.pc.closing = false := hh.closing_eq hdel hgone
  refine ⟨g, hg, ?_⟩
  rw [GameHost.owes_put, hnoshut, hopen]
  simp only [HostMsg.isShutdown, HostMsg.waiter, Bool.or_false, Bool.false_eq_true, if_false,
    if_true]
  omega

/-- The daemon forwards an update to a host, and waits for it. -/
theorem forward (h : LifeInv s) {c : Choice} {mcpId : UInt32} {k : HostPtr}
    (hok : ForwardOk s (.daemon c)) (hd : s.daemon = .wantLock mcpId) (hm : s.mutex = none)
    (hfind : s.find mcpId = some k)
    (hs' : s' = { s.modifyHost k (HostAct.put .localSdl).run with
      daemon := .waitHost k, mutex := some .authDaemon })
    (hanswers : AnswerInv s') (hwait : WaitInv s') : LifeInv s' := by
  subst hs'
  refine h.mapHosts hanswers hwait (f := fun j g => if j = k then (HostAct.put .localSdl).run g
      else g) (fun j => rfl) (fun j g => ?_) (fun j g => ?_) (fun j g => ?_) (fun j g he => ?_)
    (fun c w j g _ _ _ hc => ?_) rfl (fun c w' hw' => .inr ⟨w', hw', rfl, rfl, id⟩)
    (fun c w hw => ⟨w, hw, rfl⟩)
    (fun j hj => .inr ⟨_, State.mem_of_find hfind, by cases hj; rfl⟩) (fun x j ha => ?_)
  · split <;> rfl
  · split <;> rfl
  · split <;> rfl
  · refine putIf_emptyAge g (decide (j = k)) (m := .localSdl) (by simp) ?_
    simpa only [decide_eq_true_eq] using he
  · have hput := putIf_closing g (decide (j = k)) (m := .localSdl) rfl hc
    simpa only [decide_eq_true_eq] using hput
  · cases x with
    | worker c =>
      obtain ⟨g, hg, howed⟩ := h.owed (.worker c) j ha
      refine ⟨g, hg, Nat.le_trans howed (Nat.add_le_add_right ?_ _)⟩
      have hput := putIf_owes g (decide (j = k)) .localSdl (.worker c)
      simpa only [decide_eq_true_eq] using hput
    | authDaemon =>
      cases ha
      obtain ⟨g, hg, howed⟩ := h.forward_owed hok hd hm hfind
      refine ⟨g, hg, Nat.le_add_right_of_le ?_⟩
      rw [if_pos rfl]
      exact howed

theorem daemon {c : Choice} (h : LifeInv s) (hok : ForwardOk s (.daemon c))
    (hmove : DaemonMove s s') : LifeInv s' := by
  have hanswers := h.answers.daemon hmove
  have hwait := h.wait.daemon hok hmove
  cases hmove with
  | host => exact h.answerHost hanswers hwait
  | worker => exact h.answerWorker hanswers hwait
  | @client r => exact h.sameHosts hanswers hwait rfl rfl rfl r.daemonPc_ne
  | miss | back => exact h.sameHosts hanswers hwait rfl rfl rfl DaemonPc.idle_ne
  | forward hd hm hfind => exact h.forward hok hd hm hfind rfl hanswers hwait
  | global =>
    exact h.putAll (by simp) rfl rfl rfl rfl (fun k hk => absurd hk (DaemonPc.idle_ne k))
      (fun hs => absurd hs Bool.false_ne_true) hanswers hwait

theorem step {e : Event} (h : LifeInv s) (hok : StepOk s e) (hs : step s e = some s') :
    LifeInv s' := by
  have hanswers := h.answers.step hs
  have hforward : ForwardOk s e := by
    cases e with
    | daemon ch => exact hok
    | _ => trivial
  have hwait := h.wait.step hforward hs
  cases step_case hs with
  | @accept c hw =>
    refine h.mapHosts hanswers hwait (f := fun _ g => g) (fun j => Option.map_id_apply.symm)
      (fun _ _ => rfl) (fun _ _ => rfl) (fun _ _ => rfl) (fun _ _ he => he)
      (fun c w j g _ _ _ hc => hc) rfl (fun c₁ w' hw' => ?_) (fun c₁ w hw₁ => ?_)
      (fun j hj => .inl hj) (h.owed_of_le (fun _ _ _ => Nat.le_refl _) fun x j ha => ?_)
    · rcases Lib.update_eq_some hw' with ⟨rfl, rfl⟩ | ⟨-, hw'⟩
      · left
        rintro k (⟨hm, -⟩ | hfound | hstart)
        · cases hm
        · cases hfound
        · cases hstart
      · exact .inr ⟨w', hw', rfl, rfl, id⟩
    · exact ⟨w, Lib.update_of_some hw hw₁ _, rfl⟩
    · cases x with
      | authDaemon => exact ⟨ha, Nat.le_refl _⟩
      | worker c₁ =>
        by_cases hc : c₁ = c
        · subst hc
          simp [State.awaits, WorkerPc.hostWait] at ha
        · simp only [State.awaits, State.answers, Function.update_of_ne hc] at ha ⊢
          exact ⟨ha, Nat.le_refl _⟩
  | recv hw hidle hmove =>
    exact h.worker hw hmove (fun mcpId k g hpc => by simp [hidle] at hpc)
      fun k hpc => by simp [hidle] at hpc
  | worker hw hstep hmove =>
    obtain ⟨hlookup, hload⟩ := hok _ hw
    refine h.worker hw hmove hlookup fun k hpc hno => ?_
    simp only [workerStep, hpc, hload k hpc, if_true, Option.some.injEq, Prod.mk.injEq] at hstep
    rw [← hstep.1] at hno
    cases congrArg GameWorker.pc hno
  | host hg hmove => exact h.host hok hg hmove
  | @daemon c _ hmove => exact LifeInv.daemon h (c := c) hok hmove
  | authRequest =>
    refine h.mapHosts hanswers hwait (f := fun _ g => g) (fun j => Option.map_id_apply.symm)
      (fun _ _ => rfl) (fun _ _ => rfl) (fun _ _ => rfl) (fun _ _ he => he)
      (fun c w j g _ _ _ hc => hc) rfl (fun c w' hw' => .inr ⟨w', hw', rfl, rfl, id⟩)
      (fun c w hw => ⟨w, hw, rfl⟩) (fun j hj => .inl hj)
      (h.owed_of_le (fun _ _ _ => Nat.le_refl _) fun x j ha => ?_)
    cases x <;> exact ⟨ha, Nat.le_refl _⟩
  | serverShutdown hm =>
    exact h.putAll (by simp) rfl rfl rfl rfl (fun k hk => hk) (fun _ => hok) hanswers hwait

end LifeInv

end Dirtsand.GameServ
