import Dirtsand.GameServ.Moves

/-!
# Hosts that are being started

A worker in `start_game_host` works on a host that has no thread yet, and that
no other worker is starting.  Together with the freshness of addresses this is
`StartInv`, which holds in every reachable state.
-/

namespace Dirtsand.GameServ

/-- The host a worker is starting. -/
def WorkerPc.starting : WorkerPc → Option HostPtr
  | .startFetch _ h => some h
  | .startUpdate _ h => some h
  | .startInsert _ h => some h
  | .startLoad h => some h
  | _ => none

/-! ## What moves do to a host that is being started -/

theorem HostMove.started {h : HostPtr} {v : HostView} {g g' : GameHost} {eff : HostEffect}
    (hmove : HostMove h v g g' eff) : g.pc ≠ .unstarted := by
  cases hmove <;> simp_all

theorem HostAct.run_pc {act : HostAct} (hs : act ≠ .start) (hf : act ≠ .free) (g : GameHost) :
    (act.run g).pc = g.pc := by
  cases act with
  | start => exact absurd rfl hs
  | free => exact absurd rfl hf
  | put m => rfl
  | insert playerId c => rfl
  | erase playerId => rfl

/-- A worker starts and frees only the host it is starting. -/
theorem WorkerMove.act_starting {c : ConnId} {v : WorkerView} {w w' : GameWorker}
    {eff : WorkerEffect} {h : HostPtr} {act : HostAct} (hmove : WorkerMove c v w w' eff)
    (hact : eff.act = some (h, act)) :
    (act ≠ .start ∧ act ≠ .free) ∨ w.pc.starting = some h := by
  cases hmove <;> simp_all [WorkerPc.starting] <;> grind

/-- A worker publishes the host it is starting. -/
theorem WorkerMove.publish_starting {c : ConnId} {v : WorkerView} {w w' : GameWorker}
    {eff : WorkerEffect} {e : UInt32 × HostPtr} (hmove : WorkerMove c v w w' eff)
    (hpub : eff.publish = some e) : w.pc.starting = some e.2 := by
  cases hmove <;> simp_all [WorkerPc.starting]
  grind

theorem WorkerMove.starting_cases {c : ConnId} {v : WorkerView} {w w' : GameWorker}
    {eff : WorkerEffect} {h : HostPtr} (hmove : WorkerMove c v w w' eff)
    (hs : w'.pc.starting = some h) :
    (h = v.nextHost ∧ eff.act = none ∧ ∃ mcpId age, eff.alloc = some ⟨mcpId, age, [], 0, [],
      .unstarted, none, true⟩) ∨
      (w.pc.starting = some h ∧ eff.act = none ∧ eff.alloc = none) := by
  cases hmove <;> simp_all [WorkerPc.starting, GameWorker.noHost]

theorem WorkerEffect.onHost_pc {eff : WorkerEffect} {h : HostPtr} {g : GameHost}
    (hact : ∀ act, eff.act = some (h, act) → act ≠ .start ∧ act ≠ .free) :
    (eff.onHost h g).pc = g.pc := by
  unfold WorkerEffect.onHost
  split
  · rename_i h' act heq
    split
    · rename_i hh
      subst hh
      exact HostAct.run_pc (hact act heq).1 (hact act heq).2 g
    · rfl
  · rfl

/-! ## The invariant -/

structure StartInv (s : State) : Prop where
  fresh : ∀ h, s.nextHost ≤ h → s.hosts h = none
  starting : ∀ c w h, s.workers c = some w → w.pc.starting = some h →
    ∃ g, s.hosts h = some g ∧ g.pc = .unstarted
  unique : ∀ c c' w w' h, s.workers c = some w → s.workers c' = some w' →
    w.pc.starting = some h → w'.pc.starting = some h → c = c'

theorem State.allocated_of_some {s : State} (h : StartInv s) {k : HostPtr} {g : GameHost}
    (hg : s.hosts k = some g) (alloc : Option GameHost) : s.allocated alloc k = some g := by
  cases alloc with
  | none => exact hg
  | some a => exact Lib.update_of_some (h.fresh _ (Nat.le_refl _)) hg a

theorem State.allocated_of_le {s : State} (h : StartInv s) {k : HostPtr} {alloc : Option GameHost}
    (hk : (if alloc.isSome then s.nextHost + 1 else s.nextHost) ≤ k) :
    s.allocated alloc k = none := by
  cases alloc with
  | none => exact h.fresh k hk
  | some a =>
    have hlt : s.nextHost < k := hk
    rw [State.allocated, Function.update_of_ne (Nat.ne_of_gt hlt)]
    exact h.fresh k (Nat.le_of_lt hlt)

namespace StartInv

variable {s s' : State}

theorem initial : StartInv State.initial :=
  ⟨fun _ _ => rfl, fun _ _ _ hw _ => (nomatch hw), fun _ _ _ _ _ hw _ _ _ => (nomatch hw)⟩

/-- A step that starts no host and moves no worker that is starting one. -/
theorem keep (h : StartInv s) (hnext : s'.nextHost = s.nextHost)
    (hnone : ∀ k, s.hosts k = none → s'.hosts k = none)
    (hpc : ∀ k g, s.hosts k = some g → g.pc = .unstarted →
      ∃ g', s'.hosts k = some g' ∧ g'.pc = .unstarted)
    (hworkers : ∀ c w', s'.workers c = some w' → w'.pc.starting ≠ none →
      ∃ w, s.workers c = some w ∧ w'.pc.starting = w.pc.starting) : StartInv s' := by
  refine ⟨fun k hk => hnone k (h.fresh k (hnext ▸ hk)), fun c w' k hw' hs => ?_,
    fun c c' w₁ w₂ k hw₁ hw₂ hs₁ hs₂ => ?_⟩
  · obtain ⟨w, hw, heq⟩ := hworkers c w' hw' (by rw [hs]; simp)
    obtain ⟨g, hg, hun⟩ := h.starting c w k hw (heq ▸ hs)
    exact hpc k g hg hun
  · obtain ⟨v₁, hv₁, heq₁⟩ := hworkers c w₁ hw₁ (by rw [hs₁]; simp)
    obtain ⟨v₂, hv₂, heq₂⟩ := hworkers c' w₂ hw₂ (by rw [hs₂]; simp)
    exact h.unique c c' v₁ v₂ k hv₁ hv₂ (heq₁ ▸ hs₁) (heq₂ ▸ hs₂)

theorem host {k : HostPtr} {g g' : GameHost} {eff : HostEffect} (h : StartInv s)
    (hg : s.hosts k = some g) (hmove : HostMove k s.hostView g g' eff) :
    StartInv (s.applyHost k g' eff) := by
  refine h.keep rfl (fun k' hk' => ?_) (fun k' g₁ hg₁ hun => ?_) fun c w' hw' _ => ?_
  · have hne : k' ≠ k := by
      rintro rfl
      rw [hg] at hk'
      cases hk'
    exact (Function.update_of_ne hne ..).trans hk'
  · have hne : k' ≠ k := by
      rintro rfl
      rw [hg] at hg₁
      cases hg₁
      exact hmove.started hun
    exact ⟨g₁, (Function.update_of_ne hne ..).trans hg₁, hun⟩
  · obtain ⟨w, hw, rfl⟩ := Option.map_eq_some_iff.1 hw'
    exact ⟨w, hw, rfl⟩

/-- Hosts are changed without a change of their program counters. -/
theorem mapHosts (h : StartInv s) (hnext : s'.nextHost = s.nextHost) (hw : s'.workers = s.workers)
    {f : HostPtr → GameHost → GameHost} (hhosts : ∀ k, s'.hosts k = (s.hosts k).map (f k))
    (hf : ∀ k g, (f k g).pc = g.pc) : StartInv s' := by
  refine h.keep hnext (fun k hk => ?_) (fun k g hg hun => ?_) fun c w' hw' _ => ?_
  · rw [hhosts, hk]; rfl
  · exact ⟨f k g, by rw [hhosts, hg]; rfl, (hf k g).trans hun⟩
  · exact ⟨w', hw ▸ hw', rfl⟩

theorem sameHosts (h : StartInv s) (hnext : s'.nextHost = s.nextHost) (hw : s'.workers = s.workers)
    (hhosts : s'.hosts = s.hosts) : StartInv s' :=
  h.keep hnext (fun _ hk => hhosts ▸ hk) (fun _ g hg hun => ⟨g, hhosts ▸ hg, hun⟩)
    fun _ w' hw' _ => ⟨w', hw ▸ hw', rfl⟩

theorem modifyHost (h : StartInv s) (k : HostPtr) {f : GameHost → GameHost}
    (hf : ∀ g, (f g).pc = g.pc) : StartInv (s.modifyHost k f) := by
  refine h.mapHosts rfl rfl (fun _ => rfl) fun k' g => ?_
  split
  · exact hf g
  · rfl

theorem putAll (h : StartInv s) (p : GameHost → Bool) (m : HostMsg) : StartInv (s.putAll p m) := by
  refine h.mapHosts rfl rfl (fun _ => rfl) fun k g => ?_
  split <;> rfl

theorem daemon (h : StartInv s) (hmove : DaemonMove s s') : StartInv s' := by
  cases hmove with
  | @host r k rest ok hd hc hr =>
    have hrest : StartInv { s with authChan := rest } := h.sameHosts rfl rfl rfl
    exact hrest.modifyHost k (f := fun g => { g with authReply := some ok }) fun _ => rfl
  | worker =>
    refine h.keep rfl (fun _ hk => hk) (fun _ g hg hun => ⟨g, hg, hun⟩) fun c w' hw' _ => ?_
    obtain ⟨w, hw, rfl⟩ := Option.map_eq_some_iff.1 hw'
    refine ⟨w, hw, ?_⟩
    split <;> rfl
  | client => exact h.sameHosts rfl rfl rfl
  | miss => exact h.sameHosts rfl rfl rfl
  | @forward mcpId k hd hm hfind =>
    have hput := h.modifyHost k (f := (HostAct.put .localSdl).run) fun _ => rfl
    exact hput.sameHosts rfl rfl rfl
  | back => exact h.sameHosts rfl rfl rfl
  | global => exact (h.putAll _ _).sameHosts rfl rfl rfl

theorem worker {c : ConnId} {w w' : GameWorker} {eff : WorkerEffect} (h : StartInv s)
    (hw : s.workers c = some w) (hmove : WorkerMove c s.workerView w w' eff) :
    StartInv (s.applyWorker c w' eff) := by
  -- Another worker's host is not touched by a start or a free of this one.
  have hother : ∀ c₁ w₁ k, c₁ ≠ c → s.workers c₁ = some w₁ → w₁.pc.starting = some k →
      ∃ g, (s.applyWorker c w' eff).hosts k = some g ∧ g.pc = .unstarted := by
    intro c₁ w₁ k hne hw₁ hs₁
    obtain ⟨g, hg, hun⟩ := h.starting c₁ w₁ k hw₁ hs₁
    refine ⟨eff.onHost k g, ?_, ?_⟩
    · show (s.allocated eff.alloc k).map _ = _
      rw [State.allocated_of_some h hg]
      rfl
    · rw [WorkerEffect.onHost_pc, hun]
      intro act hact
      rcases hmove.act_starting hact with hok | hstart
      · exact hok
      · exact absurd (h.unique c₁ c w₁ w k hw₁ hw hs₁ hstart) hne
  -- Nobody else is starting a host just allocated.
  have hold : ∀ c₁ w₁ k, s.workers c₁ = some w₁ → w₁.pc.starting = some k →
      w'.pc.starting = some k → w.pc.starting = some k := by
    intro c₁ w₁ k hw₁ hs₁ hs'
    rcases hmove.starting_cases hs' with ⟨rfl, -, -⟩ | ⟨hs, -, -⟩
    · obtain ⟨g, hg, -⟩ := h.starting c₁ w₁ _ hw₁ hs₁
      rw [show s.workerView.nextHost = s.nextHost from rfl, h.fresh _ (Nat.le_refl _)] at hg
      cases hg
    · exact hs
  refine ⟨fun k hk => ?_, fun c₁ w₁ k hw₁ hs₁ => ?_, fun c₁ c₂ w₁ w₂ k hw₁ hw₂ hs₁ hs₂ => ?_⟩
  · show (s.allocated eff.alloc k).map _ = none
    rw [State.allocated_of_le h hk]
    rfl
  · rcases Lib.update_eq_some hw₁ with ⟨rfl, rfl⟩ | ⟨hc, hw₁⟩
    · rcases hmove.starting_cases hs₁ with ⟨rfl, hact, mcpId, age, halloc⟩ | ⟨hs, hact, halloc⟩
      · refine ⟨⟨mcpId, age, [], 0, [], .unstarted, none, true⟩, ?_, rfl⟩
        show (s.allocated eff.alloc s.nextHost).map _ = _
        rw [halloc, State.allocated, Function.update_self]
        simp [WorkerEffect.onHost, hact]
      · obtain ⟨g, hg, hun⟩ := h.starting c₁ w k hw hs
        refine ⟨g, ?_, hun⟩
        show (s.allocated eff.alloc k).map _ = _
        rw [State.allocated_of_some h hg]
        simp [WorkerEffect.onHost, hact]
    · exact hother c₁ w₁ k hc hw₁ hs₁
  · rcases Lib.update_eq_some hw₁ with ⟨rfl, rfl⟩ | ⟨-, hv₁⟩
    · rcases Lib.update_eq_some hw₂ with ⟨rfl, rfl⟩ | ⟨-, hv₂⟩
      · rfl
      · exact h.unique _ _ _ _ k hw hv₂ (hold c₂ w₂ k hv₂ hs₂ hs₁) hs₂
    · rcases Lib.update_eq_some hw₂ with ⟨rfl, rfl⟩ | ⟨-, hv₂⟩
      · exact h.unique _ _ _ _ k hv₁ hw hs₁ (hold c₁ w₁ k hv₁ hs₁ hs₂)
      · exact h.unique _ _ _ _ k hv₁ hv₂ hs₁ hs₂

theorem step {e : Event} (h : StartInv s) (hs : step s e = some s') : StartInv s' := by
  cases step_case hs with
  | @accept c hw =>
    refine h.keep rfl (fun _ hk => hk) (fun _ g hg hun => ⟨g, hg, hun⟩) fun c' w' hw' hne => ?_
    rcases Lib.update_eq_some hw' with ⟨rfl, rfl⟩ | ⟨-, hw'⟩
    · exact absurd rfl hne
    · exact ⟨w', hw', rfl⟩
  | recv hw _ hmove => exact h.worker hw hmove
  | worker hw _ hmove => exact h.worker hw hmove
  | host hg hmove => exact h.host hg hmove
  | daemon hmove => exact h.daemon hmove
  | authRequest => exact h.sameHosts rfl rfl rfl
  | serverShutdown => exact h.putAll _ _

end StartInv

end Dirtsand.GameServ
