import Dirtsand.GameServ.History
import Dirtsand.GameServ.Lifetime

/-!
# One host for each age server

`find_game_host` looks an age server up in `s_gameHosts` and, where it is not
there, starts a host for it; the lookup and the insertion are two critical
sections, and a host that shuts down leaves `s_gameHosts` before its thread ends.

* `one_host` — in a run where nobody starts a host for an age server that another
  worker is starting one for, or whose old host is still being deleted
  (`LookupOk`), an age server has one running host at most, and a lookup gives it.
* `two_hosts` — a run where two workers start a host for the same age server.
-/

namespace Dirtsand.GameServ

/-- The host's thread runs. -/
def GameHost.Running (g : GameHost) : Prop :=
  g.pc ≠ .unstarted ∧ g.pc ≠ .deleted

/-- `dm_game_shutdown` has taken the host out of `s_gameHosts`. -/
def GameHost.Unlinked (g : GameHost) : Prop :=
  ∃ b, g.pc = .shutDelete b

/-- Neither taken out of `s_gameHosts` nor deleted. -/
def GameHost.Linked (g : GameHost) : Prop :=
  ¬ g.Unlinked ∧ g.pc ≠ .deleted

theorem GameHost.unlinked_congr {g g' : GameHost} (hpc : g'.pc = g.pc) :
    g'.Unlinked ↔ g.Unlinked := by
  rw [GameHost.Unlinked, GameHost.Unlinked, hpc]

theorem GameHost.linked_congr {g g' : GameHost} (hpc : g'.pc = g.pc) :
    g'.Linked ↔ g.Linked := by
  rw [GameHost.Linked, GameHost.Linked, GameHost.unlinked_congr hpc, hpc]

/-- The age that a worker is starting a host for, which is not in `s_gameHosts`
yet. -/
def WorkerPc.starts : WorkerPc → Option UInt32
  | .startSelect mcpId => some mcpId
  | .startFetch mcpId _ => some mcpId
  | .startUpdate mcpId _ => some mcpId
  | .startInsert mcpId _ => some mcpId
  | _ => none

def OneHostPerAge (s : State) : Prop :=
  ∀ h h' g g', s.hosts h = some g → s.hosts h' = some g' → g.Running → g'.Running →
    g.serverIdx = g'.serverIdx → h = h'

/-- **The condition on a step.**  An age server that is not in `s_gameHosts` is
looked up only when nobody is starting a host for it and no host of it is still
to be deleted. -/
def LookupOk (s : State) : Event → Prop
  | .worker c _ => ∀ w mcpId, s.workers c = some w → w.pc = .lookup mcpId → s.find mcpId = none →
      (∀ c' w', s.workers c' = some w' → w'.pc.starts ≠ some mcpId) ∧
      ∀ h g, s.hosts h = some g → g.serverIdx = mcpId → ¬ g.Unlinked
  | _ => True

/-! ## What is found -/

namespace State

variable {s : State}

/-- No host of the age server runs. -/
def NoneRuns (s : State) (mcpId : UInt32) : Prop :=
  ∀ h g, s.hosts h = some g → g.Running → g.serverIdx ≠ mcpId

theorem find_unlink {mcpId : UInt32} {k h : HostPtr} (hfind : s.find mcpId = some h) (hne : h ≠ k) :
    ((s.gameHosts.filter fun e => e.2 ≠ k).find? fun e => e.1 = mcpId).map Prod.snd = some h := by
  obtain ⟨e, he, rfl⟩ := Option.map_eq_some_iff.1 hfind
  obtain ⟨hkey, before, after, hsplit, hbefore⟩ := List.find?_eq_some_iff_append.1 he
  have hfirst : (before.filter fun e => e.2 ≠ k).find? (fun e => e.1 = mcpId) = none :=
    List.find?_eq_none.2 fun x hx => by simpa using hbefore x (List.mem_filter.1 hx).1
  rw [hsplit, List.filter_append, List.find?_append, hfirst, Option.none_or,
    List.filter_cons_of_pos (by simpa using hne)]
  simp only [List.find?_cons, hkey, Option.map_some]

theorem find_unique {mcpId : UInt32} {h k : HostPtr}
    (hkeys : s.gameHosts.Pairwise fun e e' => e.1 ≠ e'.1) (hfind : s.find mcpId = some h)
    (hk : (mcpId, k) ∈ s.gameHosts) : k = h := by
  obtain ⟨e, he, rfl⟩ := Option.map_eq_some_iff.1 hfind
  obtain ⟨hkey, before, after, hsplit, hbefore⟩ := List.find?_eq_some_iff_append.1 he
  rw [hsplit] at hk hkeys
  obtain hk | hk := List.mem_append.1 hk
  · exact absurd (hbefore _ hk) (by simp)
  · obtain rfl | hk := List.mem_cons.1 hk
    · rfl
    · have hne := (List.pairwise_cons.1 (List.pairwise_append.1 hkeys).2.1).1 _ hk
      exact absurd (by simpa using hkey) hne

theorem find_filter_none {mcpId : UInt32} (p : UInt32 × HostPtr → Bool)
    (hfind : s.find mcpId = none) :
    ((s.gameHosts.filter p).find? fun e => e.1 = mcpId).map Prod.snd = none := by
  rw [find, Option.map_eq_none_iff, List.find?_eq_none] at hfind
  rw [Option.map_eq_none_iff, List.find?_eq_none]
  exact fun x hx => hfind x (List.mem_filter.1 hx).1

theorem find_applyHost {mcpId : UInt32} {k h : HostPtr} {g : GameHost} {eff : HostEffect}
    (hfind : s.find mcpId = some h) (hne : eff.unlink = true → h ≠ k) :
    (s.applyHost k g eff).find mcpId = some h := by
  simp only [find, applyHost]
  split
  · rename_i hunlink
    exact find_unlink hfind (hne hunlink)
  · exact hfind

theorem find_applyHost_none {mcpId : UInt32} {k : HostPtr} {g : GameHost} {eff : HostEffect}
    (hfind : s.find mcpId = none) : (s.applyHost k g eff).find mcpId = none := by
  simp only [find, applyHost]
  split
  · exact find_filter_none _ hfind
  · exact hfind

theorem find_applyWorker {mcpId : UInt32} {c : ConnId} {w : GameWorker} {eff : WorkerEffect}
    (hpub : eff.publish = none) : (s.applyWorker c w eff).find mcpId = s.find mcpId := by
  simp only [find, applyWorker, hpub]

theorem find_publish {mcpId : UInt32} {c : ConnId} {w : GameWorker} {eff : WorkerEffect}
    {e : UInt32 × HostPtr} (hpub : eff.publish = some e) : (s.applyWorker c w eff).find mcpId =
      if e.1 = mcpId then some e.2 else s.find mcpId := by
  simp only [find, applyWorker, hpub]
  split
  · rename_i heq
    rw [List.find?_cons_of_pos (by simpa using heq)]
    rfl
  · rename_i hne
    rw [List.find?_cons_of_neg (by simpa using hne), List.find?_filter]
    congr 2
    funext e'
    by_cases hkey : e'.1 = mcpId
    · subst hkey
      simpa using fun h => hne h.symm
    · simp [hkey]

end State

/-! ## What moves do -/

theorem HostMove.running {h : HostPtr} {v : HostView} {g g' : GameHost} {eff : HostEffect}
    (hmove : HostMove h v g g' eff) : g.Running := by
  refine ⟨hmove.started, fun hpc => ?_⟩
  cases hmove <;> simp_all

theorem HostMove.unlinked {h : HostPtr} {v : HostView} {g g' : GameHost} {eff : HostEffect}
    (hmove : HostMove h v g g' eff) (hg : g.Unlinked) : g'.pc = .deleted := by
  obtain ⟨b, hb⟩ := hg
  cases hmove <;> simp_all

theorem HostMove.unlink {h : HostPtr} {v : HostView} {g g' : GameHost} {eff : HostEffect}
    (hmove : HostMove h v g g' eff) (hu : eff.unlink = true) : g'.Unlinked := by
  cases hmove with
  | shutLock hpc => exact ⟨_, rfl⟩
  | _ => cases hu

theorem HostMove.linked {h : HostPtr} {v : HostView} {g g' : GameHost} {eff : HostEffect}
    (hmove : HostMove h v g g' eff) (hu : eff.unlink ≠ true) (hg : g.Linked) : g'.Linked := by
  by_contra hnot
  have hgone : g'.Unlinked ∨ g'.pc = .deleted := by
    by_contra hor
    rw [not_or] at hor
    exact hnot hor
  obtain hunlink | hold := hmove.unlinks hgone
  · exact hu hunlink
  · exact hg.1 hold

theorem WorkerMove.starts {c : ConnId} {v : WorkerView} {w w' : GameWorker} {eff : WorkerEffect}
    {mcpId : UInt32} (hmove : WorkerMove c v w w' eff) (hs : w'.pc.starts = some mcpId) :
    w.pc.starts = some mcpId ∨ (w.pc = .lookup mcpId ∧ v.find mcpId = none) := by
  cases hmove <;> simp_all [WorkerPc.starts, GameWorker.noHost]

theorem WorkerMove.misses {c : ConnId} {v : WorkerView} {w w' : GameWorker} {eff : WorkerEffect}
    {mcpId : UInt32} (hmove : WorkerMove c v w w' eff) (hpc : w.pc = .lookup mcpId)
    (hfind : v.find mcpId = none) : w' = { w with pc := .startSelect mcpId } ∧ eff = {} := by
  cases hmove <;> simp_all

theorem WorkerMove.startLoad {c : ConnId} {v : WorkerView} {w w' : GameWorker} {eff : WorkerEffect}
    {h : HostPtr} (hmove : WorkerMove c v w w' eff) (hs : w'.pc = .startLoad h) :
    ∃ mcpId, w.pc = .startInsert mcpId h ∧ eff.publish = some (mcpId, h) := by
  cases hmove <;> simp_all [GameWorker.noHost]

theorem WorkerMove.starts_host {c : ConnId} {v : WorkerView} {w w' : GameWorker}
    {eff : WorkerEffect} {h : HostPtr} (hmove : WorkerMove c v w w' eff)
    (hact : eff.act = some (h, .start)) :
    w.pc = .startLoad h ∧ eff.publish = none ∧ w'.pc.starts = none := by
  cases hmove <;> simp_all [WorkerPc.starts]

theorem WorkerMove.found {c : ConnId} {v : WorkerView} {w w' : GameWorker} {eff : WorkerEffect}
    {h : HostPtr} (hmove : WorkerMove c v w w' eff) (hpc : w'.pc = .found h) :
    (∃ mcpId, w.pc = .lookup mcpId ∧ v.find mcpId = some h ∧ eff = {}) ∨
      (w.pc = .startLoad h ∧ eff = { act := some (h, .start) }) := by
  cases hmove <;> simp_all [GameWorker.noHost]

/-- Only a start makes a host run. -/
theorem WorkerEffect.onHost_running {eff : WorkerEffect} {h : HostPtr} {g : GameHost}
    (hrun : (eff.onHost h g).Running) :
    (g.Running ∧ (eff.onHost h g).pc = g.pc) ∨ eff.act = some (h, .start) := by
  unfold WorkerEffect.onHost at hrun ⊢
  split
  · rename_i k act hact
    split
    · rename_i hk
      subst hk
      simp only [hact, if_true] at hrun
      cases act with
      | start => exact .inr hact
      | free => exact absurd rfl hrun.2
      | put m | insert playerId c | erase playerId => exact .inl ⟨hrun, rfl⟩
    · rename_i hk
      simp only [hact, if_neg hk] at hrun
      exact .inl ⟨hrun, rfl⟩
  · rename_i hact
    simp only [hact] at hrun
    exact .inl ⟨hrun, rfl⟩

/-! ## The invariant -/

structure OneInv (s : State) (past : Past) : Prop where
  ask : AskInv s past
  keys : s.gameHosts.Pairwise fun e e' => e.1 ≠ e'.1
  linked : ∀ h g, s.hosts h = some g → g.Running → ¬ g.Unlinked → s.find g.serverIdx = some h
  published : ∀ e ∈ s.gameHosts, ∀ g, s.hosts e.2 = some g →
    g.Linked ∧ (g.pc = .unstarted → s.NoneRuns e.1)
  loading : ∀ c w h g, s.workers c = some w → w.pc = .startLoad h → s.hosts h = some g →
    s.find g.serverIdx = some h
  starts : ∀ c w mcpId, s.workers c = some w → w.pc.starts = some mcpId →
    s.find mcpId = none ∧ s.NoneRuns mcpId ∧
      ∀ c' w', s.workers c' = some w' → w'.pc.starts = some mcpId → c' = c
  one : OneHostPerAge s

namespace OneInv

variable {s s' : State} {past past' : Past}

theorem initial : OneInv State.initial [] :=
  ⟨.initial, .nil, fun _ _ hg => (nomatch hg), fun _ he => absurd he List.not_mem_nil,
    fun _ _ _ _ hw => (nomatch hw), fun _ _ _ hw => (nomatch hw), fun _ _ _ _ hg => (nomatch hg)⟩

/-- While a worker loads the states of a host, no host of the age server runs. -/
theorem loading_none (h : OneInv s past) {c : ConnId} {w : GameWorker} {k : HostPtr} {g : GameHost}
    (hw : s.workers c = some w) (hpc : w.pc = .startLoad k) (hg : s.hosts k = some g) :
    s.NoneRuns g.serverIdx := by
  have hfind := h.loading c w k g hw hpc hg
  obtain ⟨e, he, rfl⟩ := Option.map_eq_some_iff.1 hfind
  have hkey : e.1 = g.serverIdx := by simpa using List.find?_some he
  obtain ⟨g₁, hg₁, hun⟩ := h.ask.start.starting c w e.2 hw (by rw [hpc]; rfl)
  rw [hg] at hg₁
  cases hg₁
  rw [← hkey]
  exact (h.published e (List.mem_of_find?_eq_some he) g hg).2 hun

/-- A host that is still unknown to others is not in `s_gameHosts`. -/
theorem unpublished (h : OneInv s past) {c : ConnId} {w : GameWorker} {k : HostPtr}
    (hw : s.workers c = some w) (hpc : w.pc.unpublished = some k) : ∀ e ∈ s.gameHosts, e.2 ≠ k := by
  rintro e he rfl
  obtain ⟨mcpId, hseek, hstart, hj⟩ : ∃ mcpId, w.pc.seeks = some mcpId ∧ w.pc.starts = some mcpId ∧
      w.joins = some e.2 := by
    cases hpc' : w.pc <;> simp_all [WorkerPc.unpublished, WorkerPc.seeks, WorkerPc.starts,
      GameWorker.joins]
  obtain ⟨hfree, -, -⟩ := h.starts c w mcpId hw hstart
  obtain ⟨hseeks, -⟩ := h.ask.seeks c w mcpId hw hseek
  obtain ⟨-, g, hg, hjoins⟩ := h.ask.joins c w e.2 hw hj
  obtain ⟨g₁, hg₁, hidx⟩ := h.ask.linked e he
  rw [hg] at hg₁
  cases hg₁
  rw [hseeks, Option.some.injEq, Prod.mk.injEq] at hjoins
  rw [State.find, Option.map_eq_none_iff, List.find?_eq_none] at hfree
  exact hfree e he (by simpa using (hjoins.1.trans hidx).symm)

/-- What is found is the host that runs, if one does. -/
theorem the_host (h : OneInv s past) {k j : HostPtr} {g₀ g : GameHost}
    (hfind : s.find g₀.serverIdx = some k) (hg₀ : s.hosts k = some g₀) (hg : s.hosts j = some g)
    (hrun : g.Running) (hidx : g.serverIdx = g₀.serverIdx) : j = k := by
  obtain ⟨e, he, rfl⟩ := Option.map_eq_some_iff.1 hfind
  have hkey : e.1 = g₀.serverIdx := by simpa using List.find?_some he
  obtain ⟨hlinked, hnone⟩ := h.published e (List.mem_of_find?_eq_some he) g₀ hg₀
  have hrun₀ : g₀.Running :=
    ⟨fun hun => hnone hun j g hg hrun (hidx.trans hkey.symm), hlinked.2⟩
  exact h.one j e.2 g g₀ hg hg₀ hrun hrun₀ hidx

/-- A step that starts no host, and after which no worker is nearer to one. -/
theorem keep (h : OneInv s past) (hask : AskInv s' past') (hkeep : s.HostsKeep s')
    (hhosts : ∀ k g', s'.hosts k = some g' → g'.Running → ∃ g, s.hosts k = some g ∧ g.Running ∧
      g'.serverIdx = g.serverIdx ∧ (g.Unlinked → g'.Unlinked))
    (hfind : ∀ mcpId k, s.find mcpId = some k → s'.find mcpId = some k ∨
      ∃ g', s'.hosts k = some g' ∧ g'.Unlinked)
    (hnone : ∀ mcpId, s.find mcpId = none → s'.find mcpId = none)
    (hmap : s'.gameHosts.Sublist s.gameHosts)
    (hgone : ∀ e ∈ s'.gameHosts, ∀ g g', s.hosts e.2 = some g → s'.hosts e.2 = some g' →
      g.Linked → g'.Linked ∧ (g'.pc = .unstarted → g.pc = .unstarted))
    (hload : ∀ c w' k, s'.workers c = some w' → w'.pc = .startLoad k →
      ∃ w, s.workers c = some w ∧ w.pc = .startLoad k)
    (hstarts : ∀ c w' mcpId, s'.workers c = some w' → w'.pc.starts = some mcpId →
      ∃ w, s.workers c = some w ∧ w.pc.starts = some mcpId) : OneInv s' past' := by
  have hruns : ∀ mcpId, s.NoneRuns mcpId → s'.NoneRuns mcpId := by
    intro mcpId hno k g' hg' hrun
    obtain ⟨g, hg, hrun', hidx, -⟩ := hhosts k g' hg' hrun
    rw [hidx]
    exact hno k g hg hrun'
  refine ⟨hask, h.keys.sublist hmap, fun k g' hg' hrun hlinked => ?_, fun e he g' hg' => ?_,
    fun c w' k g' hw' hpc hg' => ?_, fun c w' mcpId hw' hs => ?_,
    fun k k' g₁ g₂ hg₁ hg₂ hrun₁ hrun₂ heq => ?_⟩
  · obtain ⟨g, hg, hrun', hidx, hun⟩ := hhosts k g' hg' hrun
    have hold := h.linked k g hg hrun' fun hu => hlinked (hun hu)
    rw [hidx]
    obtain hnew | ⟨g₁, hg₁, hu⟩ := hfind _ k hold
    · exact hnew
    · rw [hg'] at hg₁
      cases hg₁
      exact absurd hu hlinked
  · have hmem := hmap.subset he
    obtain ⟨g, hg, -⟩ := h.ask.linked e hmem
    obtain ⟨hlinked, hno⟩ := h.published e hmem g hg
    obtain ⟨hlinked', hun⟩ := hgone e he g g' hg hg' hlinked
    exact ⟨hlinked', fun hu => hruns _ (hno (hun hu))⟩
  · obtain ⟨w, hw, hpc₀⟩ := hload c w' k hw' hpc
    obtain ⟨g, hg, -⟩ := h.ask.start.starting c w k hw (by rw [hpc₀]; rfl)
    obtain ⟨g₁, hg₁, hidx⟩ := hkeep k g hg
    rw [hg'] at hg₁
    cases hg₁
    have hold := h.loading c w k g hw hpc₀ hg
    rw [hidx]
    obtain hnew | ⟨g₂, hg₂, b, hb⟩ := hfind _ k hold
    · exact hnew
    · obtain ⟨g₃, hg₃, hun⟩ := hask.start.starting c w' k hw' (by rw [hpc]; rfl)
      rw [hg₂] at hg₃
      cases hg₃
      rw [hb] at hun
      cases hun
  · obtain ⟨w, hw, hs₀⟩ := hstarts c w' mcpId hw' hs
    obtain ⟨hfree, hno, huniq⟩ := h.starts c w mcpId hw hs₀
    refine ⟨hnone _ hfree, hruns _ hno, fun c' w₁ hw₁ hs₁ => ?_⟩
    obtain ⟨w₂, hw₂, hs₂⟩ := hstarts c' w₁ mcpId hw₁ hs₁
    exact huniq c' w₂ hw₂ hs₂
  · obtain ⟨g₁', hg₁', hrun₁', hidx₁, -⟩ := hhosts k g₁ hg₁ hrun₁
    obtain ⟨g₂', hg₂', hrun₂', hidx₂, -⟩ := hhosts k' g₂ hg₂ hrun₂
    exact h.one k k' g₁' g₂' hg₁' hg₂' hrun₁' hrun₂' (by rw [← hidx₁, ← hidx₂, heq])

theorem host {k : HostPtr} {g g' : GameHost} {eff : HostEffect} (h : OneInv s past)
    (hask : AskInv (s.applyHost k g' eff) past') (hg : s.hosts k = some g)
    (hmove : HostMove k s.hostView g g' eff) : OneInv (s.applyHost k g' eff) past' := by
  have hself : (s.applyHost k g' eff).hosts k = some g' := Function.update_self ..
  have hworkers : ∀ c w', (s.applyHost k g' eff).workers c = some w' →
      ∃ w, s.workers c = some w ∧ w'.pc = w.pc := by
    intro c w' hw'
    obtain ⟨w, hw, rfl⟩ := Option.map_eq_some_iff.1 hw'
    exact ⟨w, hw, rfl⟩
  refine h.keep hask (applyHost_hostsKeep hg hmove.serverIdx) (fun j g₁ hg₁ hrun => ?_)
    (fun mcpId j hfind => ?_) (fun mcpId => State.find_applyHost_none) ?_
    (fun e he g₁ g₂ hg₁ hg₂ hlinked => ?_) (fun c w' j hw' hpc => ?_) fun c w' mcpId hw' hs => ?_
  · rcases Lib.update_eq_some hg₁ with ⟨rfl, rfl⟩ | ⟨-, hg₁⟩
    · exact ⟨g, hg, hmove.running, hmove.serverIdx, fun hu => absurd (hmove.unlinked hu) hrun.2⟩
    · exact ⟨g₁, hg₁, hrun, rfl, id⟩
  · by_cases hun : eff.unlink = true → j ≠ k
    · exact .inl (State.find_applyHost hfind hun)
    · simp only [ne_eq, Classical.not_imp, not_not] at hun
      obtain ⟨hu, rfl⟩ := hun
      exact .inr ⟨g', hself, hmove.unlink hu⟩
  · simp only [State.applyHost]
    split
    · exact List.filter_sublist
    · exact List.Sublist.refl _
  · have hkept : e.2 = k → eff.unlink ≠ true := by
      rintro heq hu
      simp only [State.applyHost, if_pos hu] at he
      exact absurd heq (by simpa using (List.mem_filter.1 he).2)
    rcases Lib.update_eq_some hg₂ with ⟨heq, rfl⟩ | ⟨-, hg₂⟩
    · rw [heq, hg] at hg₁
      cases hg₁
      exact ⟨hmove.linked (hkept heq) hlinked, fun hun => absurd hun hmove.not_unstarted⟩
    · rw [hg₁] at hg₂
      cases hg₂
      exact ⟨hlinked, id⟩
  · obtain ⟨w, hw, heq⟩ := hworkers c w' hw'
    exact ⟨w, hw, heq ▸ hpc⟩
  · obtain ⟨w, hw, heq⟩ := hworkers c w' hw'
    exact ⟨w, hw, heq ▸ hs⟩

/-- A running host after a worker's move, which starts none. -/
theorem worker_hosts {c : ConnId} {w w' : GameWorker} {eff : WorkerEffect} {k : HostPtr}
    {g' : GameHost} (hmove : WorkerMove c s.workerView w w' eff)
    (hg' : (s.applyWorker c w' eff).hosts k = some g') (hrun : g'.Running) :
    (∃ g, s.hosts k = some g ∧ g.Running ∧ g'.serverIdx = g.serverIdx ∧ g'.pc = g.pc) ∨
      eff.act = some (k, .start) := by
  obtain ⟨-, -, -, -, hpc, -⟩ | ⟨g, hg, rfl⟩ := State.applyWorker_hosts hmove hg'
  · exact absurd hpc hrun.1
  · obtain ⟨hold, hpc⟩ | hstart := WorkerEffect.onHost_running hrun
    · exact .inl ⟨g, hg, hold, eff.onHost_serverIdx k g, hpc⟩
    · exact .inr hstart

/-- The worker publishes the host it is starting. -/
theorem publish {c : ConnId} {w w' : GameWorker} {eff : WorkerEffect} {e : UInt32 × HostPtr}
    (h : OneInv s past) (hask : AskInv (s.applyWorker c w' eff) past') (hw : s.workers c = some w)
    (hmove : WorkerMove c s.workerView w w' eff) (hpub : eff.publish = some e) :
    OneInv (s.applyWorker c w' eff) past' := by
  obtain ⟨hpc, hact⟩ := hmove.publishes hpub
  obtain ⟨hfree, hno, huniq⟩ := h.starts c w e.1 hw (by rw [hpc]; rfl)
  have hkeep := applyWorker_hostsKeep h.ask.start c w' eff
  have hon : ∀ k g, eff.onHost k g = g := fun k g => by simp [WorkerEffect.onHost, hact]
  have hhosts : ∀ k g', (s.applyWorker c w' eff).hosts k = some g' → g'.Running →
      ∃ g, s.hosts k = some g ∧ g.Running ∧ g'.serverIdx = g.serverIdx ∧ g'.pc = g.pc := by
    intro k g' hg' hrun
    obtain hold | hstart := worker_hosts hmove hg' hrun
    · exact hold
    · rw [hact] at hstart
      cases hstart
  have hruns : ∀ mcpId, s.NoneRuns mcpId → (s.applyWorker c w' eff).NoneRuns mcpId := by
    intro mcpId hno k g' hg' hrun
    obtain ⟨g, hg, hrun', hidx, -⟩ := hhosts k g' hg' hrun
    rw [hidx]
    exact hno k g hg hrun'
  have hfind : ∀ mcpId, mcpId ≠ e.1 → (s.applyWorker c w' eff).find mcpId = s.find mcpId :=
    fun mcpId hne => by rw [State.find_publish hpub, if_neg (Ne.symm hne)]
  have hself : w'.pc.starts = none := by
    cases hmove with
    | publish => rfl
    | _ => cases hpub
  refine ⟨hask, ?_, fun k g' hg' hrun hlinked => ?_, fun e' he' g' hg' => ?_,
    fun c' w₁ k g' hw₁ hpc₁ hg' => ?_, fun c' w₁ mcpId hw₁ hs => ?_,
    fun k k' g₁ g₂ hg₁ hg₂ hrun₁ hrun₂ heq => ?_⟩
  · simp only [State.applyWorker, hpub]
    refine List.pairwise_cons.2 ⟨fun e' he' => ?_, h.keys.sublist List.filter_sublist⟩
    exact Ne.symm (by simpa using (List.mem_filter.1 he').2)
  · obtain ⟨g, hg, hrun', hidx, hpc'⟩ := hhosts k g' hg' hrun
    rw [hidx, hfind _ (hno k g hg hrun')]
    exact h.linked k g hg hrun' ((GameHost.unlinked_congr hpc').not.1 hlinked)
  · simp only [State.applyWorker, hpub] at he'
    obtain rfl | he' := List.mem_cons.1 he'
    · obtain ⟨g, hg, hun⟩ := h.ask.start.starting c w e'.2 hw (by rw [hpc]; rfl)
      have heq := applyWorker_hosts_of_some h.ask.start hg c w' eff
      rw [hon] at heq
      rw [hg'] at heq
      cases heq
      exact ⟨⟨by simp [GameHost.Unlinked, hun], by simp [hun]⟩, fun _ => hruns _ hno⟩
    · obtain ⟨he', -⟩ := List.mem_filter.1 he'
      obtain ⟨g, hg, -⟩ := h.ask.linked e' he'
      have heq := applyWorker_hosts_of_some h.ask.start hg c w' eff
      rw [hon] at heq
      rw [hg'] at heq
      cases heq
      obtain ⟨hlinked, hno'⟩ := h.published e' he' _ hg
      exact ⟨hlinked, fun hun => hruns _ (hno' hun)⟩
  · rcases Lib.update_eq_some hw₁ with ⟨rfl, rfl⟩ | ⟨-, hw₁⟩
    · obtain ⟨mcpId, hpc₂, hpub₂⟩ := hmove.startLoad hpc₁
      obtain rfl : (mcpId, k) = e := Option.some.inj (hpub₂.symm.trans hpub)
      obtain ⟨g₁, hg₁, hidx⟩ := hask.linked (mcpId, k) (by
        simp only [State.applyWorker, hpub]
        exact List.mem_cons_self)
      have hg₁ : (s.applyWorker c' w₁ eff).hosts k = some g₁ := hg₁
      rw [hg'] at hg₁
      cases hg₁
      rw [hidx, State.find_publish hpub, if_pos rfl]
    · obtain ⟨g, hg, -⟩ := h.ask.start.starting c' w₁ k hw₁ (by rw [hpc₁]; rfl)
      obtain ⟨g₁, hg₁, hidx⟩ := hkeep k g hg
      rw [hg'] at hg₁
      cases hg₁
      have hold := h.loading c' w₁ k g hw₁ hpc₁ hg
      have hne : g.serverIdx ≠ e.1 := by
        intro heq
        rw [heq, hfree] at hold
        cases hold
      rw [hidx, hfind _ hne]
      exact hold
  · rcases Lib.update_eq_some hw₁ with ⟨rfl, rfl⟩ | ⟨hc, hw₁⟩
    · rw [hself] at hs
      cases hs
    · obtain ⟨hfree', hno', huniq'⟩ := h.starts c' w₁ mcpId hw₁ hs
      have hne : mcpId ≠ e.1 := by
        rintro rfl
        exact hc (huniq c' w₁ hw₁ hs)
      refine ⟨(hfind _ hne).trans hfree', hruns _ hno', fun c₂ w₂ hw₂ hs₂ => ?_⟩
      rcases Lib.update_eq_some hw₂ with ⟨rfl, rfl⟩ | ⟨-, hw₂⟩
      · rw [hself] at hs₂
        cases hs₂
      · exact huniq' c₂ w₂ hw₂ hs₂
  · obtain ⟨g₁', hg₁', hrun₁', hidx₁, -⟩ := hhosts k g₁ hg₁ hrun₁
    obtain ⟨g₂', hg₂', hrun₂', hidx₂, -⟩ := hhosts k' g₂ hg₂ hrun₂
    exact h.one k k' g₁' g₂' hg₁' hg₂' hrun₁' hrun₂' (by rw [← hidx₁, ← hidx₂, heq])

/-- The worker starts the host's thread. -/
theorem launch {c : ConnId} {w w' : GameWorker} {eff : WorkerEffect} {h₀ : HostPtr}
    (h : OneInv s past) (hask : AskInv (s.applyWorker c w' eff) past') (hw : s.workers c = some w)
    (hmove : WorkerMove c s.workerView w w' eff) (hact : eff.act = some (h₀, .start)) :
    OneInv (s.applyWorker c w' eff) past' := by
  obtain ⟨hpc, hpub, hself⟩ := hmove.starts_host hact
  obtain ⟨g₀, hg₀, -⟩ := h.ask.start.starting c w h₀ hw (by rw [hpc]; rfl)
  have hfind₀ := h.loading c w h₀ g₀ hw hpc hg₀
  have hno₀ := h.loading_none hw hpc hg₀
  have hkeep := applyWorker_hostsKeep h.ask.start c w' eff
  have hfind : ∀ mcpId, (s.applyWorker c w' eff).find mcpId = s.find mcpId :=
    fun mcpId => State.find_applyWorker hpub
  -- A running host ran before, or is the one started.
  have hhosts : ∀ k g', (s.applyWorker c w' eff).hosts k = some g' → g'.Running →
      (∃ g, s.hosts k = some g ∧ g.Running ∧ g'.serverIdx = g.serverIdx ∧ g'.pc = g.pc) ∨
        (k = h₀ ∧ g'.serverIdx = g₀.serverIdx) := by
    intro k g' hg' hrun
    obtain hold | hstart := worker_hosts hmove hg' hrun
    · exact .inl hold
    · obtain rfl : h₀ = k := congrArg Prod.fst (Option.some.inj (hact.symm.trans hstart))
      obtain ⟨g₁, hg₁, hidx⟩ := hkeep h₀ g₀ hg₀
      rw [hg'] at hg₁
      cases hg₁
      exact .inr ⟨rfl, hidx⟩
  have hruns : ∀ mcpId, g₀.serverIdx ≠ mcpId → s.NoneRuns mcpId →
      (s.applyWorker c w' eff).NoneRuns mcpId := by
    intro mcpId hne hno k g' hg' hrun
    obtain ⟨g, hg, hrun', hidx, -⟩ | ⟨-, hidx⟩ := hhosts k g' hg' hrun
    · rw [hidx]
      exact hno k g hg hrun'
    · rwa [hidx]
  have hmap : (s.applyWorker c w' eff).gameHosts = s.gameHosts := by
    simp only [State.applyWorker, hpub]
  refine ⟨hask, hmap ▸ h.keys, fun k g' hg' hrun hlinked => ?_, fun e he g' hg' => ?_,
    fun c' w₁ k g' hw₁ hpc₁ hg' => ?_, fun c' w₁ mcpId hw₁ hs => ?_,
    fun k k' g₁ g₂ hg₁ hg₂ hrun₁ hrun₂ heq => ?_⟩
  · rw [hfind]
    obtain ⟨g, hg, hrun', hidx, hpc'⟩ | ⟨rfl, hidx⟩ := hhosts k g' hg' hrun
    · rw [hidx]
      exact h.linked k g hg hrun' ((GameHost.unlinked_congr hpc').not.1 hlinked)
    · rw [hidx]
      exact hfind₀
  · rw [hmap] at he
    obtain ⟨g, hg, -⟩ := h.ask.linked e he
    have heq := applyWorker_hosts_of_some h.ask.start hg c w' eff
    rw [hg'] at heq
    cases heq
    by_cases hk : h₀ = e.2
    · have hpc' : (eff.onHost e.2 g).pc = .idle := by simp [WorkerEffect.onHost, hact, hk, HostAct.run]
      exact ⟨⟨by simp [GameHost.Unlinked, hpc'], by simp [hpc']⟩, fun hun => by simp [hpc'] at hun⟩
    · have hon : eff.onHost e.2 g = g := by simp [WorkerEffect.onHost, hact, hk]
      obtain ⟨hlinked, hno⟩ := h.published e he g hg
      rw [hon]
      refine ⟨hlinked, fun hun => hruns _ (fun hidx => ?_) (hno hun)⟩
      exact hk (State.find_unique h.keys hfind₀ (hidx ▸ he)).symm
  · rcases Lib.update_eq_some hw₁ with ⟨rfl, rfl⟩ | ⟨hc, hw₁⟩
    · obtain ⟨mcpId, -, hpub₂⟩ := hmove.startLoad hpc₁
      rw [hpub] at hpub₂
      cases hpub₂
    · obtain ⟨g, hg, -⟩ := h.ask.start.starting c' w₁ k hw₁ (by rw [hpc₁]; rfl)
      obtain ⟨g₁, hg₁, hidx⟩ := hkeep k g hg
      rw [hg'] at hg₁
      cases hg₁
      rw [hidx, hfind]
      exact h.loading c' w₁ k g hw₁ hpc₁ hg
  · rcases Lib.update_eq_some hw₁ with ⟨rfl, rfl⟩ | ⟨-, hw₁⟩
    · rw [hself] at hs
      cases hs
    · obtain ⟨hfree, hno, huniq⟩ := h.starts c' w₁ mcpId hw₁ hs
      have hne : g₀.serverIdx ≠ mcpId := by
        rintro rfl
        rw [hfind₀] at hfree
        cases hfree
      refine ⟨(hfind _).trans hfree, hruns _ hne hno, fun c₂ w₂ hw₂ hs₂ => ?_⟩
      rcases Lib.update_eq_some hw₂ with ⟨rfl, rfl⟩ | ⟨-, hw₂⟩
      · rw [hself] at hs₂
        cases hs₂
      · exact huniq c₂ w₂ hw₂ hs₂
  · obtain ⟨g₁', hg₁', hrun₁', hidx₁, -⟩ | ⟨rfl, hidx₁⟩ := hhosts k g₁ hg₁ hrun₁
    · obtain ⟨g₂', hg₂', hrun₂', hidx₂, -⟩ | ⟨rfl, hidx₂⟩ := hhosts k' g₂ hg₂ hrun₂
      · exact h.one k k' g₁' g₂' hg₁' hg₂' hrun₁' hrun₂' (by rw [← hidx₁, ← hidx₂, heq])
      · exact absurd (by rw [← hidx₁, heq, hidx₂]) (hno₀ k g₁' hg₁' hrun₁')
    · obtain ⟨g₂', hg₂', hrun₂', hidx₂, -⟩ | ⟨rfl, -⟩ := hhosts k' g₂ hg₂ hrun₂
      · exact absurd (by rw [← hidx₂, ← heq, hidx₁]) (hno₀ k' g₂' hg₂' hrun₂')
      · rfl

/-- A worker looks an age server up that has no host. -/
theorem miss {c : ConnId} {ch : Choice} {w : GameWorker} {mcpId : UInt32} (h : OneInv s past)
    (hok : LookupOk s (.worker c ch)) (hw : s.workers c = some w) (hpc : w.pc = .lookup mcpId)
    (hfind : s.find mcpId = none)
    (hask : AskInv (s.applyWorker c { w with pc := .startSelect mcpId } {}) past') :
    OneInv (s.applyWorker c { w with pc := .startSelect mcpId } {}) past' := by
  obtain ⟨hnobody, hdeleted⟩ := hok w mcpId hw hpc hfind
  have hhosts : (s.applyWorker c { w with pc := .startSelect mcpId } {}).hosts = s.hosts := by
    funext k
    show (s.hosts k).map _ = _
    cases s.hosts k <;> rfl
  have hno : s.NoneRuns mcpId := by
    rintro k g hg hrun rfl
    have hlinked := h.linked k g hg hrun (hdeleted k g hg rfl)
    rw [hfind] at hlinked
    cases hlinked
  refine ⟨hask, h.keys, fun k g hg => ?_, fun e he g hg => ?_, fun c' w₁ k g hw₁ hpc₁ hg => ?_,
    fun c' w₁ m hw₁ hs => ?_, fun k k' g₁ g₂ hg₁ hg₂ => ?_⟩
  · exact h.linked k g (hhosts ▸ hg)
  · obtain ⟨hlinked, hno'⟩ := h.published e he g (hhosts ▸ hg)
    exact ⟨hlinked, fun hun j g' hg' => hno' hun j g' (hhosts ▸ hg')⟩
  · rcases Lib.update_eq_some hw₁ with ⟨rfl, rfl⟩ | ⟨-, hw₁⟩
    · cases hpc₁
    · exact h.loading c' w₁ k g hw₁ hpc₁ (hhosts ▸ hg)
  · rcases Lib.update_eq_some hw₁ with ⟨rfl, rfl⟩ | ⟨-, hv₁⟩
    · cases hs
      refine ⟨hfind, fun j g' hg' => hno j g' (hhosts ▸ hg'), fun c₂ w₂ hw₂ hs₂ => ?_⟩
      rcases Lib.update_eq_some hw₂ with ⟨rfl, -⟩ | ⟨-, hw₂⟩
      · rfl
      · exact absurd hs₂ (hnobody c₂ w₂ hw₂)
    · obtain ⟨hfree, hno', huniq⟩ := h.starts c' w₁ m hv₁ hs
      refine ⟨hfree, fun j g' hg' => hno' j g' (hhosts ▸ hg'), fun c₂ w₂ hw₂ hs₂ => ?_⟩
      rcases Lib.update_eq_some hw₂ with ⟨rfl, rfl⟩ | ⟨-, hw₂⟩
      · cases hs₂
        exact absurd hs (hnobody c' w₁ hv₁)
      · exact huniq c₂ w₂ hw₂ hs₂
  · exact h.one k k' g₁ g₂ (hhosts ▸ hg₁) (hhosts ▸ hg₂)

/-- The other moves of a worker. -/
theorem calm {c : ConnId} {w w' : GameWorker} {eff : WorkerEffect} (h : OneInv s past)
    (hask : AskInv (s.applyWorker c w' eff) past') (hw : s.workers c = some w)
    (hmove : WorkerMove c s.workerView w w' eff) (hpub : eff.publish = none)
    (hact : ∀ k, eff.act ≠ some (k, .start))
    (hmiss : ∀ mcpId, w'.pc.starts = some mcpId → w.pc.starts = some mcpId) :
    OneInv (s.applyWorker c w' eff) past' := by
  have hmap : (s.applyWorker c w' eff).gameHosts = s.gameHosts := by
    simp only [State.applyWorker, hpub]
  refine h.keep hask (applyWorker_hostsKeep h.ask.start c w' eff) (fun k g' hg' hrun => ?_)
    (fun mcpId k hfind => .inl ?_) (fun mcpId hfind => ?_) ?_ (fun e he g g' hg hg' hlinked => ?_)
    (fun c' w₁ k hw₁ hpc₁ => ?_) fun c' w₁ mcpId hw₁ hs => ?_
  · obtain ⟨g, hg, hrun', hidx, hpc⟩ | hstart := worker_hosts hmove hg' hrun
    · exact ⟨g, hg, hrun', hidx, (GameHost.unlinked_congr hpc).2⟩
    · exact absurd hstart (hact k)
  · rwa [State.find_applyWorker hpub]
  · rwa [State.find_applyWorker hpub]
  · exact hmap ▸ List.Sublist.refl _
  · have heq := applyWorker_hosts_of_some h.ask.start hg c w' eff
    rw [hg'] at heq
    cases heq
    have hpc : (eff.onHost e.2 g).pc = g.pc := by
      refine WorkerEffect.onHost_pc fun act ha => ⟨?_, ?_⟩
      · rintro rfl
        exact hact _ ha
      · rintro rfl
        exact h.unpublished hw (hmove.free_unpublished ha).1 e (hmap ▸ he) rfl
    exact ⟨(GameHost.linked_congr hpc).2 hlinked,
      fun hun => hpc.symm.trans hun⟩
  · rcases Lib.update_eq_some hw₁ with ⟨rfl, rfl⟩ | ⟨-, hw₁⟩
    · obtain ⟨mcpId, -, hpub'⟩ := hmove.startLoad hpc₁
      rw [hpub] at hpub'
      cases hpub'
    · exact ⟨w₁, hw₁, hpc₁⟩
  · rcases Lib.update_eq_some hw₁ with ⟨rfl, rfl⟩ | ⟨-, hw₁⟩
    · exact ⟨w, hw, hmiss mcpId hs⟩
    · exact ⟨w₁, hw₁, hs⟩

theorem worker {c : ConnId} {ch : Choice} {w w' : GameWorker} {eff : WorkerEffect}
    (h : OneInv s past) (hok : LookupOk s (.worker c ch)) (hw : s.workers c = some w)
    (hmove : WorkerMove c s.workerView w w' eff) (hask : AskInv (s.applyWorker c w' eff) past') :
    OneInv (s.applyWorker c w' eff) past' := by
  cases hpub : eff.publish with
  | some e => exact h.publish hask hw hmove hpub
  | none =>
    by_cases hact : ∃ k, eff.act = some (k, .start)
    · obtain ⟨k, hact⟩ := hact
      exact h.launch hask hw hmove hact
    · by_cases hlook : ∃ mcpId, w.pc = .lookup mcpId ∧ s.find mcpId = none
      · obtain ⟨mcpId, hpc, hfind⟩ := hlook
        obtain ⟨rfl, rfl⟩ := hmove.misses hpc hfind
        exact h.miss hok hw hpc hfind hask
      · refine h.calm hask hw hmove hpub (fun k hk => hact ⟨k, hk⟩) fun mcpId hs => ?_
        obtain hold | hmiss := hmove.starts hs
        · exact hold
        · exact absurd ⟨mcpId, hmiss⟩ hlook

/-- A step in which hosts and workers go on as they were. -/
theorem still {f : HostPtr → GameHost → GameHost} (h : OneInv s past) (hask : AskInv s' past')
    (hhosts : ∀ k, s'.hosts k = (s.hosts k).map (f k))
    (hf : ∀ k g, (f k g).pc = g.pc ∧ (f k g).serverIdx = g.serverIdx)
    (hmap : s'.gameHosts = s.gameHosts)
    (hworkers : ∀ c w', s'.workers c = some w' → (w'.pc.starts = none ∧ ∀ k, w'.pc ≠ .startLoad k) ∨
      ∃ w, s.workers c = some w ∧ w'.pc = w.pc) : OneInv s' past' := by
  have hfind : ∀ mcpId, s'.find mcpId = s.find mcpId := fun mcpId => by rw [State.find, hmap]; rfl
  refine h.keep hask (hostsKeep_map hhosts fun k g => (hf k g).2) (fun k g' hg' hrun => ?_)
    (fun mcpId k hk => .inl ((hfind mcpId).trans hk)) (fun mcpId hk => (hfind mcpId).trans hk)
    (hmap ▸ List.Sublist.refl _) (fun e he g g' hg hg' hlinked => ?_) (fun c w' k hw' hpc => ?_)
    fun c w' mcpId hw' hs => ?_
  · rw [hhosts] at hg'
    obtain ⟨g, hg, rfl⟩ := Option.map_eq_some_iff.1 hg'
    obtain ⟨hpc, hidx⟩ := hf k g
    exact ⟨g, hg, ⟨hpc ▸ hrun.1, hpc ▸ hrun.2⟩, hidx, (GameHost.unlinked_congr hpc).2⟩
  · rw [hhosts, hg] at hg'
    cases hg'
    obtain ⟨hpc, -⟩ := hf e.2 g
    exact ⟨(GameHost.linked_congr hpc).2 hlinked,
      fun hun => hpc.symm.trans hun⟩
  · obtain ⟨-, hload⟩ | ⟨w, hw, heq⟩ := hworkers c w' hw'
    · exact absurd hpc (hload k)
    · exact ⟨w, hw, heq ▸ hpc⟩
  · obtain ⟨hnone, -⟩ | ⟨w, hw, heq⟩ := hworkers c w' hw'
    · rw [hnone] at hs
      cases hs
    · exact ⟨w, hw, heq ▸ hs⟩

theorem daemon (h : OneInv s past) (hmove : DaemonMove s s') (hask : AskInv s' past') :
    OneInv s' past' := by
  have hkeep : ∀ c w', s.workers c = some w' → (w'.pc.starts = none ∧ ∀ k, w'.pc ≠ .startLoad k) ∨
      ∃ w, s.workers c = some w ∧ w'.pc = w.pc := fun c w' hw' => .inr ⟨w', hw', rfl⟩
  cases hmove with
  | @host r k rest ok =>
    refine h.still (f := fun k' g => if k' = k then { g with authReply := some ok } else g) hask
      (fun _ => rfl) (fun k' g => ?_) rfl hkeep
    split <;> exact ⟨rfl, rfl⟩
  | @worker r c rest ok =>
    refine h.still (f := fun _ g => g) hask (fun k => Option.map_id'.symm)
      (fun _ _ => ⟨rfl, rfl⟩) rfl fun c' w' hw' => ?_
    obtain ⟨w, hw, rfl⟩ := Option.map_eq_some_iff.1 hw'
    refine .inr ⟨w, hw, ?_⟩
    split <;> rfl
  | @forward mcpId k hd hm hfind =>
    refine h.still (f := fun k' g => if k' = k then (HostAct.put .localSdl).run g else g) hask
      (fun _ => rfl) (fun k' g => ?_) rfl hkeep
    split <;> exact ⟨rfl, rfl⟩
  | @global age hd hm =>
    refine h.still (f := fun k' g => if (s.gameHosts.any fun e => e.2 = k') &&
      (decide (g.ageFilename = age)) then { g with queue := g.queue ++ [.globalSdl] } else g) hask
      (fun _ => rfl) (fun k' g => ?_) rfl hkeep
    split <;> exact ⟨rfl, rfl⟩
  | client | miss | back =>
    exact h.still (f := fun _ g => g) hask (fun k => Option.map_id'.symm)
      (fun _ _ => ⟨rfl, rfl⟩) rfl hkeep

theorem step {e : Event} (h : OneInv s past) (hok : LookupOk s e)
    (hs : GameServ.step s e = some s') : OneInv s' ((s, e) :: past) := by
  have hask := h.ask.step hs
  have hsame : ∀ k, s.hosts k = (s.hosts k).map fun g => g := fun k => Option.map_id'.symm
  cases step_happens hs with
  | accept hw =>
    refine h.still (f := fun _ g => g) hask hsame (fun _ _ => ⟨rfl, rfl⟩) rfl fun c' w' hw' => ?_
    rcases Lib.update_eq_some hw' with ⟨rfl, rfl⟩ | ⟨-, hw'⟩
    · exact .inl ⟨rfl, by simp⟩
    · exact .inr ⟨w', hw', rfl⟩
  | @recvJoin c mcpId playerId w hw hidle =>
    refine h.still (f := fun _ g => g) hask (fun k => ?_) (fun _ _ => ⟨rfl, rfl⟩) rfl
      fun c' w' hw' => ?_
    · show (s.hosts k).map _ = _
      cases s.hosts k <;> rfl
    · rcases Lib.update_eq_some hw' with ⟨rfl, rfl⟩ | ⟨-, hw'⟩
      · left
        unfold GameWorker.asks
        split <;> simp [hidle, WorkerPc.starts]
      · exact .inr ⟨w', hw', rfl⟩
  | recvMsg hw hidle hops hh =>
    exact h.calm hask hw (.recvMsg hidle hops hh) rfl (by simp) (by simp [WorkerPc.starts])
  | leave hw hidle he =>
    exact h.calm hask hw (.hangup hidle) rfl (by simp) (by simp [WorkerPc.starts])
  | worker hw _ _ hmove => exact h.worker hok hw hmove hask
  | host hg hmove => exact h.host hask hg hmove
  | daemon _ hmove => exact h.daemon hmove hask
  | authRequest =>
    exact h.still (f := fun _ g => g) hask hsame (fun _ _ => ⟨rfl, rfl⟩) rfl
      fun c w' hw' => .inr ⟨w', hw', rfl⟩
  | serverShutdown =>
    refine h.still (f := fun k g => if (s.gameHosts.any fun e => e.2 = k) && true then
      { g with queue := g.queue ++ [.shutdown false] } else g) hask (fun _ => rfl) (fun k g => ?_) rfl
      fun c w' hw' => .inr ⟨w', hw', rfl⟩
    split <;> exact ⟨rfl, rfl⟩

/-- The host that a worker has found is in `s_gameHosts`. -/
theorem found {c : ConnId} {w w' : GameWorker} {eff : WorkerEffect} {k : HostPtr} {g₀ : GameHost}
    (h : OneInv s past) (h' : OneInv (s.applyWorker c w' eff) past') (hw : s.workers c = some w)
    (hmove : WorkerMove c s.workerView w w' eff) (hpc : w'.pc = .found k)
    (hg₀ : (s.applyWorker c w' eff).hosts k = some g₀) :
    (s.applyWorker c w' eff).find g₀.serverIdx = some k := by
  obtain ⟨mcpId, -, hfind, rfl⟩ | ⟨hload, rfl⟩ := hmove.found hpc
  · obtain ⟨g₁, hg₁, rfl⟩ := h.ask.find hfind
    obtain ⟨g₂, hg₂, hidx₂⟩ := applyWorker_hostsKeep h.ask.start c w' {} k g₁ hg₁
    rw [hg₀] at hg₂
    cases hg₂
    rw [hidx₂]
    exact hfind
  · obtain ⟨g₁, hg₁, -⟩ := h.ask.start.starting c w k hw (by rw [hload]; rfl)
    have heq := applyWorker_hosts_of_some h.ask.start hg₁ c w' { act := some (k, .start) }
    have hidle : g₀.pc = .idle := by
      rw [Option.some.inj (hg₀.symm.trans heq)]
      simp [WorkerEffect.onHost, HostAct.run]
    refine h'.linked k g₀ hg₀ ⟨by simp [hidle], by simp [hidle]⟩ ?_
    rintro ⟨b, hb⟩
    simp [hidle] at hb

end OneInv

theorem oneInv_of_reachable {p : State × Past}
    (h : machine.withHistory.ReachableWith (fun p e => LookupOk p.1 e) p) : OneInv p.1 p.2 := by
  refine Lib.Machine.withHistory_invariant (I := OneInv) ?_ ?_ h
  · rintro s rfl
    exact .initial
  · intro s past e s' hinv hok hs
    exact hinv.step hok hs

/-- **An age server has one host.**  In a run whose steps all meet the condition
there is never more than one running host for an age server, and what
`find_game_host` returns while there is one is that host. -/
theorem one_host {p : State × Past}
    (h : machine.withHistory.ReachableWith (fun p e => LookupOk p.1 e) p) :
    OneHostPerAge p.1 ∧ ∀ c ch s', LookupOk p.1 (.worker c ch) →
      step p.1 (.worker c ch) = some s' → ∀ w' k, s'.workers c = some w' → w'.pc = .found k →
      ∃ mcpId playerId, latestJoin c p.2 = some (mcpId, playerId) ∧
        ∀ h g, s'.hosts h = some g → g.Running → g.serverIdx = mcpId → h = k := by
  obtain ⟨s, past⟩ := p
  have hinv : OneInv s past := oneInv_of_reachable h
  refine ⟨hinv.one, fun c ch s' hok hs w' k hw' hpc => ?_⟩
  have hinv' := hinv.step hok hs
  obtain ⟨-, g₀, hg₀, hlatest⟩ := hinv'.ask.joins c w' k hw' (by simp [GameWorker.joins, hpc])
  refine ⟨g₀.serverIdx, w'.playerId, hlatest, fun j g hg hrun hidx => ?_⟩
  have hfind : s'.find g₀.serverIdx = some k := by
    cases step_happens hs with
    | leave _ _ he => rcases he with he | ⟨ops, he⟩ <;> cases he
    | @worker _ _ w w₁ eff hw _ _ hmove =>
      have hself : (s.applyWorker c w₁ eff).workers c = some w₁ := Function.update_self ..
      obtain rfl : w₁ = w' := Option.some.inj (hself.symm.trans hw')
      exact hinv.found hinv' hw hmove hpc hg₀
  exact hinv'.the_host hfind hg₀ hg hrun hidx

/-! ## Two runs -/

section Runs

/-- The step looks no age up. -/
def State.noLookup (s : State) : Event → Bool
  | .worker c _ => match (s.workers c).map GameWorker.pc with
    | some (.lookup _) => false
    | _ => true
  | _ => true

theorem lookupOk_of_noLookup (s : State) (e : Event) (h : s.noLookup e = true) : LookupOk s e := by
  cases e with
  | worker c ch =>
    intro w mcpId hw hpc
    simp [State.noLookup, hw, hpc] at h
  | _ => trivial

/-- A worker looks an age up that has no host, and starts one. -/
def startAge : List Event :=
  [.accept 0, .recvJoin 0 1 7, .worker 0 {}, .worker 0 {}, .daemon {}, .worker 0 {}, .worker 0 {}]

/-- The worker of the first player finds the host that it has started. -/
theorem one_host_started : ∃ p s', machine.withHistory.run (.initial, []) startAge = some p ∧
    OneHostPerAge p.1 ∧ step p.1 (.worker 0 {}) = some s' ∧
    ∀ h g, s'.hosts h = some g → g.Running → g.serverIdx = 1 → h = 0 := by
  have hok : machine.OkRun LookupOk .initial startAge := by
    refine ⟨trivial, trivial, ?_, Lib.Machine.okRun_of_allRun lookupOk_of_noLookup (by decide)⟩
    rintro w mcpId hw hpc -
    refine ⟨fun c w' hw' => ?_, fun h g hg => (nomatch hg)⟩
    obtain ⟨rfl, rfl⟩ | ⟨hc, hw'⟩ := Lib.update_eq_some hw'
    · simp [WorkerPc.starts]
    · obtain ⟨rfl, -⟩ | ⟨-, hw'⟩ := Lib.update_eq_some hw'
      · exact absurd rfl hc
      · cases hw'
  have hstart : machine.withHistory.start (.initial, []) := ⟨rfl, rfl⟩
  obtain ⟨p, hrun, hp⟩ := (Lib.Machine.ReachableWith.start hstart).run (hok.withHistory [])
  obtain ⟨hone, hfound⟩ := one_host hp
  obtain rfl := Option.some.inj hrun
  obtain ⟨mcpId, playerId, hlatest, hsame⟩ :=
    hfound 0 {} _ (lookupOk_of_noLookup _ _ rfl) rfl _ 0 rfl rfl
  cases hlatest
  exact ⟨_, _, hrun, hone, rfl, hsame⟩

/-- **Two hosts for one age.**  Two players ask for an age that has no host, and
both workers find none. -/
theorem two_hosts : ¬ ∀ s, machine.Reachable s → OneHostPerAge s := by
  intro hall
  have hend : (machine.run .initial [.accept 0, .accept 1, .recvJoin 0 1 7, .recvJoin 1 1 8,
      .worker 0 {}, .worker 1 {}, .worker 0 {}, .worker 1 {}, .daemon {}, .daemon {}, .worker 0 {},
      .worker 1 {}, .worker 0 {}, .worker 1 {}, .worker 0 {}, .worker 1 {}]).map (fun s =>
        ((s.hosts 0).map fun g => (g.serverIdx, g.pc),
          (s.hosts 1).map fun g => (g.serverIdx, g.pc))) =
      some (some (1, .idle), some (1, .idle)) := by decide
  obtain ⟨s, hrun, hs⟩ := Option.map_eq_some_iff.1 hend
  simp only [Prod.mk.injEq, Option.map_eq_some_iff] at hs
  obtain ⟨⟨g, hg, hidx, hpc⟩, ⟨g', hg', hidx', hpc'⟩⟩ := hs
  have hreach := Lib.Machine.run_reachable (.start rfl) hrun
  have hsame := hall s hreach 0 1 g g' hg hg' ⟨by simp [hpc], by simp [hpc]⟩
    ⟨by simp [hpc'], by simp [hpc']⟩ (hidx.trans hidx'.symm)
  cases hsame

end Runs

end Dirtsand.GameServ
