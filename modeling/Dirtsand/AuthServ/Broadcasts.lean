import Dirtsand.AuthServ.Script
import Dirtsand.AuthServ.VaultTree

/-!
# Broadcasts

The loops of the daemon over its clients and over the rows of a result, where the
statements are carried out.

* `bcastTo_ensures` — a broadcast asks for every client whether it has the node, and goes
  to those that can reach it.
* `bcastTo_yields` — it goes through where `v_has_node` returns.
-/

namespace Dirtsand.AuthServ

open Lib.Prog Daemon
open Db (Tables Below)

variable {hoodUserName : String} {d : Tables} {s : DaemonState} {α β : Type}

/-- The loop of programs that leave everything as it is. -/
theorem collect_returns {serves : Tables → CallSite × Statement → QueryOutcome → Tables → Prop}
    {f : α → DM β} [∀ a, Steady (f a)] {P : α → β → Prop} (l : List α)
    (h : ∀ a ∈ l, Ensures serves d s (f a) (Returns d s (P a))) :
    Ensures serves d s (collect f l) (Returns d s fun bs => List.Forall₂ P l bs) := by
  induction l with
  | nil => exact ensures_pure ⟨rfl, rfl, rfl, [], rfl, .nil⟩
  | cons a l ih =>
    unfold collect
    refine ensures_bind ((h a List.mem_cons_self).mono fun x d₁ s₁ out hpost => ?_)
    obtain ⟨rfl, rfl, rfl, b, rfl, hb⟩ := hpost
    have hrest := ih fun a ha => h a (List.mem_cons_of_mem _ ha)
    refine ensures_bind (hrest.mono fun x d₁ s₁ out hpost => ?_)
    obtain ⟨rfl, rfl, rfl, bs, rfl, hbs⟩ := hpost
    exact ensures_pure ⟨rfl, rfl, rfl, b :: bs, rfl, .cons hb hbs⟩

/-- The client is told about what happens to the node: it is in the tree of its age or of its
player. -/
def Told (d : Tables) (client : AuthClient) (nodeIdx : UInt32) : Prop :=
  (client.ageNodeId ≠ 0 ∧
    (nodeIdx = client.ageNodeId ∨ Below d.refs client.ageNodeId.toInt32 nodeIdx.toInt32)) ∨
  (client.player.playerId ≠ 0 ∧ (nodeIdx = client.player.playerId ∨
    Below d.refs client.player.playerId.toInt32 nodeIdx.toInt32))

/-- The body of the loop of the broadcasts. -/
def isTold (s : DaemonState) (nodeIdx : UInt32) (c : ConnId) : DM Bool := do
  let client := s.clients c
  if ← vHasNode client.ageNodeId nodeIdx then return true
  vHasNode client.player.playerId nodeIdx

instance {nodeIdx : UInt32} {c : ConnId} : Steady (isTold s nodeIdx c) := by
  unfold isTold
  infer_instance

theorem isTold_ensures (c : ConnId) (nodeIdx : UInt32) :
    Ensures (Succeeds hoodUserName) d s (isTold s nodeIdx c) <| Returns d s fun told =>
      told = true ↔ Told d (s.clients c) nodeIdx := by
  unfold isTold Told
  refine ensures_bind ((vHasNode_ensures _ _).mono fun x d₁ s₁ out hpost => ?_)
  obtain ⟨rfl, rfl, rfl, found, rfl, hfound⟩ := hpost
  refine ensures_ite (fun h => ?_) fun h => ?_
  · exact ensures_pure ⟨rfl, rfl, rfl, true, rfl, iff_of_true rfl (.inl (hfound.1 h))⟩
  · refine (vHasNode_ensures _ _).mono fun x d₁ s₁ out hpost => ?_
    obtain ⟨rfl, rfl, rfl, found', rfl, hfound'⟩ := hpost
    refine ⟨rfl, rfl, rfl, found', rfl, hfound'.trans ?_⟩
    rw [or_iff_right (mt hfound.2 h)]

instance {nodeIdx : UInt32} : Steady (bcastTo nodeIdx) := by
  unfold bcastTo
  infer_instance

theorem bcastTo_ensures (nodeIdx : UInt32) : Ensures (Succeeds hoodUserName) d s (bcastTo nodeIdx)
    (Returns d s fun _ => True) := by
  unfold bcastTo
  refine ensures_bind (ensures_get ?_)
  show Ensures _ _ _ (collect (isTold s nodeIdx) s.authClients >>= fun _ => pure ()) _
  refine ensures_bind ((collect_returns _ fun c _ => isTold_ensures c nodeIdx).mono
    fun x d₁ s₁ out hpost => ?_)
  obtain ⟨rfl, rfl, rfl, bs, rfl, -⟩ := hpost
  exact ensures_pure ⟨rfl, rfl, rfl, (), rfl, trivial⟩

/-- A broadcast goes through where `v_has_node` returns. -/
theorem bcastTo_yields {serves : Tables → CallSite × Statement → QueryOutcome → Tables → Prop}
    {nodeIdx : UInt32} (h : ∀ c ∈ s.authClients,
      ∀ parentId ∈ [(s.clients c).ageNodeId, (s.clients c).player.playerId], ∃ found,
        Yields serves d s (vHasNode parentId nodeIdx) (.ret found) d s []) :
    Yields serves d s (bcastTo nodeIdx) (.ret ()) d s [] := by
  have hclient (c : ConnId) (hc : c ∈ s.authClients) : ∃ told,
      Yields serves d s (isTold s nodeIdx c) (.ret told) d s [] := by
    obtain ⟨found, hfound⟩ := h c hc _ List.mem_cons_self
    cases found with
    | true => exact ⟨true, hfound.bind (yields_pure true)⟩
    | false =>
      obtain ⟨told, htold⟩ := h c hc _ (List.mem_cons_of_mem _ List.mem_cons_self)
      exact ⟨told, hfound.bind htold⟩
  have hall (l : List ConnId) (hl : l ⊆ s.authClients) : ∃ told,
      Yields serves d s (collect (isTold s nodeIdx) l) (.ret told) d s [] := by
    induction l with
    | nil => exact ⟨[], yields_pure []⟩
    | cons c l ih =>
      obtain ⟨hc, hl⟩ := List.cons_subset.1 hl
      obtain ⟨told, htold⟩ := hclient c hc
      obtain ⟨rest, hrest⟩ := ih hl
      exact ⟨told :: rest, htold.bind (hrest.bind (yields_pure _))⟩
  obtain ⟨told, htold⟩ := hall s.authClients (List.Subset.refl _)
  unfold bcastTo
  exact yields_get.bind (htold.bind (yields_pure ()))

instance {nodeIdx : UInt32} {revision : Uuid} : Steady (dmAuthBcastNode nodeIdx revision) :=
  inferInstanceAs (Steady (bcastTo nodeIdx))

instance {ref : Vault.NodeRef} : Steady (dmAuthBcastRef ref) :=
  inferInstanceAs (Steady (bcastTo ref.parent))

instance {ref : Vault.NodeRef} : Steady (dmAuthBcastUnref ref) :=
  inferInstanceAs (Steady (bcastTo ref.parent))

instance {result : PGresult} : Steady (bcastRows result) := by
  unfold bcastRows
  infer_instance

/-- The body of the loop over the nodes that an `UPDATE` has changed. -/
def bcastRow (result : PGresult) (i : Nat) : DM Unit := do
  let nodeid ← numAt result i 0
  dmAuthBcastNode nodeid (← genUuid .handler)

instance {result : PGresult} {i : Nat} : Steady (bcastRow result i) := by
  unfold bcastRow
  infer_instance

theorem bcastRows_ensures {q : Statement} (hq : q.columns = 1) (ids : List Int32) :
    Ensures (Succeeds hoodUserName) d s (bcastRows (rowsOf q (idxRows ids)))
      (Returns d s fun _ => True) := by
  have hrow (i : Nat) (hi : i ∈ List.range (rowsOf q (idxRows ids)).ntuples) :
      Ensures (Succeeds hoodUserName) d s (bcastRow (rowsOf q (idxRows ids)) i)
        (Returns d s fun _ => True) := by
    have hlt : i < ids.length := by
      rw [List.mem_range, PGresult.ntuples, idxRows, List.length_map] at hi
      exact hi
    have hread : numAt (rowsOf q (idxRows ids)) i 0 = pure ids[i].toUInt32 := by
      have hrow : (idxRows ids)[i]? = some (cells [intCell ids[i]]) := by
        rw [idxRows, List.getElem?_map, List.getElem?_eq_getElem hlt]
        rfl
      exact numAt_rowsOf hrow (hq ▸ Nat.zero_lt_one) rfl
    rw [bcastRow, hread, Lib.Prog.pure_bind]
    refine ensures_bind (genUuid_ensures.mono fun x d₁ s₁ out hpost => ?_)
    obtain ⟨rfl, rfl, -, hd, hx⟩ := hpost
    obtain rfl := hd.resolve_right not_failing
    obtain ⟨uuid, rfl, -⟩ | ⟨-, hfails⟩ := hx
    · exact bcastTo_ensures _
    · exact absurd hfails not_failing
  show Ensures _ _ _ (collect (bcastRow _) _ >>= fun _ => pure ()) _
  refine ensures_bind ((collect_returns _ hrow).mono fun x d₁ s₁ out hpost => ?_)
  obtain ⟨rfl, rfl, rfl, bs, rfl, -⟩ := hpost
  exact ensures_pure ⟨rfl, rfl, rfl, (), rfl, trivial⟩

end Dirtsand.AuthServ
