import Dirtsand.AuthServ.Script
import Dirtsand.Db.Tree

/-!
# The numbers of the vault

A node has the number that the sequence gave it, and a reference is between two numbers.

* `carryOut_vault` — what a statement does to the nodes and references: it adds one, or
  leaves the numbers of the nodes and takes away references at most.
* `SoundVault` — the numbers are what they should be, and the references have no cycle.
* `SoundVault.carryOut` — a statement keeps that, unless it is a reference that closes a cycle.
-/

namespace Dirtsand.AuthServ

open Db (Tables RefRow NodeRow Acyclic Reaches inRange inRange_eq_some)

variable {d d' d₁ : Tables} {q : Statement} {a : QueryOutcome}

/-! ## Numbers -/

theorem toInt_nodeId {n : Nat} (h : n < 2 ^ 31) : (nodeId n).toInt32.toInt = n := by
  rw [UInt32.toInt32_ofNat', ← Int32.ofInt_eq_ofNat, Int32.toInt_ofInt_of_le (by omega) (by omega)]

theorem toInt_toInt32 {n : UInt32} (h : n.toNat < 2 ^ 31) : n.toInt32.toInt = n.toNat := by
  have hn : nodeId n.toNat = n := UInt32.ofNat_toNat
  rw [← hn, toInt_nodeId h, hn]

/-! ## Statements that add no row to the vault -/

/-- The nodes keep their numbers, and no reference is new. -/
structure Thinned (d d' : Tables) : Prop where
  nodes : d'.nodes.map (·.idx) = d.nodes.map (·.idx)
  refs : d'.refs ⊆ d.refs
  nextNode : d.nextNode ≤ d'.nextNode

theorem Thinned.refl (d : Tables) : Thinned d d := ⟨rfl, fun _ h => h, Nat.le_refl _⟩

theorem Thinned.trans (h : Thinned d d₁) (h' : Thinned d₁ d') : Thinned d d' :=
  ⟨h'.nodes.trans h.nodes, fun _ hmem => h.refs (h'.refs hmem), h.nextNode.trans h'.nextNode⟩

theorem thinned_of_sameRows (h : d.SameRows d') : Thinned d d' :=
  ⟨by rw [h.nodes], by rw [h.refs]; exact fun _ hmem => hmem, h.nextNode⟩

theorem thinned_updateNodes (p : NodeRow → Bool) (f : Vault.Node → Vault.Node) :
    Thinned d (updateNodes d p f) := by
  refine ⟨?_, fun _ h => h, Nat.le_refl _⟩
  rw [updateNodes, List.map_map]
  refine List.map_congr_left fun row _ => ?_
  show (if p row then ({ row with node := f row.node } : NodeRow) else row).idx = row.idx
  split <;> rfl

theorem thinned_markPlayer {playerId : UInt32} {f : Vault.Node → Vault.Node}
    (h : markPlayer d playerId f = some (a, d')) : Thinned d d' := by
  obtain ⟨_, -, h⟩ := Option.bind_eq_some_iff.1 h
  cases h
  exact thinned_updateNodes _ _

theorem thinned_setVisible {nodeid : UInt32} {visible : Int}
    (h : setVisible d nodeid visible = some (a, d')) : Thinned d d' := by
  obtain ⟨_, -, h⟩ := Option.bind_eq_some_iff.1 h
  cases h
  exact thinned_updateNodes _ _

theorem thinned_insertServerRow {ageUuid : Uuid} {ageFilename displayName : String}
    {ageIdx sdlIdx : UInt32} {temporary : Bool} {row : Db.ServerRow}
    (h : insertServerRow d ageUuid ageFilename displayName ageIdx sdlIdx temporary =
      some (row, d')) : Thinned d d' := by
  obtain ⟨-, rfl⟩ := insertServerRow_eq_some h
  exact ⟨rfl, fun _ h => h, Nat.le_refl _⟩

theorem thinned_updatePoints {scoreId : Int32} {f : Int32 → Option Int32}
    (h : Db.updatePoints scoreId f d = some d') : Thinned d d' := by
  rw [Db.updatePoints] at h
  split at h
  · cases h
    exact ⟨rfl, fun _ h => h, Nat.le_refl _⟩
  · cases h

theorem thinned_createScore {ownerId scoreType points idx : Int32} {scoreName : String}
    (h : Db.createScore ownerId scoreType scoreName points d = some (idx, d')) : Thinned d d' := by
  rw [Db.createScore] at h
  split at h
  · cases h
    exact .refl _
  · obtain ⟨_, -, h⟩ := Option.bind_eq_some_iff.1 h
    obtain ⟨_, -, h⟩ := Option.bind_eq_some_iff.1 h
    cases h
    exact ⟨rfl, fun _ h => h, Nat.le_refl _⟩

theorem thinned_addScorePoints {scoreId points : Int32} {allowNegative done : Bool}
    (h : Db.addScorePoints scoreId points allowNegative d = some (done, d')) : Thinned d d' := by
  obtain ⟨enough, -, h⟩ := Option.bind_eq_some_iff.1 h
  split at h
  all_goals
    obtain ⟨_, hpoints, h⟩ := Option.bind_eq_some_iff.1 h
    cases h
    exact thinned_updatePoints hpoints

theorem thinned_transferScorePoints {srcScoreId dstScoreId numPoints : Int32}
    {allowNegative done : Bool}
    (h : Db.transferScorePoints srcScoreId dstScoreId numPoints allowNegative d = some (done, d')) :
    Thinned d d' := by
  obtain ⟨enough, -, h⟩ := Option.bind_eq_some_iff.1 h
  split at h
  · obtain ⟨_, hsrc, h⟩ := Option.bind_eq_some_iff.1 h
    obtain ⟨_, hdst, h⟩ := Option.bind_eq_some_iff.1 h
    cases h
    exact (thinned_updatePoints hsrc).trans (thinned_updatePoints hdst)
  · cases h
    exact .refl _

/-- The statement adds a row to `vault."Nodes"` or `vault."NodeRefs"`. -/
def Statement.growsVault : Statement → Bool
  | .createNode _ | .refNode .. => true
  | _ => false

theorem carryOut_thinned (hq : q.growsVault = false) (h : carryOut d q = some (a, d')) :
    Thinned d d' := by
  revert h
  cases q with
  | createNode | refNode => cases hq
  | markOffline | markOnline =>
    intro h
    rw [carryOut] at h
    exact thinned_markPlayer h
  | markInAge =>
    intro h
    obtain ⟨_, -, h⟩ := Option.bind_eq_some_iff.1 h
    exact thinned_markPlayer h
  | setPublic | setPrivate => exact thinned_setVisible
  | insertTempServer | insertServer =>
    intro h
    rw [carryOut] at h
    obtain ⟨⟨_, _⟩, hrow, h⟩ := Option.bind_eq_some_iff.1 h
    cases h
    exact thinned_insertServerRow hrow
  | insertPlayer =>
    intro h
    iterate 4 obtain ⟨_, -, h⟩ := Option.bind_eq_some_iff.1 h
    cases h
    exact ⟨rfl, fun _ h => h, Nat.le_refl _⟩
  | deletePlayer =>
    intro h
    obtain ⟨_, -, h⟩ := Option.bind_eq_some_iff.1 h
    cases h
    exact ⟨rfl, fun _ h => h, Nat.le_refl _⟩
  | deleteChildRefs =>
    intro h
    obtain ⟨_, -, h⟩ := Option.bind_eq_some_iff.1 h
    cases h
    exact ⟨rfl, List.filter_subset_self _, Nat.le_refl _⟩
  | unrefNode =>
    intro h
    iterate 2 obtain ⟨_, -, h⟩ := Option.bind_eq_some_iff.1 h
    cases h
    exact ⟨rfl, List.filter_subset_self _, Nat.le_refl _⟩
  | updateNode =>
    intro h
    iterate 2 obtain ⟨_, -, h⟩ := Option.bind_eq_some_iff.1 h
    cases h
    exact thinned_updateNodes _ _
  | createScore =>
    intro h
    iterate 2 obtain ⟨_, -, h⟩ := Option.bind_eq_some_iff.1 h
    obtain ⟨⟨_, _⟩, hscore, h⟩ := Option.bind_eq_some_iff.1 h
    cases h
    exact thinned_createScore hscore
  | addScorePoints =>
    intro h
    obtain ⟨_, -, h⟩ := Option.bind_eq_some_iff.1 h
    obtain ⟨⟨_, _⟩, hscore, h⟩ := Option.bind_eq_some_iff.1 h
    cases h
    exact thinned_addScorePoints hscore
  | transferScorePoints =>
    intro h
    iterate 3 obtain ⟨_, -, h⟩ := Option.bind_eq_some_iff.1 h
    obtain ⟨⟨_, _⟩, hscore, h⟩ := Option.bind_eq_some_iff.1 h
    cases h
    exact thinned_transferScorePoints hscore
  | setScorePoints =>
    intro h
    obtain ⟨_, -, h⟩ := Option.bind_eq_some_iff.1 h
    obtain ⟨_, hscore, h⟩ := Option.bind_eq_some_iff.1 h
    cases h
    exact thinned_updatePoints hscore
  | _ =>
    intro h
    cases h

/-! ## Sound vaults -/

/-- Every node has a number of its own that was given out, and so were those of the references. -/
structure Numbered (d : Tables) : Prop where
  pos : 0 < d.nextNode
  given : ∀ row ∈ d.nodes, 0 ≤ row.idx.toInt ∧ row.idx.toInt < d.nextNode
  once : (d.nodes.map (·.idx)).Nodup
  known : ∀ ref ∈ d.refs, ref.parentIdx.toInt < d.nextNode ∧ ref.childIdx.toInt < d.nextNode

/-- A vault as it should be: numbered, and without a cycle. -/
structure SoundVault (d : Tables) : Prop extends Numbered d where
  acyclic : Acyclic d.refs

theorem Numbered.thinned (h : Numbered d) (hthin : Thinned d d') : Numbered d' := by
  have hnext := hthin.nextNode
  refine ⟨Nat.lt_of_lt_of_le h.pos hnext, fun row hrow => ?_, ?_, fun ref href => ?_⟩
  · have hidx : row.idx ∈ d.nodes.map (·.idx) := by
      rw [← hthin.nodes]
      exact List.mem_map_of_mem hrow
    obtain ⟨old, hold, hsame⟩ := List.mem_map.1 hidx
    have hgiven := h.given old hold
    rw [← hsame]
    omega
  · rw [hthin.nodes]
    exact h.once
  · obtain ⟨hparent, hchild⟩ := h.known ref (hthin.refs href)
    omega

theorem SoundVault.thinned (h : SoundVault d) (hthin : Thinned d d') : SoundVault d' :=
  ⟨h.toNumbered.thinned hthin, Lib.Graph.Acyclic.mono hthin.refs h.acyclic⟩

theorem Numbered.createNode {node : Vault.Node} (h : Numbered d)
    (hq : carryOut d (.createNode node) = some (a, d')) : Numbered d' := by
  obtain ⟨idx, stored, hidx, -, -, rfl⟩ := carryOut_createNode hq
  have hnew : idx.toInt = d.nextNode := inRange_eq_some.1 hidx
  refine ⟨Nat.succ_pos _, fun row hrow => ?_, ?_, fun ref href => ?_⟩
  · obtain hrow | hrow := List.mem_append.1 hrow
    · have hgiven := h.given row hrow
      push_cast
      omega
    · rw [List.mem_singleton.1 hrow]
      show 0 ≤ idx.toInt ∧ idx.toInt < ((d.nextNode + 1 : Nat) : Int)
      omega
  · rw [List.map_append, List.map_singleton, List.nodup_append]
    refine ⟨h.once, List.nodup_singleton _, ?_⟩
    rintro idx' hidx' _ hsingle rfl
    obtain ⟨row, hrow, rfl⟩ := List.mem_map.1 hidx'
    have hgiven := h.given row hrow
    have hsame : row.idx = idx := List.mem_singleton.1 hsingle
    rw [hsame] at hgiven
    omega
  · have hknown := h.known ref href
    push_cast
    omega

theorem Numbered.refNode {parentIdx childIdx ownerIdx : UInt32} (h : Numbered d)
    (hparent : parentIdx.toNat < d.nextNode) (hchild : childIdx.toNat < d.nextNode)
    (hq : carryOut d (.refNode parentIdx childIdx ownerIdx) = some (a, d')) : Numbered d' := by
  obtain ⟨-, hp, hc, -, rfl⟩ := carryOut_refNode hq
  refine ⟨h.pos, h.given, h.once, fun ref href => ?_⟩
  obtain href | href := List.mem_append.1 href
  · exact h.known ref href
  · obtain rfl := List.mem_singleton.1 href
    dsimp only
    rw [toInt_toInt32 hp, toInt_toInt32 hc]
    omega

/-- The reference is between known nodes, and its parent cannot be reached from its child. -/
structure Harmless (d : Tables) (parentIdx childIdx : UInt32) : Prop where
  parent : parentIdx.toNat < d.nextNode
  child : childIdx.toNat < d.nextNode
  open_ : ¬Reaches d.refs childIdx.toInt32 parentIdx.toInt32

theorem SoundVault.refNode {parentIdx childIdx ownerIdx : UInt32} (h : SoundVault d)
    (hopen : Harmless d parentIdx childIdx)
    (hq : carryOut d (.refNode parentIdx childIdx ownerIdx) = some (a, d')) : SoundVault d' := by
  refine ⟨h.toNumbered.refNode hopen.parent hopen.child hq, ?_⟩
  obtain ⟨-, -, -, -, rfl⟩ := carryOut_refNode hq
  exact Lib.Graph.acyclic_append_singleton.2 ⟨h.acyclic, hopen.open_⟩

/-- **What a statement keeps.**  Only a reference can do harm. -/
theorem SoundVault.carryOut (h : SoundVault d) (hcarry : AuthServ.carryOut d q = some (a, d'))
    (hq : ∀ parentIdx childIdx ownerIdx, q = .refNode parentIdx childIdx ownerIdx →
      Harmless d parentIdx childIdx) : SoundVault d' := by
  cases hgrows : q.growsVault with
  | false => exact h.thinned (carryOut_thinned hgrows hcarry)
  | true =>
    cases q with
    | createNode node =>
      refine ⟨h.toNumbered.createNode hcarry, ?_⟩
      obtain ⟨_, _, -, -, -, rfl⟩ := carryOut_createNode hcarry
      exact h.acyclic
    | refNode parentIdx childIdx ownerIdx => exact h.refNode (hq _ _ _ rfl) hcarry
    | _ => cases hgrows

end Dirtsand.AuthServ
