import Dirtsand.AuthServ.Asking
import Dirtsand.Db.Tree

/-!
# Vault trees

`v_has_node` and `v_fetch_tree` ask the two recursive functions of the database.

* `tree_queries` — **on a vault without a cycle both are answered, and say what can be
  reached.**
-/

namespace Dirtsand.AuthServ

open Lib.Prog
open Db (Tables RefRow Reaches Below Acyclic integer integer_eq_some)

/-- A row of `vault."NodeRefs"` as the daemon holds it. -/
def refOf (row : RefRow) : Vault.NodeRef :=
  { parent := row.parentIdx.toUInt32, child := row.childIdx.toUInt32,
    owner := row.ownerIdx.toUInt32 }

section

variable {hoodUserName : String} {d d' : Tables} {s : DaemonState} {site : CallSite}
  {a : QueryOutcome}

/-! ## Answers -/

theorem Succeeds.hasNode_iff {parentId childId : UInt32}
    (h : Succeeds hoodUserName d (site, .hasNode parentId childId) a d') :
    d' = d ∧ ∃ found, a = .tuples [cells [boolCell found]] ∧
      (found = true ↔ Below d.refs parentId.toInt32 childId.toInt32) := by
  cases h with
  | hasNode hparent hchild hselect h =>
    obtain ⟨-, rfl⟩ := integer_eq_some.1 hparent
    obtain ⟨-, rfl⟩ := integer_eq_some.1 hchild
    exact ⟨rfl, _, rfl, Db.hasNode_sound hselect _ _ _ h⟩
  | select h _ => cases h
  | change h => cases h
  | read _ h | write h => cases h

theorem Succeeds.fetchTree_iff {nodeId : UInt32}
    (h : Succeeds hoodUserName d (site, .fetchTree nodeId) a d') :
    d' = d ∧ ∃ refs : List RefRow, a = .tuples (refs.map fun row =>
        cells [intCell row.parentIdx, intCell row.childIdx, intCell row.ownerIdx]) ∧
      ∀ row, row ∈ refs ↔ row ∈ d.refs ∧ Reaches d.refs nodeId.toInt32 row.parentIdx := by
  cases h with
  | fetchTree hnode hselect h =>
    obtain ⟨-, rfl⟩ := integer_eq_some.1 hnode
    exact ⟨rfl, _, rfl, Db.mem_fetchTree hselect _ _ _ h⟩
  | select h _ => cases h
  | change h => cases h
  | read _ h | write h => cases h

/-- Without a cycle the functions return. -/
theorem succeeds_of_acyclic (hoodUserName : String) (site : CallSite) (hacyclic : Acyclic d.refs)
    {parentId childId : UInt32} (hparent : parentId.toNat < 2 ^ 31)
    (hchild : childId.toNat < 2 ^ 31) :
    (∃ a, Succeeds hoodUserName d (site, .hasNode parentId childId) a d) ∧
      ∃ a, Succeeds hoodUserName d (site, .fetchTree parentId) a d := by
  have hselect := Db.selects_filter d.refs
  obtain ⟨hfound, htree⟩ := hacyclic.returns hselect parentId.toInt32 childId.toInt32
  obtain ⟨found, hfound⟩ := Option.isSome_iff_exists.1 hfound
  obtain ⟨tree, htree⟩ := Option.isSome_iff_exists.1 htree
  exact ⟨⟨_, .hasNode (if_pos hparent) (if_pos hchild) hselect hfound⟩,
    ⟨_, .fetchTree (if_pos hparent) hselect htree⟩⟩

/-! ## The functions of the daemon -/

/-- A program that leaves the daemon and the tables as they are and replies nothing, with
what it returns. -/
abbrev Returns {α : Type} (d : Tables) (s : DaemonState) (P : α → Prop) :
    Lib.Exit α → Tables → DaemonState → List Reply → Prop :=
  fun x d' s' out => d' = d ∧ s' = s ∧ out = [] ∧ ∃ a, x = .ret a ∧ P a

/-- The answer of the database is read as it is. -/
theorem readFound_cells (q : Statement) (hcolumns : q.columns = 1) (found : Bool) :
    readFound (rowsOf q [cells [boolCell found]]) = pure found := by
  have hvalue : (rowsOf q [cells [boolCell found]]).getvalue 0 0 = some (boolCell found) :=
    getvalue_rowsOf rfl (by rw [hcolumns]; decide) rfl
  rw [readFound, hvalue]
  show (pure (decide ((boolCell found).toList.head? = some 't')) : DM Bool) = _
  cases found <;> rfl

theorem vHasNode_ensures (parentId childId : UInt32) :
    Ensures (Succeeds hoodUserName) d s (vHasNode parentId childId) <| Returns d s fun found =>
      found = true ↔ parentId ≠ 0 ∧
        (childId = parentId ∨ Below d.refs parentId.toInt32 childId.toInt32) := by
  rw [vHasNode_eq]
  refine ensures_ite (fun hzero => ?_) fun hzero => ?_
  · exact ensures_pure ⟨rfl, rfl, rfl, false, rfl, iff_of_false nofun fun h => h.1 hzero⟩
  refine ensures_ite (fun heq => ?_) fun heq => ?_
  · exact ensures_pure ⟨rfl, rfl, rfl, true, rfl, iff_of_true rfl ⟨hzero, .inl heq.symm⟩⟩
  refine ensures_bind (ensures_carried (fun rows d' h => ?_) fun d' h => ?_)
  · obtain ⟨rfl, found, ha, hfound⟩ := h.hasNode_iff
    cases ha
    show Ensures _ _ _ (readFound (rowsOf _ [cells [boolCell found]])) _
    rw [readFound_cells _ rfl]
    refine ensures_pure ⟨rfl, rfl, rfl, found, rfl, ?_⟩
    show found = true ↔ _
    rw [hfound, and_iff_right hzero, or_iff_right (Ne.symm heq)]
  · obtain ⟨-, found, ha, -⟩ := h.hasNode_iff
    cases ha

/-- On a vault without a cycle `v_has_node` returns. -/
theorem vHasNode_yields (hacyclic : Acyclic d.refs) {parentId childId : UInt32}
    (hids : parentId = 0 ∨ parentId = childId ∨
      (parentId.toNat < 2 ^ 31 ∧ childId.toNat < 2 ^ 31)) : ∃ found,
    Yields (Succeeds hoodUserName) d s (vHasNode parentId childId) (.ret found) d s [] := by
  rw [vHasNode_eq]
  by_cases hzero : parentId = 0
  · rw [if_pos hzero]
    exact ⟨false, yields_pure false⟩
  by_cases heq : parentId = childId
  · rw [if_neg hzero, if_pos heq]
    exact ⟨true, yields_pure true⟩
  rw [if_neg hzero, if_neg heq]
  obtain ⟨hparent, hchild⟩ := (hids.resolve_left hzero).resolve_left heq
  obtain ⟨⟨a, hanswer⟩, -⟩ := succeeds_of_acyclic hoodUserName .handler hacyclic hparent hchild
  obtain ⟨-, found, rfl, -⟩ := hanswer.hasNode_iff
  refine ⟨found, (yields_exec hanswer).bind ?_⟩
  show Yields _ _ _ (readFound (rowsOf _ [cells [boolCell found]])) _ _ _ _
  rw [readFound_cells _ rfl]
  exact yields_pure found

theorem vHasNode_runs (hacyclic : Acyclic d.refs) {parentId childId : UInt32}
    (hids : parentId = 0 ∨ parentId = childId ∨
      (parentId.toNat < 2 ^ 31 ∧ childId.toNat < 2 ^ 31)) :
    ∃ found, Runs (Succeeds hoodUserName) d s (vHasNode parentId childId) (.ret found) d s [] := by
  obtain ⟨found, hfound⟩ := vHasNode_yields hacyclic hids
  exact ⟨found, hfound.runs⟩

/-- The loop body of `v_fetch_tree`. -/
private def readRef (result : PGresult) (i : Nat) : DM Vault.NodeRef := do
  return { parent := ← numAt result i 0, child := ← numAt result i 1, owner := ← numAt result i 2 }

/-- What `v_fetch_tree` makes of the result. -/
private def readRefs (result : PGresult) : DM (Option (List Vault.NodeRef)) := do
  if result.status ≠ .tuplesOk then return none
  let refs ← forRows result (readRef result)
  return some refs

private theorem vFetchTree_eq (nodeId : UInt32) :
    vFetchTree nodeId = exec .handler (.fetchTree nodeId) >>= readRefs := rfl

private instance {result : PGresult} : Steady (readRefs result) := by
  unfold readRefs readRef
  infer_instance

/-- The row of a reference. -/
abbrev refCells (row : RefRow) : Row :=
  cells [intCell row.parentIdx, intCell row.childIdx, intCell row.ownerIdx]

/-- The references of the database are read as they are. -/
private theorem readRefs_cells (q : Statement) (hcolumns : q.columns = 3) (tree : List RefRow) :
    readRefs (rowsOf q (tree.map refCells)) = pure (some (tree.map refOf)) := by
  have hrows : forRows (rowsOf q (tree.map refCells)) (readRef (rowsOf q (tree.map refCells))) =
      pure (tree.map refOf) := by
    refine forRows_rowsOf fun i row hrow _ => ?_
    rw [readRef, numAt_rowsOf (v := row.parentIdx) hrow (by rw [hcolumns]; decide) rfl,
      numAt_rowsOf (v := row.childIdx) hrow (by rw [hcolumns]; decide) rfl,
      numAt_rowsOf (v := row.ownerIdx) hrow (by rw [hcolumns]; decide) rfl]
    rfl
  show (forRows (rowsOf q (tree.map refCells)) (readRef (rowsOf q (tree.map refCells))) >>=
    fun refs => pure (some refs)) = _
  rw [hrows]
  rfl

theorem vFetchTree_ensures (nodeId : UInt32) :
    Ensures (Succeeds hoodUserName) d s (vFetchTree nodeId) <| Returns d s fun found =>
      ∃ refs, found = some refs ∧ ∀ ref, ref ∈ refs ↔
        ∃ row ∈ d.refs, Reaches d.refs nodeId.toInt32 row.parentIdx ∧ ref = refOf row := by
  rw [vFetchTree_eq]
  refine ensures_bind (ensures_carried (fun rows d' h => ?_) fun d' h => ?_)
  · obtain ⟨rfl, tree, ha, htree⟩ := h.fetchTree_iff
    cases ha
    show Ensures _ _ _ (readRefs (rowsOf _ (tree.map refCells))) _
    rw [readRefs_cells _ rfl]
    refine ensures_pure ⟨rfl, rfl, rfl, _, rfl, _, rfl, fun ref => ?_⟩
    rw [List.mem_map]
    constructor
    · rintro ⟨row, hmem, rfl⟩
      obtain ⟨hmem, hreach⟩ := (htree row).1 hmem
      exact ⟨row, hmem, hreach, rfl⟩
    · rintro ⟨row, hmem, hreach, rfl⟩
      exact ⟨row, (htree row).2 ⟨hmem, hreach⟩, rfl⟩
  · obtain ⟨-, tree, ha, -⟩ := h.fetchTree_iff
    cases ha

/-- On a vault without a cycle `v_fetch_tree` returns the references. -/
theorem vFetchTree_runs (hacyclic : Acyclic d.refs) {nodeId : UInt32} (hid : nodeId.toNat < 2 ^ 31) :
    ∃ refs, Runs (Succeeds hoodUserName) d s (vFetchTree nodeId) (.ret (some refs)) d s [] := by
  obtain ⟨-, a, hanswer⟩ := succeeds_of_acyclic hoodUserName .handler hacyclic hid hid
  obtain ⟨-, tree, rfl, -⟩ := hanswer.fetchTree_iff
  rw [vFetchTree_eq]
  refine ⟨tree.map refOf, ((yields_exec hanswer).bind ?_).runs⟩
  show Yields _ _ _ (readRefs (rowsOf _ (tree.map refCells))) _ _ _ _
  rw [readRefs_cells _ rfl]
  exact yields_pure _

/-- **Vault tree queries are graph reachability.**  On a vault without a cycle both return, for
all numbers that the database has; `v_has_node` says whether the child is the parent or can be
reached from it, and never finds anything under 0, and `v_fetch_tree` returns the references
whose parent is the node or can be reached from it. -/
theorem tree_queries (hoodUserName : String) (hacyclic : Acyclic d.refs) (s : DaemonState)
    (p c : UInt32) :
    (p = 0 ∨ p = c ∨ (p.toNat < 2 ^ 31 ∧ c.toNat < 2 ^ 31) →
      ∃ found, Runs (Succeeds hoodUserName) d s (vHasNode p c) (.ret found) d s []) ∧
    (p.toNat < 2 ^ 31 →
      ∃ refs, Runs (Succeeds hoodUserName) d s (vFetchTree p) (.ret (some refs)) d s []) ∧
    Ensures (Succeeds hoodUserName) d s (vHasNode p c) (Returns d s fun found =>
      found = true ↔ p ≠ 0 ∧ (c = p ∨ Below d.refs p.toInt32 c.toInt32)) ∧
    Ensures (Succeeds hoodUserName) d s (vFetchTree p) (Returns d s fun found =>
      ∃ refs, found = some refs ∧ ∀ ref, ref ∈ refs ↔
        ∃ row ∈ d.refs, Reaches d.refs p.toInt32 row.parentIdx ∧ ref = refOf row) :=
  ⟨vHasNode_runs hacyclic, vFetchTree_runs hacyclic, vHasNode_ensures p c, vFetchTree_ensures p⟩

end

/-- A folder that two others share. -/
def shared : Tables where
  refs := [⟨10001, 10002, 0⟩, ⟨10001, 10003, 0⟩, ⟨10002, 10004, 0⟩, ⟨10003, 10004, 0⟩]

theorem tree_queries_shared :
    Runs (Succeeds "") shared noClients (vHasNode 10001 10004) (.ret true) shared noClients [] ∧
      Runs (Succeeds "") shared noClients (vHasNode 10004 10001) (.ret false) shared noClients [] ∧
      ∃ refs, Runs (Succeeds "") shared noClients (vFetchTree 10001) (.ret (some refs)) shared
          noClients [] ∧ ∀ ref, ref ∈ refs ↔ ref ∈ shared.refs.map refOf := by
  have hacyclic : Acyclic shared.refs := by
    refine Lib.Graph.acyclic_of_rank (fun idx => (10004 - idx).toInt.toNat) ?_
    decide
  have hbelow : Below shared.refs 10001 10004 := by
    rw [Db.below_iff]
    refine ⟨⟨10001, 10002, 0⟩, by decide, rfl, .inr ?_⟩
    rw [Db.below_iff]
    exact ⟨⟨10002, 10004, 0⟩, by decide, rfl, .inl rfl⟩
  -- nothing hangs below the last of the nodes
  have hleaf (idx : Int32) : ¬Below shared.refs 10004 idx := by
    rw [Db.below_iff]
    rintro ⟨row, hmem, hparent, -⟩
    revert hparent
    revert row
    decide
  -- every parent is the folder or lies in it
  have hall (row : RefRow) (hmem : row ∈ shared.refs) : Reaches shared.refs 10001 row.parentIdx := by
    have hparents : ∀ row ∈ shared.refs, 10001 = row.parentIdx ∨ ∃ above ∈ shared.refs,
        above.parentIdx = 10001 ∧ above.childIdx = row.parentIdx := by decide
    obtain heq | ⟨above, habove, hparent, hchild⟩ := hparents row hmem
    · exact Db.reaches_iff.2 (.inl heq)
    · exact Db.reaches_iff.2 (.inr ⟨above, habove, hparent, Db.reaches_iff.2 (.inl hchild)⟩)
  refine ⟨?_, ?_, ?_⟩
  · obtain ⟨hruns, -, hfound, -⟩ := tree_queries "" hacyclic noClients 10001 10004
    obtain ⟨found, hrun⟩ := hruns (.inr (.inr (by decide)))
    obtain ⟨-, -, -, _, hret, hiff⟩ := hrun.post hfound
    cases hret
    rwa [hiff.2 ⟨by decide, .inr hbelow⟩] at hrun
  · obtain ⟨hruns, -, hfound, -⟩ := tree_queries "" hacyclic noClients 10004 10001
    obtain ⟨found, hrun⟩ := hruns (.inr (.inr (by decide)))
    obtain ⟨-, -, -, _, hret, hiff⟩ := hrun.post hfound
    cases hret
    have hno : found = false := by
      rw [← Bool.not_eq_true, hiff]
      rintro ⟨-, heq | hbelow⟩
      · exact absurd heq (by decide)
      · exact hleaf _ hbelow
    rwa [hno] at hrun
  · obtain ⟨-, htree, -, hfetch⟩ := tree_queries "" hacyclic noClients 10001 0
    obtain ⟨refs, hrun⟩ := htree (by decide)
    obtain ⟨-, -, -, _, hret, _, hsome, hiff⟩ := hrun.post hfetch
    cases hret
    cases hsome
    refine ⟨refs, hrun, fun ref => ?_⟩
    rw [hiff, List.mem_map]
    constructor
    · rintro ⟨row, hmem, -, rfl⟩
      exact ⟨row, hmem, rfl⟩
    · rintro ⟨row, hmem, rfl⟩
      exact ⟨row, hmem, hall row hmem, rfl⟩

end Dirtsand.AuthServ
