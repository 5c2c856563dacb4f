import Dirtsand.Db.Functions
import Dirtsand.Lib.Graph

/-!
# The recursive functions and the graph

`vault."NodeRefs"` is a graph with an edge from each parent to its child.  What
`vault.has_node` and `vault.fetch_tree` return is what can be reached in it
(`hasNode_sound`, `mem_fetchTree`); that they return at all takes a graph without a
cycle (`hasNode_isSome`, `fetchTree_isSome`).
-/

namespace Dirtsand.Db

/-- The child can be reached from the parent, or is it. -/
abbrev Reaches (refs : List RefRow) : Int32 → Int32 → Prop :=
  Lib.Graph.Reaches RefRow.parentIdx RefRow.childIdx refs

/-- The child is below the parent. -/
abbrev Below (refs : List RefRow) : Int32 → Int32 → Prop :=
  Lib.Graph.Below RefRow.parentIdx RefRow.childIdx refs

abbrev Acyclic (refs : List RefRow) : Prop :=
  Lib.Graph.Acyclic RefRow.parentIdx RefRow.childIdx refs

variable {refs : List RefRow} {select : Int32 → List RefRow}

theorem below_iff {parentId childId : Int32} : Below refs parentId childId ↔
    ∃ row ∈ refs, row.parentIdx = parentId ∧
      (row.childIdx = childId ∨ Below refs row.childIdx childId) :=
  Lib.Graph.below_iff

theorem reaches_iff {parentId childId : Int32} : Reaches refs parentId childId ↔
    parentId = childId ∨ ∃ row ∈ refs, row.parentIdx = parentId ∧
      Reaches refs row.childIdx childId :=
  Lib.Graph.reaches_iff

theorem Selects.mem (h : Selects refs select) {row : RefRow} {nodeId : Int32} :
    row ∈ select nodeId ↔ row ∈ refs ∧ row.parentIdx = nodeId := by
  rw [(h nodeId).mem_iff, List.mem_filter, decide_eq_true_iff]

/-- The rows in the order of the table. -/
theorem selects_filter (refs : List RefRow) :
    Selects refs fun nodeId => refs.filter fun row => row.parentIdx = nodeId :=
  fun _ => .refl _

/-! ## `vault.has_node` -/

/-- The loop is left at the first row that is the child or has it, and `false` is that no
row is or has. -/
theorem hasNodeLoop_sound {recurse : Int32 → Option Bool} {childId : Int32} {P : Int32 → Prop}
    (hrecurse : ∀ nodeId found, recurse nodeId = some found → (found = true ↔ P nodeId))
    {rows : List RefRow} {found : Bool} (h : hasNodeLoop recurse childId rows = some found) :
    found = true ↔ ∃ row ∈ rows, row.childIdx = childId ∨ P row.childIdx := by
  induction rows with
  | nil =>
    cases h
    simp
  | cons row rows ih =>
    rw [List.exists_mem_cons_iff]
    rw [hasNodeLoop] at h
    split at h
    · rename_i hchild
      cases h
      exact iff_of_true rfl (.inl (.inl hchild))
    · rename_i hchild
      obtain ⟨below, hbelow, h⟩ := Option.bind_eq_some_iff.1 h
      have hP := hrecurse _ _ hbelow
      cases below with
      | true =>
        cases h
        exact iff_of_true rfl (.inl (.inr (hP.1 rfl)))
      | false =>
        have hnot : ¬(row.childIdx = childId ∨ P row.childIdx) := by
          rintro (heq | hp)
          · exact hchild heq
          · exact absurd (hP.2 hp) (by decide)
        rw [ih h, or_iff_right hnot]

theorem hasNodeLoop_isSome {recurse : Int32 → Option Bool} {childId : Int32} {rows : List RefRow}
    (h : ∀ row ∈ rows, (recurse row.childIdx).isSome = true) :
    (hasNodeLoop recurse childId rows).isSome = true := by
  induction rows with
  | nil => rfl
  | cons row rows ih =>
    rw [hasNodeLoop]
    split
    · rfl
    · obtain ⟨below, hbelow⟩ := Option.isSome_iff_exists.1 (h row List.mem_cons_self)
      rw [hbelow]
      cases below with
      | true => rfl
      | false => exact ih fun row' hrow' => h row' (List.mem_cons_of_mem _ hrow')

/-- **What `vault.has_node` returns is right**, on any table. -/
theorem hasNode_sound (hselect : Selects refs select) {childId : Int32} (fuel : Nat)
    (parentId : Int32) (found : Bool) (h : hasNode select fuel parentId childId = some found) :
    found = true ↔ Below refs parentId childId := by
  induction fuel generalizing parentId found with
  | zero => cases h
  | succ fuel ih =>
    rw [hasNodeLoop_sound ih h, below_iff]
    apply exists_congr
    intro row
    rw [hselect.mem, and_assoc]

theorem hasNode_isSome (hselect : Selects refs select) {rank : Int32 → Nat}
    (hrank : ∀ row ∈ refs, rank row.childIdx < rank row.parentIdx) {childId : Int32} (fuel : Nat)
    (parentId : Int32) (h : rank parentId < fuel) :
    (hasNode select fuel parentId childId).isSome = true := by
  induction fuel generalizing parentId with
  | zero => exact absurd h (Nat.not_lt_zero _)
  | succ fuel ih =>
    refine hasNodeLoop_isSome fun row hrow => ih row.childIdx ?_
    obtain ⟨hmem, rfl⟩ := hselect.mem.1 hrow
    have hlower := hrank row hmem
    omega

/-! ## `vault.fetch_tree` -/

theorem mem_fetchTreeLoop {recurse : Int32 → Option (List RefRow)} {P : Int32 → RefRow → Prop}
    (hrecurse : ∀ nodeId tree, recurse nodeId = some tree → ∀ row, row ∈ tree ↔ P nodeId row)
    {rows tree : List RefRow} (h : fetchTreeLoop recurse rows = some tree) (row : RefRow) :
    row ∈ tree ↔ ∃ curNode ∈ rows, row = curNode ∨ P curNode.childIdx row := by
  induction rows generalizing tree with
  | nil =>
    cases h
    simp
  | cons curNode rows ih =>
    obtain ⟨subtree, hsubtree, h⟩ := Option.bind_eq_some_iff.1 h
    obtain ⟨others, hothers, h⟩ := Option.bind_eq_some_iff.1 h
    cases h
    rw [List.mem_cons, List.mem_append, hrecurse _ _ hsubtree, ih hothers,
      List.exists_mem_cons_iff, or_assoc]

theorem fetchTreeLoop_isSome {recurse : Int32 → Option (List RefRow)} {rows : List RefRow}
    (h : ∀ row ∈ rows, (recurse row.childIdx).isSome = true) :
    (fetchTreeLoop recurse rows).isSome = true := by
  induction rows with
  | nil => rfl
  | cons row rows ih =>
    obtain ⟨subtree, hsubtree⟩ := Option.isSome_iff_exists.1 (h row List.mem_cons_self)
    obtain ⟨others, hothers⟩ := Option.isSome_iff_exists.1
      (ih fun row' hrow' => h row' (List.mem_cons_of_mem _ hrow'))
    rw [fetchTreeLoop, hsubtree, hothers]
    rfl

/-- **What `vault.fetch_tree` returns is right**, on any table. -/
theorem mem_fetchTree (hselect : Selects refs select) (fuel : Nat) (nodeId : Int32)
    (tree : List RefRow) (h : fetchTree select fuel nodeId = some tree) (row : RefRow) :
    row ∈ tree ↔ row ∈ refs ∧ Reaches refs nodeId row.parentIdx := by
  induction fuel generalizing nodeId tree row with
  | zero => cases h
  | succ fuel ih =>
    rw [mem_fetchTreeLoop ih h, reaches_iff]
    constructor
    · rintro ⟨curNode, hcur, rfl | ⟨hmem, hreach⟩⟩
      · obtain ⟨hmem, hparent⟩ := hselect.mem.1 hcur
        exact ⟨hmem, .inl hparent.symm⟩
      · obtain ⟨hcur, hparent⟩ := hselect.mem.1 hcur
        exact ⟨hmem, .inr ⟨curNode, hcur, hparent, hreach⟩⟩
    · rintro ⟨hmem, rfl | ⟨curNode, hcur, hparent, hreach⟩⟩
      · exact ⟨row, hselect.mem.2 ⟨hmem, rfl⟩, .inl rfl⟩
      · exact ⟨curNode, hselect.mem.2 ⟨hcur, hparent⟩, .inr ⟨hmem, hreach⟩⟩

theorem fetchTree_isSome (hselect : Selects refs select) {rank : Int32 → Nat}
    (hrank : ∀ row ∈ refs, rank row.childIdx < rank row.parentIdx) (fuel : Nat) (nodeId : Int32)
    (h : rank nodeId < fuel) : (fetchTree select fuel nodeId).isSome = true := by
  induction fuel generalizing nodeId with
  | zero => exact absurd h (Nat.not_lt_zero _)
  | succ fuel ih =>
    refine fetchTreeLoop_isSome fun row hrow => ih row.childIdx ?_
    obtain ⟨hmem, rfl⟩ := hselect.mem.1 hrow
    have hlower := hrank row hmem
    omega

/-! ## Without a cycle -/

/-- **Without a cycle both functions return**, no deeper than there are rows. -/
theorem Acyclic.returns (hacyclic : Acyclic refs) (hselect : Selects refs select)
    (nodeId childId : Int32) :
    (hasNode select (refs.length + 1) nodeId childId).isSome = true ∧
      (fetchTree select (refs.length + 1) nodeId).isSome = true := by
  obtain ⟨rank, hrank, hbound⟩ := Lib.Graph.Acyclic.exists_rank hacyclic
  have hdepth : rank nodeId < refs.length + 1 := Nat.lt_succ_of_le (hbound nodeId)
  exact ⟨hasNode_isSome hselect hrank _ _ hdepth, fetchTree_isSome hselect hrank _ _ hdepth⟩

end Dirtsand.Db
