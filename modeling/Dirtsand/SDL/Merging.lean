import Dirtsand.SDL.SharedStates

/-!
# The order of merging

States of one descriptor, of which some may share variables, are merged into one of
them.  Where two of them have one timestamp for a variable, they have the same variable.

* `mergeAll_spec` — what is merged into a state, variable by variable.
* `last_writer_wins` — the order of merging, and how often, makes no difference.
-/

namespace Dirtsand.SDL

open Lib (Heap)
open Lib.LastWriter (joins)

variable {κ σ : Type} {H : σ → List Nat}

/-- Objects, and the handles of states that are held outside. -/
structure Memory (κ σ : Type) (H : σ → List Nat) where
  heap : Heap (Obj κ σ)
  held : List Nat
  balanced : heap.Balanced (Obj.owns H) held
  shows : ∀ p ∈ held, ∃ s, Shows heap p s

/-! ## Families -/

/-- States of one descriptor that agree where they have one timestamp. -/
structure Family (m : Memory κ σ H) (d : DescriptorPtr)
    (Same : (i : Fin d.desc.vars.length) → Variable κ σ (d.desc.vars.get i) →
      Variable κ σ (d.desc.vars.get i) → Prop) where
  members : List Nat
  held : ∀ f ∈ members, f ∈ m.held
  data : Nat → StateData κ σ d.desc
  shows : ∀ f ∈ members, Shows m.heap f ⟨d, data f⟩
  agree : ∀ f ∈ members, ∀ g ∈ members, ∀ i,
    ((data f).vars i).timestamp = ((data g).vars i).timestamp → Same i ((data f).vars i) ((data g).vars i)

namespace Family

variable {m : Memory κ σ H} {d : DescriptorPtr}
  {Same : (i : Fin d.desc.vars.length) → Variable κ σ (d.desc.vars.get i) →
    Variable κ σ (d.desc.vars.get i) → Prop} (F : Family m d Same)

/-- A target in the family, and an order of merging that has all of the others. -/
structure Order (p : Nat) (l : List Nat) : Prop where
  target : p ∈ F.members
  members : ∀ q ∈ l, q ∈ F.members
  all : ∀ f ∈ F.members, f = p ∨ f ∈ l

/-- A variable with the greatest timestamp that states of the family have there. -/
def Latest (i : Fin d.desc.vars.length) (var : Variable κ σ (d.desc.vars.get i)) : Prop :=
  (∃ f ∈ F.members, var = (F.data f).vars i) ∧
    ∀ f ∈ F.members, ((F.data f).vars i).timestamp.later var.timestamp = false

end Family

/-- What a merge leaves of everything but its target: the other states, and whatever can be
reached from a handle that is held. -/
structure Undisturbed (m : Memory κ σ H) (h : Heap (Obj κ σ)) (p : Nat) : Prop where
  balanced : h.Balanced (Obj.owns H) m.held
  shows : ∀ r ∈ m.held, r ≠ p → ∀ s, Shows m.heap r s → Shows h r s
  reached : ∀ b, b ≠ p → h.Reach (Obj.owns H) m.held b → h.get b = m.heap.get b

/-! ## One merge -/

def stamp {v : VarDescriptor} (var : Variable κ σ v) : Nat := var.timestamp.ticks

theorem merge_vars {d : StateDescriptor} (x y : StateData κ σ d) (i : Fin d.vars.length) :
    (x.merge y).vars i = Lib.LastWriter.join stamp (x.vars i) (y.vars i) := by
  rw [StateData.merge, Lib.LastWriter.join, stamp, stamp]
  dsimp only
  simp only [UnifiedTime.later_iff]

section Once

variable {h : Heap (Obj κ σ)} {held : List Nat} {p q : Nat} {d : DescriptorPtr}
  {x y : StateData κ σ d.desc}

theorem merge_of_shows (hx : Shows h p ⟨d, x⟩) (hy : Shows h q ⟨d, y⟩) :
    Shared.merge H (some p) (some q) h = Shared.combine H Shared.takesLater p q d.desc.vars.length 0 h := by
  obtain ⟨r, hr, hrd⟩ := getState_of_shows hx
  obtain ⟨t, ht, htd⟩ := getState_of_shows hy
  simp only [Shared.merge, Shared.operate, hr, ht, bind, Except.bind]
  rw [hrd, htd, if_pos rfl]

theorem merge_spec (hb : h.Balanced (Obj.owns H) held) (hp : p ∈ held) (hq : q ∈ held)
    (hx : Shows h p ⟨d, x⟩) (hy : Shows h q ⟨d, y⟩) :
    ∃ h', Shared.merge H (some p) (some q) h = .ok h' ∧ h'.Balanced (Obj.owns H) held ∧ h.Kept h' p ∧
      Shows h' p ⟨d, x.merge y⟩ := by
  rw [merge_of_shows hx hy, ← merge_eq]
  exact combine_spec Shared.takesLater hb hp hq hx hy (Nat.add_zero _)

/-- Where nothing is later, nothing is assigned. -/
theorem merge_idle (hx : Shows h p ⟨d, x⟩) (hy : Shows h q ⟨d, y⟩)
    (hlater : ∀ i, (y.vars i).timestamp.later (x.vars i).timestamp = false) :
    Shared.merge H (some p) (some q) h = .ok h := by
  have hloop : ∀ k i, k + i = d.desc.vars.length → Shared.combine H Shared.takesLater p q k i h = .ok h := by
    intro k
    induction k with
    | zero => exact fun i _ => rfl
    | succ k ih =>
      intro i hk
      have hi : i < d.desc.vars.length := by omega
      have hturn : Shared.combineVar H Shared.takesLater p q i h = .ok h :=
        combineVar_idle hx hy ⟨i, hi⟩ (by simp [Shared.takesLater, hlater])
      rw [Shared.combine, hturn]
      exact ih (i + 1) (by omega)
  rw [merge_of_shows hx hy]
  exact hloop _ 0 (Nat.add_zero _)

end Once

/-! ## Merges in a row -/

theorem Undisturbed.of_kept {m : Memory κ σ H} {h : Heap (Obj κ σ)} {p : Nat} {t : State κ σ}
    (ht : Shows m.heap p t) (hb : h.Balanced (Obj.owns H) m.held) (hk : m.heap.Kept h p) :
    Undisturbed m h p where
  balanced := hb
  shows _ hr hne _ hs := hs.kept ht hk hb hr hne
  reached _ hne hreach := hk.get_eq hne (hb.get_of_reach hreach)

namespace Family

variable {m : Memory κ σ H} {d : DescriptorPtr}
  {Same : (i : Fin d.desc.vars.length) → Variable κ σ (d.desc.vars.get i) →
    Variable κ σ (d.desc.vars.get i) → Prop} {F : Family m d Same}

/-- What is merged into a variable of the target: what the others have there. -/
def others (F : Family m d Same) (p : Nat) (l : List Nat) (i : Fin d.desc.vars.length) :
    List (Variable κ σ (d.desc.vars.get i)) :=
  (l.filter fun q => q ≠ p).map fun q => (F.data q).vars i

theorem mergeAll_spec {p : Nat} {l : List Nat} (hp : p ∈ m.held) (hl : ∀ q ∈ l, q ∈ F.members)
    {h : Heap (Obj κ σ)} {x : StateData κ σ d.desc} (hb : h.Balanced (Obj.owns H) m.held)
    (hx : Shows h p ⟨d, x⟩) (hothers : ∀ q ∈ F.members, q ≠ p → Shows h q ⟨d, F.data q⟩) :
    ∃ h' x', Shared.mergeAll H p l h = .ok h' ∧ h'.Balanced (Obj.owns H) m.held ∧ h.Kept h' p ∧
      Shows h' p ⟨d, x'⟩ ∧ ∀ i, x'.vars i = joins stamp (x.vars i) (F.others p l i) := by
  induction l generalizing h x with
  | nil => exact ⟨h, x, rfl, hb, Lib.Heap.Kept.refl h p, hx, fun i => rfl⟩
  | cons q l ih =>
    have hq := hl q List.mem_cons_self
    have hl' : ∀ r ∈ l, r ∈ F.members := fun r hr => hl r (List.mem_cons_of_mem q hr)
    by_cases hqp : q = p
    · subst hqp
      have hmerge := merge_idle (H := H) hx hx fun i => (UnifiedTime.later_eq_false _ _).2 le_rfl
      obtain ⟨h', x', heq, hb', hk', hx', hvars⟩ := ih hl' hb hx hothers
      refine ⟨h', x', ?_, hb', hk', hx', fun i => ?_⟩
      · rw [Shared.mergeAll, hmerge]
        exact heq
      · rw [hvars, others, others, List.filter_cons_of_neg (by simp)]
    · obtain ⟨h₁, hmerge, hb₁, hk₁, hx₁⟩ := merge_spec hb hp (F.held q hq) hx (hothers q hq hqp)
      have hothers₁ : ∀ r ∈ F.members, r ≠ p → Shows h₁ r ⟨d, F.data r⟩ := fun r hr hne =>
        (hothers r hr hne).kept hx hk₁ hb₁ (F.held r hr) hne
      obtain ⟨h', x', heq, hb', hk', hx', hvars⟩ := ih hl' hb₁ hx₁ hothers₁
      refine ⟨h', x', ?_, hb', hk₁.trans hk', hx', fun i => ?_⟩
      · rw [Shared.mergeAll, hmerge]
        exact heq
      · rw [hvars, others, others, List.filter_cons_of_pos (by simpa using hqp), List.map_cons, merge_vars]
        rfl

/-- The variables that states of the family have at a place. -/
def varsAt (F : Family m d Same) (i : Fin d.desc.vars.length) :
    Set (Variable κ σ (d.desc.vars.get i)) :=
  {var | ∃ f ∈ F.members, var = (F.data f).vars i}

theorem latest_iff {i : Fin d.desc.vars.length} {var : Variable κ σ (d.desc.vars.get i)} :
    F.Latest i var ↔ Lib.LastWriter.Latest stamp (F.varsAt i) var := by
  simp only [Latest, Lib.LastWriter.Latest, varsAt, stamp, UnifiedTime.later_eq_false, Set.mem_ofPred_eq]
  constructor
  · rintro ⟨hmem, hle⟩
    refine ⟨hmem, ?_⟩
    rintro b ⟨f, hf, rfl⟩
    exact hle f hf
  · rintro ⟨hmem, hle⟩
    exact ⟨hmem, fun f hf => hle _ ⟨f, hf, rfl⟩⟩

theorem Order.latest {p : Nat} {l : List Nat} (hl : F.Order p l) (i : Fin d.desc.vars.length) :
    F.Latest i (joins stamp ((F.data p).vars i) (F.others p l i)) := by
  refine latest_iff.2 (Lib.LastWriter.joins_latest ⟨p, hl.target, rfl⟩ ?_ ?_)
  · intro var hvar
    obtain ⟨q, hq, rfl⟩ := List.mem_map.1 hvar
    exact ⟨q, hl.members q (List.mem_filter.1 hq).1, rfl⟩
  · rintro _ ⟨f, hf, rfl⟩
    by_cases hfp : f = p
    · rw [hfp]
      exact List.mem_cons_self
    · have hmem : f ∈ l := (hl.all f hf).resolve_left hfp
      exact List.mem_cons_of_mem _ (List.mem_map.2 ⟨f, List.mem_filter.2 ⟨hmem, by simpa using hfp⟩, rfl⟩)

/-- A merge of the family gives the variables with the greatest timestamps. -/
theorem Order.merged {p : Nat} {l : List Nat} (hl : F.Order p l) :
    ∃ h x, Shared.mergeAll H p l m.heap = .ok h ∧ Undisturbed m h p ∧ Shows h p ⟨d, x⟩ ∧
      ∀ i, F.Latest i (x.vars i) := by
  obtain ⟨h, x, heq, hb, hk, hx, hvars⟩ := mergeAll_spec (F.held p hl.target) hl.members m.balanced
    (F.shows p hl.target) fun q hq _ => F.shows q hq
  refine ⟨h, x, heq, .of_kept (F.shows p hl.target) hb hk, hx, fun i => ?_⟩
  rw [hvars]
  exact hl.latest i

theorem Latest.same {i : Fin d.desc.vars.length}
    {var var' : Variable κ σ (d.desc.vars.get i)} (h : F.Latest i var)
    (h' : F.Latest i var') : Same i var var' := by
  refine Lib.LastWriter.Latest.agree ?_ (latest_iff.1 h) (latest_iff.1 h')
  rintro _ ⟨f, hf, rfl⟩ _ ⟨g, hg, rfl⟩ hstamp
  exact F.agree f hf g hg i (UnifiedTime.ticks_inj hstamp)

end Family

/-! ## The same merge again -/

theorem merge_again (m : Memory κ σ H) {p q : Nat} (hp : p ∈ m.held) (hq : q ∈ m.held) :
    ∃ h, Shared.merge H (some p) (some q) m.heap = .ok h ∧ Undisturbed m h p ∧
      Shared.merge H (some p) (some q) h = .ok h ∧ (q = p → h = m.heap) := by
  obtain ⟨⟨d, x⟩, hx⟩ := m.shows p hp
  obtain ⟨⟨d', y⟩, hy⟩ := m.shows q hq
  by_cases hd : d' = d
  · subst hd
    by_cases hqp : q = p
    · subst hqp
      have hmerge := merge_idle (H := H) hx hx fun i => (UnifiedTime.later_eq_false _ _).2 le_rfl
      exact ⟨m.heap, hmerge, .of_kept hx m.balanced (Lib.Heap.Kept.refl m.heap q), hmerge, fun _ => rfl⟩
    · obtain ⟨h, hmerge, hb, hk, hx'⟩ := merge_spec m.balanced hp hq hx hy
      have hy' := hy.kept hx hk hb hq hqp
      have hlater : ∀ i, (y.vars i).timestamp.later ((x.merge y).vars i).timestamp = false := by
        intro i
        have hstamp := Lib.LastWriter.stamp_join stamp (x.vars i) (y.vars i)
        rw [UnifiedTime.later_eq_false, merge_vars]
        unfold stamp at hstamp ⊢
        rw [hstamp]
        exact le_max_right _ _
      have hidle := merge_idle (H := H) hx' hy' hlater
      exact ⟨h, hmerge, .of_kept hx hb hk, hidle, fun h => absurd h hqp⟩
  · have hmerge : Shared.merge H (some p) (some q) m.heap = .ok m.heap := by
      obtain ⟨r, hr, hrd⟩ := getState_of_shows hx
      obtain ⟨t, ht, htd⟩ := getState_of_shows hy
      simp only [Shared.merge, Shared.operate, hr, ht, bind, Except.bind]
      rw [hrd, htd, if_neg hd]
    exact ⟨m.heap, hmerge, .of_kept hx m.balanced (Lib.Heap.Kept.refl m.heap p), hmerge, fun _ => rfl⟩

/-- **The last writer wins.**  A family that is merged into one of its states, in any order and
with any repetitions, gives the variables with the greatest timestamps; whatever the order and
the target, these are the same.  A merge changes no state but its target, and nothing when it
is done again. -/
theorem last_writer_wins (m : Memory κ σ H) {d : DescriptorPtr}
    {Same : (i : Fin d.desc.vars.length) → Variable κ σ (d.desc.vars.get i) →
      Variable κ σ (d.desc.vars.get i) → Prop} (F : Family m d Same) :
    (∀ p l, F.Order p l → ∃ h x, Shared.mergeAll H p l m.heap = .ok h ∧ Undisturbed m h p ∧
      Shows h p ⟨d, x⟩ ∧ (∀ i, F.Latest i (x.vars i)) ∧
      ∀ p' l' h' x', F.Order p' l' → Shared.mergeAll H p' l' m.heap = .ok h' → Shows h' p' ⟨d, x'⟩ →
        ∀ i, Same i (x.vars i) (x'.vars i)) ∧
    ∀ p ∈ m.held, ∀ q ∈ m.held, ∃ h, Shared.merge H (some p) (some q) m.heap = .ok h ∧
      Undisturbed m h p ∧ Shared.merge H (some p) (some q) h = .ok h ∧ (q = p → h = m.heap) := by
  refine ⟨fun p l hl => ?_, fun p hp q hq => merge_again m hp hq⟩
  obtain ⟨h, x, heq, hundisturbed, hx, hlatest⟩ := hl.merged
  refine ⟨h, x, heq, hundisturbed, hx, hlatest, fun p' l' h' x' hl' heq' hx' i => ?_⟩
  obtain ⟨h'', x'', heq'', -, hx'', hlatest'⟩ := hl'.merged
  obtain rfl := Except.ok.inj (heq'.symm.trans heq'')
  obtain rfl := hx'.unique hx''
  exact (hlatest i).same (hlatest' i)

/-! ## Three doors, of which two are one -/

def doorPtr : DescriptorPtr where
  bucket := "door"
  version := 1
  desc := { name := "Door", version := 1, vars := [{ type := .int, name := "n", size := 1 }], few := by decide }

/-- The only variable of a door. -/
def doorVar (n secs : UInt32) : (v : VarDescriptor) → Variable Empty (Option Nat) v
  | { type := .int, .. } => { elems := [n], timestamp := ⟨secs, 0⟩ }
  | { type := _, .. } => { elems := [] }

def doorRef (var : Nat) : StateRef where
  desc := doorPtr
  vars _ := var

def doorData (n secs : UInt32) : StateData Empty (Option Nat) doorPtr.desc where
  vars _ := doorVar n secs _

/-- The doors are at 0, 1 and 4; the last two share a variable. -/
def doorHeap : Heap (Obj Empty (Option Nat)) :=
  [some ⟨.state (doorRef 2), 1⟩, some ⟨.state (doorRef 3), 1⟩,
    some ⟨.variable ⟨_, doorVar 5 1 (doorPtr.desc.vars.get ⟨0, by decide⟩)⟩, 1⟩,
    some ⟨.variable ⟨_, doorVar 7 2 (doorPtr.desc.vars.get ⟨0, by decide⟩)⟩, 2⟩,
    some ⟨.state (doorRef 3), 1⟩]

theorem one_var : ∀ i : Fin doorPtr.desc.vars.length, i = ⟨0, by decide⟩ := by decide

theorem shows_door {p var : Nat} (n secs : UInt32) (hp : doorHeap.get p = some (.state (doorRef var)))
    (hvar : doorHeap.get var =
      some (.variable ⟨_, doorVar n secs (doorPtr.desc.vars.get ⟨0, by decide⟩)⟩)) :
    Shows doorHeap p ⟨doorPtr, doorData n secs⟩ := by
  refine ⟨fun _ => var, hp, fun i => ?_⟩
  rw [one_var i]
  exact hvar

theorem doorHeap_balanced : doorHeap.Balanced (Obj.owns Option.toList) [0, 1, 4] := by
  constructor
  · intro b
    rcases b with _ | _ | _ | _ | _ | b
    · rfl
    · rfl
    · rfl
    · rfl
    · rfl
    · have hnone : doorHeap.cell (b + 5) = none := rfl
      rw [hnone]
      simp [Heap.refsOf, Heap.owned, doorHeap, Heap.ownedBy, Obj.owns, Obj.children, doorRef, doorPtr, doorVar]
  · intro b c hc
    rcases b with _ | _ | _ | _ | _ | b
    · cases hc
      decide
    · cases hc
      decide
    · cases hc
      decide
    · cases hc
      decide
    · cases hc
      decide
    · cases hc

def threeDoors : Memory Empty (Option Nat) Option.toList where
  heap := doorHeap
  held := [0, 1, 4]
  balanced := doorHeap_balanced
  shows := by
    simp only [List.mem_cons, List.not_mem_nil, or_false, forall_eq_or_imp, forall_eq]
    exact ⟨⟨_, shows_door 5 1 rfl rfl⟩, ⟨_, shows_door 7 2 rfl rfl⟩,
      ⟨_, shows_door 7 2 rfl rfl⟩⟩

def doorFamily : Family threeDoors doorPtr (fun _ => Eq) where
  members := [0, 1, 4]
  held _ hf := hf
  data f := if f = 0 then doorData 5 1 else doorData 7 2
  shows := by
    simp only [List.mem_cons, List.not_mem_nil, or_false, forall_eq_or_imp, forall_eq]
    exact ⟨shows_door 5 1 rfl rfl, shows_door 7 2 rfl rfl, shows_door 7 2 rfl rfl⟩
  agree := by
    intro f _ g _ i hstamp
    rw [one_var i] at hstamp ⊢
    by_cases hf : f = 0
    · by_cases hg : g = 0
      · rw [hf, hg]
      · rw [if_pos hf, if_neg hg] at hstamp
        exact absurd hstamp (by decide)
    · by_cases hg : g = 0
      · rw [if_neg hf, if_pos hg] at hstamp
        exact absurd hstamp (by decide)
      · rw [if_neg hf, if_neg hg]

theorem last_writer_wins_doors : ∃ h x, Shared.mergeAll Option.toList 0 [4, 1, 0, 4] threeDoors.heap = .ok h ∧
    Shows h 0 ⟨doorPtr, x⟩ ∧ x.vars ⟨0, by decide⟩ = doorVar 7 2 _ := by
  have horder : doorFamily.Order 0 [4, 1, 0, 4] := ⟨by decide, by decide, by decide⟩
  obtain ⟨h, x, heq, -, hx, hlatest, -⟩ := (last_writer_wins threeDoors doorFamily).1 0 _ horder
  refine ⟨h, x, heq, hx, ?_⟩
  obtain ⟨⟨f, hf, hvar⟩, hle⟩ := hlatest ⟨0, by decide⟩
  by_cases hf0 : f = 0
  · -- The first door is not the latest.
    have hearlier := hle 1 (by decide)
    rw [hvar, hf0] at hearlier
    exact absurd hearlier (by decide)
  · rw [hvar]
    show (if f = 0 then _ else doorData 7 2).vars _ = _
    rw [if_neg hf0]
    rfl

end Dirtsand.SDL
