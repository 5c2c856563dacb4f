import Mathlib.Algebra.GroupWithZero.Nat
import Mathlib.Algebra.Order.BigOperators.Group.List
import Mathlib.Algebra.Order.Group.Nat
import Mathlib.Algebra.Order.Monoid.Canonical.Defs
import Mathlib.Data.List.Basic
import Mathlib.Data.Option.Basic
import Mathlib.Tactic.Common

/-!
# Counted objects

Objects that have handles of each other, with a count of the handles that there are of
each.  An object whose count falls to zero gives up its own handles and is gone.  What
touches an object that is gone does not go on.

* `Balanced` — every count is the number of the handles.
* `assign_spec` — an assignment of a handle keeps that, and what is held stays.
-/

namespace Dirtsand.Lib

structure Counted (α : Type) where
  item : α
  refs : Nat

/-- The objects that there ever were; where one is gone, there is nothing. -/
abbrev Heap (α : Type) : Type := List (Option (Counted α))

namespace Heap

variable {α : Type} (owns : α → List Nat)

def cell (h : Heap α) (a : Nat) : Option (Counted α) := (h[a]?).join

def get (h : Heap α) (a : Nat) : Option α := (h.cell a).map Counted.item

/-- The handles that an object has. -/
def ownedBy (o : Option (Counted α)) : List Nat := (o.map fun c => owns c.item).getD []

def refsOf (o : Option (Counted α)) : Nat := (o.map Counted.refs).getD 0

/-! ## Operations -/

def ref (h : Heap α) (a : Nat) : Option (Heap α) :=
  (h.cell a).map fun c => h.set a (some { c with refs := c.refs + 1 })

/-- Handles that are given up, one after the other. -/
def unrefs : Nat → Heap α → List Nat → Option (Heap α)
  | _, h, [] => some h
  | 0, _, _ :: _ => none
  | fuel + 1, h, a :: rest =>
    match h.cell a with
    | none => none
    | some ⟨_, 0⟩ => none
    | some ⟨item, 1⟩ => unrefs fuel (h.set a none) (owns item ++ rest)
    | some ⟨item, n + 2⟩ => unrefs fuel (h.set a (some ⟨item, n + 1⟩)) rest

/-- Every handle that is given up is one of these. -/
def total (h : Heap α) : Nat := (h.map refsOf).sum

def unref (h : Heap α) (a : Nat) : Option (Heap α) := unrefs owns h.total h [a]

/-- A change of an object in place. -/
def modify (h : Heap α) (a : Nat) (f : α → α) : Option (Heap α) :=
  (h.cell a).map fun c => h.set a (some { c with item := f c.item })

/-- The assignment of a handle that an object has.  The new one is counted before the old
one is given up. -/
def assign (h : Heap α) (owner old new : Nat) (f : α → α) : Option (Heap α) := do
  let h ← h.ref new
  let h ← h.unref owns old
  h.modify owner f

/-! ## Cells -/

variable {owns} {h h' : Heap α} {a b : Nat} {c : Counted α} {x : α}

theorem lt_length (hc : h.cell a = some c) : a < h.length := by
  by_contra hlt
  rw [cell, List.getElem?_eq_none (Nat.le_of_not_lt hlt)] at hc
  cases hc

theorem cell_set (hc : h.cell a = some c) (o : Option (Counted α)) (b : Nat) :
    cell (h.set a o) b = if b = a then o else h.cell b := by
  by_cases hb : b = a
  · subst hb
    rw [cell, List.getElem?_set_self (lt_length hc), if_pos rfl]
    rfl
  · rw [cell, List.getElem?_set_ne (Ne.symm hb), if_neg hb]
    rfl

theorem getElem_of_cell (hc : h.cell a = some c) (ha : a < h.length) : h[a] = some c := by
  rw [cell, List.getElem?_eq_getElem ha] at hc
  exact hc

/-- What all cells have together, once one of them is set. -/
theorem sum_map_set {β : Type} (f : β → Nat) {l : List β} {i : Nat} (hi : i < l.length) (y : β) :
    ((l.set i y).map f).sum + f l[i] = (l.map f).sum + f y := by
  induction l generalizing i with
  | nil => simp at hi
  | cons z l ih =>
    cases i with
    | zero =>
      simp only [List.set_cons_zero, List.map_cons, List.sum_cons, List.getElem_cons_zero]
      omega
    | succ i =>
      have hset := ih (Nat.lt_of_succ_lt_succ hi)
      simp only [List.set_cons_succ, List.map_cons, List.sum_cons, List.getElem_cons_succ]
      omega

theorem sum_set (f : Option (Counted α) → Nat) (hc : h.cell a = some c) (o : Option (Counted α)) :
    ((h.set a o).map f).sum + f (some c) = (h.map f).sum + f o := by
  have hset := sum_map_set f (lt_length hc) o
  rwa [getElem_of_cell hc (lt_length hc)] at hset

theorem le_sum (f : Option (Counted α) → Nat) (hc : h.cell a = some c) :
    f (some c) ≤ (h.map f).sum := by
  rw [← getElem_of_cell hc (lt_length hc)]
  exact List.le_sum_of_mem (List.mem_map_of_mem (List.getElem_mem _))

/-! ## Counts -/

variable (owns)

/-- The handles of an object that objects have. -/
def owned (h : Heap α) (b : Nat) : Nat := (h.map fun o => (ownedBy owns o).count b).sum

/-- Every count is the number of the handles, with those that are held outside. -/
structure Balanced (h : Heap α) (held : List Nat) : Prop where
  count : ∀ b, refsOf (h.cell b) = held.count b + owned owns h b
  pos : ∀ b c, h.cell b = some c → c.refs ≠ 0

/-- The same while handles are given up.  The owner lists some that are no longer its own. -/
structure Unwinding (h : Heap α) (todo held : List Nat) (owner : Nat) (debt : List Nat) : Prop where
  count : ∀ b, refsOf (h.cell b) + debt.count b = todo.count b + held.count b + owned owns h b
  pos : ∀ b c, h.cell b = some c → c.refs ≠ 0
  debt : ∀ b, debt.count b ≤ (ownedBy owns (h.cell owner)).count b

/-- What the held handles lead to. -/
inductive Reach (h : Heap α) (held : List Nat) : Nat → Prop
  | held {a : Nat} (ha : a ∈ held) : Reach h held a
  | owned {a b : Nat} {x : α} (hr : Reach h held a) (hx : h.get a = some x) (hb : b ∈ owns x) :
      Reach h held b

/-- Only this object was changed, and some are gone. -/
def Kept (h h' : Heap α) (o : Nat) : Prop := ∀ b, b ≠ o → h'.get b = h.get b ∨ h'.get b = none

variable {owns} {held todo debt : List Nat} {owner old new : Nat} {f : α → α}

theorem owned_set {n : Nat} (hc : h.cell a = some ⟨x, n⟩) (y : α) (m b : Nat) :
    owned owns (h.set a (some ⟨y, m⟩)) b + (owns x).count b = owned owns h b + (owns y).count b :=
  sum_set (fun o => (ownedBy owns o).count b) hc _

theorem owned_set_none {n : Nat} (hc : h.cell a = some ⟨x, n⟩) (b : Nat) :
    owned owns (h.set a none) b + (owns x).count b = owned owns h b :=
  sum_set (fun o => (ownedBy owns o).count b) hc none

/-- A change of a count changes nothing else. -/
theorem item_set {n : Nat} (hc : h.cell a = some ⟨x, n⟩) (m b : Nat) :
    (cell (h.set a (some ⟨x, m⟩)) b).map Counted.item = (h.cell b).map Counted.item := by
  rw [cell_set hc]
  split
  · rename_i hb
    rw [hb, hc]
    rfl
  · rfl

theorem get_set {n : Nat} (hc : h.cell a = some ⟨x, n⟩) (m b : Nat) :
    get (h.set a (some ⟨x, m⟩)) b = h.get b :=
  item_set hc m b

theorem ownedBy_eq (h : Heap α) (b : Nat) : ownedBy owns (h.cell b) = ((h.get b).map owns).getD [] := by
  rw [ownedBy, get, Option.map_map]
  rfl

theorem count_le_owned (owns : α → List Nat) (h : Heap α) (a b : Nat) :
    (ownedBy owns (h.cell a)).count b ≤ owned owns h b := by
  cases hc : h.cell a with
  | none => simp [ownedBy]
  | some c => exact le_sum (fun o => (ownedBy owns o).count b) hc

theorem exists_of_refs (hrefs : refsOf (h.cell a) ≠ 0) : ∃ c, h.cell a = some c := by
  cases hc : h.cell a with
  | none => simp [hc, refsOf] at hrefs
  | some c => exact ⟨c, rfl⟩

theorem get_eq_some : h.get a = some x ↔ ∃ n, h.cell a = some ⟨x, n⟩ := by
  constructor
  · intro hx
    obtain ⟨⟨item, n⟩, hc, rfl⟩ := Option.map_eq_some_iff.1 hx
    exact ⟨n, hc⟩
  · rintro ⟨n, hc⟩
    rw [get, hc]
    rfl

namespace Balanced

/-- What is held is there. -/
theorem get_of_held (hb : Balanced owns h held) (ha : a ∈ held) : ∃ x, h.get a = some x := by
  have hpos := List.count_pos_iff.2 ha
  have hcount := hb.count a
  obtain ⟨⟨x, n⟩, hc⟩ := exists_of_refs (h := h) (a := a) (by omega)
  exact ⟨x, get_eq_some.2 ⟨n, hc⟩⟩

/-- So is what something that is there has a handle of. -/
theorem get_of_owned (hb : Balanced owns h held) (hx : h.get a = some x) (hmem : b ∈ owns x) :
    ∃ y, h.get b = some y := by
  obtain ⟨n, hc⟩ := get_eq_some.1 hx
  have hpos := List.count_pos_iff.2 hmem
  have hle := count_le_owned owns h a b
  rw [ownedBy_eq, hx] at hle
  dsimp only [Option.map_some, Option.getD_some] at hle
  have hcount := hb.count b
  obtain ⟨⟨y, m⟩, hc'⟩ := exists_of_refs (h := h) (a := b) (by omega)
  exact ⟨y, get_eq_some.2 ⟨m, hc'⟩⟩

theorem get_of_reach (hb : Balanced owns h held) (hr : Reach owns h held a) :
    ∃ x, h.get a = some x := by
  induction hr with
  | held ha => exact hb.get_of_held ha
  | owned _ hx hmem _ => exact hb.get_of_owned hx hmem

end Balanced

theorem Kept.refl (h : Heap α) (o : Nat) : Kept h h o := fun _ _ => .inl rfl

theorem Kept.trans {h'' : Heap α} {o : Nat} (h₁ : Kept h h' o) (h₂ : Kept h' h'' o) :
    Kept h h'' o := by
  intro b hb
  rcases h₂ b hb with hget | hget
  · rw [hget]
    exact h₁ b hb
  · exact .inr hget

/-- What is still there was not changed. -/
theorem Kept.get_eq {o : Nat} (hk : Kept h h' o) (hb : b ≠ o) (hthere : ∃ y, h'.get b = some y) :
    h'.get b = h.get b := by
  obtain ⟨y, hy⟩ := hthere
  rcases hk b hb with hget | hget
  · exact hget
  · rw [hget] at hy
    cases hy

/-! ## Giving up handles -/

namespace Unwinding

/-- What is to be given up is there. -/
theorem refs_ne_zero (hu : Unwinding owns h (a :: todo) held owner debt) :
    refsOf (h.cell a) ≠ 0 := by
  have hcount := hu.count a
  rw [List.count_cons_self] at hcount
  have hdebt := hu.debt a
  have hle := count_le_owned owns h owner a
  omega

/-- An object that is given up for the last time is not the owner. -/
theorem ne_owner (hu : Unwinding owns h (a :: todo) held owner debt) (ho : owner ∈ held)
    (hlast : refsOf (h.cell a) = 1) : owner ≠ a := by
  rintro rfl
  have hcount := hu.count owner
  rw [List.count_cons_self] at hcount
  have hdebt := hu.debt owner
  have hle := count_le_owned owns h owner owner
  have hheld := List.count_pos_iff.2 ho
  omega

theorem lower (hu : Unwinding owns h (a :: todo) held owner debt) {n : Nat}
    (hc : h.cell a = some ⟨x, n + 2⟩) :
    Unwinding owns (h.set a (some ⟨x, n + 1⟩)) todo held owner debt := by
  refine ⟨fun b => ?_, fun b c => ?_, fun b => ?_⟩
  · have hcount := hu.count b
    have howned : owned owns (h.set a (some ⟨x, n + 1⟩)) b = owned owns h b :=
      Nat.add_right_cancel (owned_set hc x (n + 1) b)
    rw [cell_set hc]
    split
    · rename_i hb
      subst hb
      rw [hc, List.count_cons_self] at hcount
      simp only [refsOf, Option.map_some, Option.getD_some] at hcount ⊢
      omega
    · rename_i hb
      rw [List.count_cons_of_ne (Ne.symm hb)] at hcount
      omega
  · rw [cell_set hc]
    split
    · rintro ⟨rfl⟩
      simp
    · exact hu.pos b c
  · rw [ownedBy_eq, get_set hc, ← ownedBy_eq]
    exact hu.debt b

theorem remove (hu : Unwinding owns h (a :: todo) held owner debt) (ho : owner ∈ held)
    (hc : h.cell a = some ⟨x, 1⟩) :
    Unwinding owns (h.set a none) (owns x ++ todo) held owner debt := by
  have hne : owner ≠ a := hu.ne_owner ho (by rw [hc]; rfl)
  refine ⟨fun b => ?_, fun b c => ?_, fun b => ?_⟩
  · have hcount := hu.count b
    have howned : owned owns (h.set a none) b + (owns x).count b = owned owns h b :=
      owned_set_none hc b
    rw [cell_set hc, List.count_append]
    split
    · rename_i hb
      subst hb
      rw [hc, List.count_cons_self] at hcount
      simp only [refsOf, Option.map_some, Option.getD_some, Option.map_none, Option.getD_none]
        at hcount ⊢
      omega
    · rename_i hb
      rw [List.count_cons_of_ne (Ne.symm hb)] at hcount
      omega
  · rw [cell_set hc]
    split
    · exact fun h => nomatch h
    · exact hu.pos b c
  · rw [cell_set hc, if_neg hne]
    exact hu.debt b

/-- **Handles are given up to the end.**  What is not gone is as it was, and the owner is
not gone. -/
theorem unrefs (hu : Unwinding owns h todo held owner debt) (ho : owner ∈ held) {fuel : Nat}
    (hfuel : h.total ≤ fuel) : ∃ h', h.unrefs owns fuel todo = some h' ∧
      Unwinding owns h' [] held owner debt ∧ h'.get owner = h.get owner ∧
      ∀ b, h'.get b = h.get b ∨ h'.get b = none := by
  induction fuel generalizing h todo with
  | zero =>
    cases todo with
    | nil => exact ⟨h, rfl, hu, rfl, fun b => .inl rfl⟩
    | cons a todo =>
      obtain ⟨c, hc⟩ := exists_of_refs hu.refs_ne_zero
      have hle := le_sum refsOf hc
      have hpos := hu.pos a c hc
      have hrefs : refsOf (some c) = c.refs := rfl
      rw [total] at hfuel
      omega
  | succ fuel ih =>
    cases todo with
    | nil => exact ⟨h, rfl, hu, rfl, fun b => .inl rfl⟩
    | cons a todo =>
      obtain ⟨⟨x, n⟩, hc⟩ := exists_of_refs hu.refs_ne_zero
      have hpos : n ≠ 0 := hu.pos a _ hc
      obtain _ | _ | n := n
      · exact absurd rfl hpos
      · have htotal : total (h.set a none) + 1 = h.total := sum_set refsOf hc none
        obtain ⟨h', heq, hu', howner, hkept⟩ := ih (hu.remove ho hc) (by omega)
        have hne : owner ≠ a := hu.ne_owner ho (by rw [hc]; rfl)
        refine ⟨h', ?_, hu', ?_, fun b => ?_⟩
        · rw [Heap.unrefs, hc]
          exact heq
        · rw [howner, get, cell_set hc, if_neg hne]
          rfl
        · rcases hkept b with hb | hb
          · rw [hb, get, cell_set hc]
            split
            · exact .inr rfl
            · exact .inl rfl
          · exact .inr hb
      · have htotal : total (h.set a (some ⟨x, n + 1⟩)) + (n + 2) = h.total + (n + 1) :=
          sum_set refsOf hc _
        obtain ⟨h', heq, hu', howner, hkept⟩ := ih (hu.lower hc) (by omega)
        refine ⟨h', ?_, hu', ?_, fun b => ?_⟩
        · rw [Heap.unrefs, hc]
          exact heq
        · rw [howner, get_set hc]
        · rw [← get_set hc (n + 1) b]
          exact hkept b

end Unwinding

/-! ## Assignment -/

/-- **An assignment keeps the balance.**  The owner is changed; everything else is as it
was, or gone. -/
theorem assign_spec (hb : Balanced owns h held) (ho : owner ∈ held) (hx : h.get owner = some x)
    (hnew : ∃ y, h.get new = some y) (hold : old ∈ owns x)
    (hf : ∀ b, (owns (f x)).count b + [old].count b = (owns x).count b + [new].count b) :
    ∃ h', h.assign owns owner old new f = some h' ∧ Balanced owns h' held ∧
      h'.get owner = some (f x) ∧ Kept h h' owner := by
  obtain ⟨y, hy⟩ := hnew
  obtain ⟨n, hc⟩ := get_eq_some.1 hy
  have hget := get_set hc (n + 1)
  -- The new handle is counted, and so far it is held outside.
  have hu : Unwinding owns (h.set new (some ⟨y, n + 1⟩)) [old] (new :: held) owner [old] := by
    refine ⟨fun b => ?_, fun b c => ?_, fun b => ?_⟩
    · have hcount := hb.count b
      have howned : owned owns (h.set new (some ⟨y, n + 1⟩)) b = owned owns h b :=
        Nat.add_right_cancel (owned_set hc y (n + 1) b)
      rw [cell_set hc]
      split
      · rename_i hb
        subst hb
        rw [hc] at hcount
        rw [List.count_cons_self]
        simp only [refsOf, Option.map_some, Option.getD_some] at hcount ⊢
        omega
      · rename_i hb
        rw [List.count_cons_of_ne (Ne.symm hb)]
        omega
    · rw [cell_set hc]
      split
      · rintro ⟨rfl⟩
        simp
      · exact hb.pos b c
    · rw [ownedBy_eq, hget, hx]
      show [old].count b ≤ (owns x).count b
      exact List.Sublist.count_le b (List.singleton_sublist.2 hold)
  obtain ⟨h₂, heq, hu₂, howner, hkept⟩ := hu.unrefs (List.mem_cons_of_mem _ ho) le_rfl
  rw [hget, hx] at howner
  obtain ⟨m, hm⟩ := get_eq_some.1 howner
  refine ⟨h₂.set owner (some ⟨f x, m⟩), ?_, ⟨fun b => ?_, fun b c => ?_⟩, ?_, fun b hne => ?_⟩
  · rw [assign, ref, hc]
    show (unref owns (h.set new _) old).bind _ = _
    rw [unref, heq]
    show h₂.modify owner f = _
    rw [modify, hm]
    rfl
  · have hcount := hu₂.count b
    have howned : owned owns (h₂.set owner (some ⟨f x, m⟩)) b + (owns x).count b =
      owned owns h₂ b + (owns (f x)).count b := owned_set hm (f x) m b
    have hslot := hf b
    have hcons : (new :: held).count b = held.count b + [new].count b := by
      rw [List.count_cons, List.count_singleton]
    have hrefs : refsOf (cell (h₂.set owner (some ⟨f x, m⟩)) b) = refsOf (h₂.cell b) := by
      rw [cell_set hm]
      split
      · rename_i hb
        rw [hb, hm]
        rfl
      · rfl
    rw [hrefs]
    simp only [List.count_nil] at hcount
    omega
  · rw [cell_set hm]
    split
    · rintro ⟨rfl⟩
      exact hu₂.pos owner ⟨x, m⟩ hm
    · exact hu₂.pos b c
  · rw [get, cell_set hm, if_pos rfl]
    rfl
  · rw [get, cell_set hm, if_neg hne]
    rw [← hget b]
    exact hkept b

/-! ## One handle at a time -/

namespace Balanced

/-- Only the counts of the held handles matter. -/
theorem congr {held' : List Nat} (hb : Balanced owns h held)
    (hcount : ∀ b, held'.count b = held.count b) : Balanced owns h held' :=
  ⟨fun b => by rw [hb.count b, hcount b], hb.pos⟩

/-- A new object without handles, held one time. -/
theorem alloc (hb : Balanced owns h held) (hleaf : owns x = []) :
    Balanced owns (h ++ [some ⟨x, 1⟩]) (h.length :: held) ∧
      get (h ++ [some ⟨x, 1⟩]) h.length = some x ∧
      ∀ b, b ≠ h.length → get (h ++ [some ⟨x, 1⟩]) b = h.get b := by
  have hnew : cell (h ++ [some ⟨x, 1⟩]) h.length = some ⟨x, 1⟩ := by
    rw [cell, List.getElem?_append_right (le_refl _), Nat.sub_self]
    rfl
  have hold : ∀ b, b ≠ h.length → cell (h ++ [some ⟨x, 1⟩]) b = h.cell b := by
    intro b hb
    rcases Nat.lt_or_gt_of_ne hb with hlt | hgt
    · rw [cell, List.getElem?_append_left hlt, cell]
    · rw [cell, List.getElem?_eq_none (by simp; omega), cell, List.getElem?_eq_none (by omega)]
  have howned : ∀ b, owned owns (h ++ [some ⟨x, 1⟩]) b = owned owns h b := by
    intro b
    simp [owned, ownedBy, hleaf]
  refine ⟨⟨fun b => ?_, fun b c hc => ?_⟩, ?_, fun b hne => ?_⟩
  · rw [howned]
    by_cases hne : b = h.length
    · subst hne
      have hcount := hb.count h.length
      have hnone : h.cell h.length = none := by
        rw [cell, List.getElem?_eq_none (le_refl _)]
        rfl
      have hrefs : refsOf (h.cell h.length) = 0 := by rw [hnone]; rfl
      rw [hnew, List.count_cons_self]
      show 1 = _
      omega
    · rw [hold b hne, List.count_cons_of_ne (Ne.symm hne)]
      exact hb.count b
  · by_cases hne : b = h.length
    · subst hne
      rw [hnew] at hc
      cases hc
      exact Nat.one_ne_zero
    · rw [hold b hne] at hc
      exact hb.pos b c hc
  · rw [get, hnew]
    rfl
  · rw [get, hold b hne, get]

/-- One more handle of an object is held. -/
theorem ref (hb : Balanced owns h held) (hx : h.get a = some x) :
    ∃ h', h.ref a = some h' ∧ Balanced owns h' (a :: held) ∧ ∀ b, h'.get b = h.get b := by
  obtain ⟨n, hc⟩ := get_eq_some.1 hx
  refine ⟨h.set a (some ⟨x, n + 1⟩), ?_, ⟨fun b => ?_, fun b c => ?_⟩, get_set hc (n + 1)⟩
  · rw [Heap.ref, hc]
    rfl
  · have hcount := hb.count b
    have howned : owned owns (h.set a (some ⟨x, n + 1⟩)) b = owned owns h b :=
      Nat.add_right_cancel (owned_set hc x (n + 1) b)
    rw [cell_set hc, howned]
    split
    · rename_i hba
      subst hba
      rw [hc] at hcount
      rw [List.count_cons_self]
      simp only [refsOf, Option.map_some, Option.getD_some] at hcount ⊢
      omega
    · rename_i hba
      rw [List.count_cons_of_ne (Ne.symm hba)]
      exact hcount
  · rw [cell_set hc]
    split
    · rintro ⟨rfl⟩
      simp
    · exact hb.pos b c

/-- A held handle of an object without handles is given up. -/
theorem unref (hb : Balanced owns h (a :: held)) (hx : h.get a = some x) (hleaf : owns x = []) :
    ∃ h', h.unref owns a = some h' ∧ Balanced owns h' held ∧
      ∀ b, b ≠ a ∨ a ∈ held → h'.get b = h.get b := by
  obtain ⟨n, hc⟩ := get_eq_some.1 hx
  have hpos : n ≠ 0 := hb.pos a _ hc
  have hle : n ≤ h.total := le_sum refsOf hc
  have hcount := hb.count a
  rw [hc, List.count_cons_self] at hcount
  have hn : n = held.count a + 1 + owned owns h a := hcount
  obtain ⟨k, hk⟩ := Nat.exists_eq_succ_of_ne_zero (n := h.total) (by omega)
  obtain _ | _ | n := n
  · exact absurd rfl hpos
  · refine ⟨h.set a none, ?_, ⟨fun b => ?_, fun b c => ?_⟩, fun b hne => ?_⟩
    · rw [Heap.unref, hk, unrefs, hc]
      show unrefs owns k _ (owns x ++ []) = _
      rw [hleaf, List.append_nil, unrefs.eq_def]
    · have howned : owned owns (h.set a none) b + (owns x).count b = owned owns h b :=
        owned_set_none hc b
      rw [hleaf, List.count_nil, Nat.add_zero] at howned
      rw [cell_set hc, howned]
      split
      · rename_i hba
        subst hba
        show 0 = _
        omega
      · rename_i hba
        have hcount' := hb.count b
        rw [List.count_cons_of_ne (Ne.symm hba)] at hcount'
        exact hcount'
    · rw [cell_set hc]
      split
      · exact fun h => nomatch h
      · exact hb.pos b c
    · have hba : b ≠ a := by
        rintro rfl
        rcases hne with hne | hmem
        · exact hne rfl
        · have hheld := List.count_pos_iff.2 hmem
          omega
      rw [get, cell_set hc, if_neg hba]
      rfl
  · refine ⟨h.set a (some ⟨x, n + 1⟩), ?_, ⟨fun b => ?_, fun b c => ?_⟩,
      fun b _ => get_set hc (n + 1) b⟩
    · rw [Heap.unref, hk, unrefs, hc]
      show unrefs owns k _ [] = _
      rw [unrefs.eq_def]
    · have howned : owned owns (h.set a (some ⟨x, n + 1⟩)) b = owned owns h b :=
        Nat.add_right_cancel (owned_set hc x (n + 1) b)
      rw [cell_set hc, howned]
      split
      · rename_i hba
        subst hba
        show n + 1 = _
        omega
      · rename_i hba
        have hcount' := hb.count b
        rw [List.count_cons_of_ne (Ne.symm hba)] at hcount'
        exact hcount'
    · rw [cell_set hc]
      split
      · rintro ⟨rfl⟩
        simp
      · exact hb.pos b c

/-- An object is changed and keeps its handles. -/
theorem modify (hb : Balanced owns h held) (hx : h.get a = some x) (hf : owns (f x) = owns x) :
    ∃ h', h.modify a f = some h' ∧ Balanced owns h' held ∧ h'.get a = some (f x) ∧
      ∀ b, b ≠ a → h'.get b = h.get b := by
  obtain ⟨n, hc⟩ := get_eq_some.1 hx
  refine ⟨h.set a (some ⟨f x, n⟩), ?_, ⟨fun b => ?_, fun b c => ?_⟩, ?_, fun b hne => ?_⟩
  · rw [Heap.modify, hc]
    rfl
  · have hcount := hb.count b
    have howned : owned owns (h.set a (some ⟨f x, n⟩)) b + (owns x).count b =
        owned owns h b + (owns x).count b := by
      rw [owned_set hc, hf]
    rw [cell_set hc, Nat.add_right_cancel howned]
    split
    · rename_i hba
      subst hba
      rw [hc] at hcount
      exact hcount
    · exact hcount
  · rw [cell_set hc]
    split
    · rintro ⟨rfl⟩
      exact hb.pos a ⟨x, n⟩ hc
    · exact hb.pos b c
  · rw [get, cell_set hc, if_pos rfl]
    rfl
  · rw [get, cell_set hc, if_neg hne]
    rfl

end Balanced

end Heap

end Dirtsand.Lib
