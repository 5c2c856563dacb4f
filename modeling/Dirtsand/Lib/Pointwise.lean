import Mathlib.Data.Fin.Tuple.Basic
import Mathlib.Data.List.Forall2

/-!
# Computations and relations at each point

`pointwise` runs one computation for each index and collects the results.  Two
lists are compared side by side.
-/

namespace Dirtsand.Lib

variable {ε : Type}

/-- The results at every index, or the failure at the first index that has one. -/
def pointwise : {n : Nat} → {β : Fin n → Type} → ((i : Fin n) → Except ε (β i)) →
    Except ε ((i : Fin n) → β i)
  | 0, _, _ => .ok fun i => i.elim0
  | _ + 1, β, f =>
    match f 0 with
    | .error e => .error e
    | .ok a =>
      match pointwise fun i => f i.succ with
      | .error e => .error e
      | .ok g => .ok (Fin.cons (α := β) a g)

theorem pointwise_eq_ok {n : Nat} {β : Fin n → Type} {f : (i : Fin n) → Except ε (β i)}
    {g : (i : Fin n) → β i} : pointwise f = .ok g ↔ ∀ i, f i = .ok (g i) := by
  induction n with
  | zero =>
    refine iff_of_true ?_ fun i => i.elim0
    exact congrArg Except.ok (funext fun i => i.elim0)
  | succ n ih =>
    rw [pointwise, Fin.forall_fin_succ]
    constructor
    · intro h
      split at h
      · cases h
      · rename_i a ha
        split at h
        · cases h
        · rename_i g' hg
          obtain rfl := Except.ok.inj h
          exact ⟨ha, ih.1 hg⟩
    · rintro ⟨h0, hs⟩
      rw [h0]
      dsimp only
      rw [ih.2 hs]
      exact congrArg Except.ok (Fin.cons_self_tail g)

theorem bind_eq_ok {α β : Type} {x : Except ε α} {f : α → Except ε β} {b : β} :
    (x >>= f) = .ok b ↔ ∃ a, x = .ok a ∧ f a = .ok b := by
  cases x with
  | error e => exact iff_of_false (fun h => nomatch h) fun ⟨_, h, _⟩ => nomatch h
  | ok a =>
    constructor
    · exact fun h => ⟨a, rfl, h⟩
    · rintro ⟨a', ha, h⟩
      obtain rfl := Except.ok.inj ha
      exact h

/-! ## Lists side by side -/

theorem forall₂_append {α β : Type} {R : α → β → Prop} {as as' : List α} {bs bs' : List β}
    (hlen : as.length = bs.length) :
    List.Forall₂ R (as ++ as') (bs ++ bs') ↔ List.Forall₂ R as bs ∧ List.Forall₂ R as' bs' := by
  induction as generalizing bs with
  | nil =>
    obtain rfl := List.length_eq_zero_iff.1 hlen.symm
    exact (and_iff_right .nil).symm
  | cons a as ih =>
    obtain _ | ⟨b, bs⟩ := bs
    · cases hlen
    · rw [List.cons_append, List.cons_append, List.forall₂_cons, List.forall₂_cons,
        ih (Nat.succ.inj hlen), and_assoc]

theorem forall₂_const {α β : Type} {R : α → β → Prop} {P : α → Prop} {as : List α} {bs : List β}
    (hlen : as.length = bs.length) (h : ∀ a ∈ as, ∀ b ∈ bs, R a b ↔ P a) :
    List.Forall₂ R as bs ↔ ∀ a ∈ as, P a := by
  induction as generalizing bs with
  | nil =>
    obtain rfl := List.length_eq_zero_iff.1 hlen.symm
    exact iff_of_true .nil fun a ha => absurd ha List.not_mem_nil
  | cons a as ih =>
    obtain _ | ⟨b, bs⟩ := bs
    · cases hlen
    · have htail := ih (Nat.succ.inj hlen) fun a' ha' b' hb' =>
        h a' (List.mem_cons_of_mem a ha') b' (List.mem_cons_of_mem b hb')
      rw [List.forall₂_cons, List.forall_mem_cons, htail,
        h a List.mem_cons_self b List.mem_cons_self]

/-- A computation for each member of a list. -/
theorem mapM_eq_ok {α β : Type} {f : α → Except ε β} {as : List α} {bs : List β} :
    as.mapM f = .ok bs ↔ List.Forall₂ (fun a b => f a = .ok b) as bs := by
  induction as generalizing bs with
  | nil =>
    constructor
    · intro h
      obtain rfl := Except.ok.inj h
      exact .nil
    · intro h
      cases h
      rfl
  | cons a as ih =>
    rw [List.mapM_cons]
    constructor
    · intro h
      cases ha : f a with
      | error e =>
        rw [ha] at h
        cases h
      | ok b =>
        rw [ha] at h
        cases has : as.mapM f with
        | error e =>
          rw [has] at h
          cases h
        | ok bs' =>
          rw [has] at h
          obtain rfl := Except.ok.inj h
          exact .cons ha (ih.1 has)
    · intro h
      cases h with
      | cons ha has =>
        rw [ha, ih.2 has]
        rfl

end Dirtsand.Lib
