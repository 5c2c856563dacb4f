import Mathlib.Data.List.Basic
import Mathlib.Tactic

/-!
# Maps in the order of their keys

A `std::map` whose keys are compared by a number that each of them has: the list
of its entries, in order.

* `SortedMap.set_last` — an entry behind all others is put at the end.
* `SortedMap.length_set_le` — at most one entry is new.
-/

namespace Dirtsand.Lib

structure SortedMap {κ : Type} (rank : κ → Nat) (ν : Type) where
  entries : List (κ × ν)
  sorted : entries.Pairwise fun p q => rank p.1 < rank q.1

namespace SortedMap

variable {κ ν : Type} {rank : κ → Nat}

@[ext] theorem ext {m m' : SortedMap rank ν} (h : m.entries = m'.entries) : m = m' := by
  cases m
  cases m'
  cases h
  rfl

def empty : SortedMap rank ν := ⟨[], .nil⟩

/-- The entries after the value of a key is set; the key stays that was there. -/
def setIn (rank : κ → Nat) (k : κ) (v : ν) : List (κ × ν) → List (κ × ν)
  | [] => [(k, v)]
  | p :: entries =>
    if rank k < rank p.1 then (k, v) :: p :: entries
    else if rank k = rank p.1 then (p.1, v) :: entries
    else p :: setIn rank k v entries

theorem rank_of_mem_setIn {k : κ} {v : ν} {entries : List (κ × ν)} {q : κ × ν}
    (h : q ∈ setIn rank k v entries) : rank q.1 = rank k ∨ ∃ p ∈ entries, rank q.1 = rank p.1 := by
  induction entries with
  | nil => exact .inl (congrArg (fun p => rank p.1) (List.mem_singleton.1 h))
  | cons p entries ih =>
    rw [setIn] at h
    split at h
    · obtain rfl | hmem := List.mem_cons.1 h
      · exact .inl rfl
      · exact .inr ⟨q, hmem, rfl⟩
    · split at h
      · obtain rfl | hmem := List.mem_cons.1 h
        · exact .inr ⟨p, List.mem_cons_self, rfl⟩
        · exact .inr ⟨q, List.mem_cons_of_mem p hmem, rfl⟩
      · obtain rfl | hmem := List.mem_cons.1 h
        · exact .inr ⟨q, List.mem_cons_self, rfl⟩
        · obtain hk | ⟨p', hp', heq⟩ := ih hmem
          · exact .inl hk
          · exact .inr ⟨p', List.mem_cons_of_mem p hp', heq⟩

theorem setIn_sorted (k : κ) (v : ν) {entries : List (κ × ν)}
    (h : entries.Pairwise fun p q => rank p.1 < rank q.1) :
    (setIn rank k v entries).Pairwise fun p q => rank p.1 < rank q.1 := by
  induction entries with
  | nil => exact List.pairwise_singleton _ _
  | cons p entries ih =>
    obtain ⟨hp, hrest⟩ := List.pairwise_cons.1 h
    rw [setIn]
    split
    · rename_i hlt
      refine List.pairwise_cons.2 ⟨fun q hq => ?_, h⟩
      obtain rfl | hq := List.mem_cons.1 hq
      · exact hlt
      · exact hlt.trans (hp q hq)
    · split
      · exact List.pairwise_cons.2 ⟨hp, hrest⟩
      · refine List.pairwise_cons.2 ⟨fun q hq => ?_, ih hrest⟩
        obtain hk | ⟨p', hp', heq⟩ := rank_of_mem_setIn hq
        · omega
        · rw [heq]
          exact hp p' hp'

def set (m : SortedMap rank ν) (k : κ) (v : ν) : SortedMap rank ν :=
  ⟨setIn rank k v m.entries, setIn_sorted k v m.sorted⟩

theorem set_last {m : SortedMap rank ν} {k : κ} (h : ∀ p ∈ m.entries, rank p.1 < rank k) (v : ν) :
    (m.set k v).entries = m.entries ++ [(k, v)] := by
  show setIn rank k v m.entries = _
  generalize m.entries = entries at h
  induction entries with
  | nil => rfl
  | cons p entries ih =>
    have hp := h p List.mem_cons_self
    rw [setIn, if_neg (by omega), if_neg (by omega), ih fun q hq => h q (List.mem_cons_of_mem p hq)]
    rfl

theorem length_set_le (m : SortedMap rank ν) (k : κ) (v : ν) :
    (m.set k v).entries.length ≤ m.entries.length + 1 := by
  show (setIn rank k v m.entries).length ≤ _
  induction m.entries with
  | nil => exact le_rfl
  | cons p entries ih =>
    rw [setIn]
    split
    · exact le_rfl
    · split
      · exact Nat.le_succ _
      · rw [List.length_cons, List.length_cons]
        omega

end SortedMap

end Dirtsand.Lib
