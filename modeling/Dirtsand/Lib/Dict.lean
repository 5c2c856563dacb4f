import Mathlib.Data.List.Basic
import Mathlib.Data.List.Pairwise

/-!
# Maps whose keys are compared by a relation of their own

A hash map takes a function for `==` on its keys.  Where that relates different
keys, a value is stored under the first of them, and found under all of them.

* `Dict.find_eq_some` — a value is found under a key exactly where an entry has
  it under a related one.
* `Dict.find_set`, `Dict.find_erase`, `Dict.find_removeIf` — what is found after
  a value was stored, an entry removed, or all entries with certain values.
-/

namespace Dirtsand.Lib

/-- A test for keys that are taken for the same one. -/
structure KeyEq (κ : Type) where
  same : κ → κ → Bool
  refl : ∀ k, same k k = true
  symm : ∀ {k l}, same k l = true → same l k = true
  trans : ∀ {k l m}, same k l = true → same l m = true → same k m = true

/-- No two entries have related keys. -/
structure Dict {κ : Type} (E : KeyEq κ) (ν : Type) where
  entries : List (κ × ν)
  distinct : entries.Pairwise fun p q => E.same p.1 q.1 = false

namespace Dict

variable {κ ν : Type} {E : KeyEq κ}

def empty : Dict E ν := ⟨[], .nil⟩

def find (d : Dict E ν) (k : κ) : Option ν :=
  (d.entries.find? fun p => E.same p.1 k).map Prod.snd

/-- The entries of which the test holds. -/
def filter (d : Dict E ν) (p : κ × ν → Bool) : Dict E ν :=
  ⟨d.entries.filter p, d.distinct.filter p⟩

def erase (d : Dict E ν) (k : κ) : Dict E ν :=
  d.filter fun p => !E.same p.1 k

/-- Remove the entries whose values pass the test. -/
def removeIf (d : Dict E ν) (p : ν → Bool) : Dict E ν :=
  d.filter fun q => !p q.2

theorem find?_of_mem {entries : List (κ × ν)}
    (h : entries.Pairwise fun p q => E.same p.1 q.1 = false) {k l : κ} {v : ν}
    (hmem : (l, v) ∈ entries) (hsame : E.same l k = true) :
    entries.find? (fun p => E.same p.1 k) = some (l, v) := by
  induction entries with
  | nil => cases hmem
  | cons p rest ih =>
    obtain ⟨hp, hrest⟩ := List.pairwise_cons.1 h
    obtain rfl | hmem := List.mem_cons.1 hmem
    · rw [List.find?_cons_of_pos]
      exact hsame
    · rw [List.find?_cons_of_neg]
      · exact ih hrest hmem
      · intro hpk
        have hpl := E.trans hpk (E.symm hsame)
        rw [hp (l, v) hmem] at hpl
        cases hpl

theorem find_eq_some {d : Dict E ν} {k : κ} {v : ν} :
    d.find k = some v ↔ ∃ l, (l, v) ∈ d.entries ∧ E.same l k = true := by
  rw [find, Option.map_eq_some_iff]
  constructor
  · rintro ⟨⟨l, w⟩, hl, rfl⟩
    have hsame := List.find?_some hl
    exact ⟨l, List.mem_of_find?_eq_some hl, hsame⟩
  · rintro ⟨l, hmem, hsame⟩
    exact ⟨(l, v), find?_of_mem d.distinct hmem hsame, rfl⟩

theorem find_eq_none {d : Dict E ν} {k : κ} :
    d.find k = none ↔ ∀ p ∈ d.entries, E.same p.1 k = false := by
  rw [find, Option.map_eq_none_iff, List.find?_eq_none]
  refine forall₂_congr fun p _ => ?_
  rw [Bool.not_eq_true]

theorem find_congr {d : Dict E ν} {k l : κ} (h : E.same k l = true) : d.find k = d.find l := by
  apply Option.ext
  intro v
  rw [find_eq_some, find_eq_some]
  constructor
  · rintro ⟨m, hm, hk⟩
    exact ⟨m, hm, E.trans hk h⟩
  · rintro ⟨m, hm, hl⟩
    exact ⟨m, hm, E.trans hl (E.symm h)⟩

theorem find_removeIf (d : Dict E ν) (p : ν → Bool) (k : κ) (v : ν) :
    (d.removeIf p).find k = some v ↔ d.find k = some v ∧ p v = false := by
  simp only [find_eq_some, removeIf, filter, List.mem_filter, Bool.not_eq_true']
  constructor
  · rintro ⟨l, ⟨hl, hp⟩, hk⟩
    exact ⟨⟨l, hl, hk⟩, hp⟩
  · rintro ⟨⟨l, hl, hk⟩, hp⟩
    exact ⟨l, ⟨hl, hp⟩, hk⟩

theorem find_erase_other (d : Dict E ν) {k l : κ} (h : E.same l k = false) :
    (d.erase k).find l = d.find l := by
  apply Option.ext
  intro v
  simp only [find_eq_some, erase, filter, List.mem_filter, Bool.not_eq_true']
  constructor
  · rintro ⟨m, ⟨hm, -⟩, hl⟩
    exact ⟨m, hm, hl⟩
  · rintro ⟨m, hm, hl⟩
    refine ⟨m, ⟨hm, ?_⟩, hl⟩
    rw [← Bool.not_eq_true]
    intro hk
    rw [E.trans (E.symm hl) hk] at h
    cases h

/-! ## Storing a value -/

theorem distinct_cons {d : Dict E ν} {k : κ} (h : d.find k = none) (v : ν) :
    ((k, v) :: d.entries).Pairwise fun p q => E.same p.1 q.1 = false := by
  refine List.pairwise_cons.2 ⟨fun p hp => ?_, d.distinct⟩
  rw [← Bool.not_eq_true]
  intro hk
  have hpk := E.symm hk
  rw [find_eq_none.1 h p hp] at hpk
  cases hpk

theorem distinct_map {d : Dict E ν} (k : κ) (v : ν) :
    (d.entries.map fun p => if E.same p.1 k then (p.1, v) else p).Pairwise
      fun p q => E.same p.1 q.1 = false := by
  refine List.pairwise_map.2 (d.distinct.imp ?_)
  intro p q hpq
  split <;> split <;> exact hpq

/-- `d[k] = v`: an entry that is there keeps its key. -/
def set (d : Dict E ν) (k : κ) (v : ν) : Dict E ν :=
  if h : d.find k = none then ⟨(k, v) :: d.entries, distinct_cons h v⟩
  else ⟨d.entries.map fun p => if E.same p.1 k then (p.1, v) else p, distinct_map k v⟩

theorem find_set_same (d : Dict E ν) {k l : κ} (h : E.same l k = true) (v : ν) :
    (d.set k v).find l = some v := by
  rw [find_congr h, find_eq_some, set]
  split
  · exact ⟨k, List.mem_cons_self, E.refl k⟩
  · rename_i hsome
    obtain ⟨w, hw⟩ := Option.ne_none_iff_exists'.1 hsome
    obtain ⟨m, hm, hk⟩ := find_eq_some.1 hw
    refine ⟨m, List.mem_map.2 ⟨(m, w), hm, ?_⟩, hk⟩
    rw [if_pos hk]

theorem find_set_other (d : Dict E ν) {k l : κ} (h : E.same l k = false) (v : ν) :
    (d.set k v).find l = d.find l := by
  have hkl : ∀ m, E.same m l = true → E.same m k = false := by
    intro m hml
    rw [← Bool.not_eq_true]
    intro hmk
    rw [E.trans (E.symm hml) hmk] at h
    cases h
  apply Option.ext
  intro w
  rw [find_eq_some, find_eq_some, set]
  split
  · constructor
    · rintro ⟨m, hm, hml⟩
      obtain hm | hm := List.mem_cons.1 hm
      · cases hm
        rw [E.symm hml] at h
        cases h
      · exact ⟨m, hm, hml⟩
    · rintro ⟨m, hm, hml⟩
      exact ⟨m, List.mem_cons_of_mem _ hm, hml⟩
  · constructor
    · rintro ⟨m, hm, hml⟩
      obtain ⟨p, hp, heq⟩ := List.mem_map.1 hm
      split at heq
      · rename_i hpk
        cases heq
        rw [hkl p.1 hml] at hpk
        cases hpk
      · cases heq
        exact ⟨m, hp, hml⟩
    · rintro ⟨m, hm, hml⟩
      refine ⟨m, List.mem_map.2 ⟨(m, w), hm, ?_⟩, hml⟩
      rw [if_neg]
      rw [hkl m hml]
      exact Bool.false_ne_true

theorem find_erase_same (d : Dict E ν) {k l : κ} (h : E.same l k = true) :
    (d.erase k).find l = none := by
  rw [find_eq_none]
  intro p hp
  have hpk := (List.mem_filter.1 hp).2
  rw [Bool.not_eq_true'] at hpk
  rw [← Bool.not_eq_true]
  intro hpl
  rw [E.trans hpl h] at hpk
  cases hpk

/-! ## The values -/

def values (d : Dict E ν) : List ν := d.entries.map Prod.snd

theorem mem_values {d : Dict E ν} {v : ν} : v ∈ d.values ↔ ∃ k, d.find k = some v := by
  rw [values, List.mem_map]
  constructor
  · rintro ⟨⟨k, w⟩, hmem, rfl⟩
    exact ⟨k, find_eq_some.2 ⟨k, hmem, E.refl k⟩⟩
  · rintro ⟨k, hk⟩
    obtain ⟨l, hmem, -⟩ := find_eq_some.1 hk
    exact ⟨(l, v), hmem, rfl⟩

theorem values_set_new {d : Dict E ν} {k : κ} (h : d.find k = none) (v : ν) :
    (d.set k v).values = v :: d.values := by
  rw [set, dif_pos h, values, List.map_cons, values]

/-- An entry that is found is the only one with its key: one that is stored over it takes its
place, and one that is erased leaves the others. -/
theorem values_split {d : Dict E ν} {k : κ} {v : ν} (h : d.find k = some v) :
    ∃ before behind, d.values = before ++ v :: behind ∧ (d.erase k).values = before ++ behind ∧
      ∀ w, (d.set k w).values = before ++ w :: behind := by
  obtain ⟨⟨l, u⟩, hfind, rfl⟩ := Option.map_eq_some_iff.1 h
  obtain ⟨hsame, before, behind, hsplit, hbefore⟩ := List.find?_eq_some_iff_append.1 hfind
  have hdistinct := d.distinct
  rw [hsplit] at hdistinct
  have hbehind : ∀ p ∈ behind, E.same p.1 k = false := by
    intro p hp
    have hlp := (List.pairwise_cons.1 (List.pairwise_append.1 hdistinct).2.1).1 p hp
    rw [← Bool.not_eq_true]
    intro hpk
    rw [E.trans hsame (E.symm hpk)] at hlp
    cases hlp
  have hbefore' : ∀ p ∈ before, E.same p.1 k = false := by
    intro p hp
    simpa using hbefore p hp
  refine ⟨before.map Prod.snd, behind.map Prod.snd, ?_, ?_, fun w => ?_⟩
  · rw [values, hsplit, List.map_append, List.map_cons]
  · have herase : (before ++ (l, u) :: behind).filter (fun p => !E.same p.1 k) = before ++ behind := by
      rw [List.filter_append, List.filter_cons_of_neg (by simp [hsame]),
        List.filter_eq_self.2 fun p hp => by simp [hbefore' p hp],
        List.filter_eq_self.2 fun p hp => by simp [hbehind p hp]]
    show List.map Prod.snd (d.entries.filter _) = _
    rw [hsplit, herase, List.map_append]
  · have hput : ∀ l : List (κ × ν), (∀ p ∈ l, E.same p.1 k = false) →
        (l.map fun p => if E.same p.1 k then (p.1, w) else p) = l := by
      intro l hl
      refine (List.map_congr_left fun p hp => ?_).trans (List.map_id l)
      rw [if_neg (by simp [hl p hp])]
      rfl
    have hsome : ¬ d.find k = none := by
      rw [h]
      exact Option.some_ne_none u
    rw [set, dif_neg hsome]
    show List.map Prod.snd (d.entries.map _) = _
    rw [hsplit, List.map_append, List.map_cons, hput before hbefore', hput behind hbehind,
      if_pos hsame, List.map_append, List.map_cons]

theorem mem_values_set {d : Dict E ν} {k : κ} {v w : ν} (h : w ∈ (d.set k v).values) :
    w = v ∨ w ∈ d.values := by
  cases hfind : d.find k with
  | none =>
    rw [values_set_new hfind] at h
    exact List.mem_cons.1 h
  | some u =>
    obtain ⟨before, behind, hvalues, -, hset⟩ := values_split hfind
    rw [hset, List.mem_append, List.mem_cons] at h
    rw [hvalues, List.mem_append, List.mem_cons]
    obtain h | rfl | h := h
    · exact .inr (.inl h)
    · exact .inl rfl
    · exact .inr (.inr (.inr h))

theorem mem_values_erase {d : Dict E ν} {k : κ} {w : ν} (h : w ∈ (d.erase k).values) :
    w ∈ d.values := by
  obtain ⟨p, hp, rfl⟩ := List.mem_map.1 h
  exact List.mem_map.2 ⟨p, (List.mem_filter.1 hp).1, rfl⟩

end Dict

end Dirtsand.Lib
