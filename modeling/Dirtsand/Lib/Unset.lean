import Mathlib.Data.List.Basic
import Mathlib.Tactic

/-!
# What memory holds before it is set

A new array of which the first elements were set has the rest from before, and a
computation that looks at those may end in another way each time.  It is
`Determined` where it does not, and never goes outside of an array.

* `le_of_filled` — an array that is always the same was set to its end.
* `Determined.iff_of_const` — what does not look at the memory is determined if it
  stays inside.
* `determined_map`, `determined_comp` — neither what is made of the value nor memory that
  is not looked at makes a difference.
-/

namespace Dirtsand.Lib

variable {α ε : Type}

/-- A new array of which the first elements were set; `memory` is what was in its place. -/
def filled (memory : Nat → α) (size : Nat) (set : List α) : List α :=
  set ++ (List.range' set.length (size - set.length)).map memory

theorem length_filled {size : Nat} {set : List α} (h : set.length ≤ size) (memory : Nat → α) :
    (filled memory size set).length = size := by
  rw [filled, List.length_append, List.length_map, List.length_range']
  omega

theorem filled_eq {size : Nat} {set : List α} (h : size ≤ set.length) (memory : Nat → α) :
    filled memory size set = set := by
  have hzero : size - set.length = 0 := by omega
  rw [filled, hzero]
  exact List.append_nil set

theorem filled_getElem? {size i : Nat} {set : List α} (h : set.length ≤ i) (hi : i < size)
    (memory : Nat → α) : (filled memory size set)[i]? = some (memory i) := by
  rw [filled, List.getElem?_append_right h, List.getElem?_map,
    List.getElem?_range' (by omega)]
  show some (memory (set.length + 1 * (i - set.length))) = _
  congr 2
  omega

theorem take_filled {size k : Nat} {set : List α} (h : k ≤ set.length) (memory : Nat → α) :
    (filled memory size set).take k = set.take k := List.take_append_of_le_length h

/-- An array whose first elements are the same, whatever the memory holds, was set so far. -/
theorem le_of_take_filled {a b : α} (hab : a ≠ b) {size k : Nat} {set : List α}
    (h : ∀ memory memory' : Nat → α,
      (filled memory size set).take k = (filled memory' size set).take k) :
    min k size ≤ set.length := by
  by_contra hlt
  rw [not_le, lt_min_iff] at hlt
  have hsame := congrArg (fun l => l[set.length]?) (h (fun _ => a) fun _ => b)
  have helem : ∀ memory : Nat → α,
      ((filled memory size set).take k)[set.length]? = some (memory set.length) := by
    intro memory
    rw [List.getElem?_take, if_pos hlt.1, filled_getElem? le_rfl hlt.2]
  rw [helem, helem] at hsame
  exact hab (Option.some.inj hsame)

theorem le_of_filled {a b : α} (hab : a ≠ b) {size : Nat} {set : List α}
    (h : ∀ memory memory' : Nat → α, filled memory size set = filled memory' size set) :
    size ≤ set.length := by
  have hmin := le_of_take_filled hab fun memory memory' =>
    congrArg (List.take size) (h memory memory')
  rwa [Nat.min_self] at hmin

/-! ## How a computation ends -/

/-- With an exception, by going outside of an array, or with a value. -/
inductive Outcome (α : Type) where
  | threw
  | outside
  | value (a : α)
deriving DecidableEq

/-- The value goes through a function. -/
def Outcome.map {β : Type} (f : α → β) : Outcome α → Outcome β
  | .threw => .threw
  | .outside => .outside
  | .value a => .value (f a)

theorem Outcome.map_eq_outside {β : Type} {f : α → β} {o : Outcome α} :
    o.map f = .outside ↔ o = .outside := by
  cases o <;> simp [Outcome.map]

theorem Outcome.map_inj {β : Type} {f : α → β} (hf : Function.Injective f) {o o' : Outcome α} :
    o.map f = o'.map f ↔ o = o' := by
  cases o <;> cases o' <;> simp [Outcome.map, hf.eq_iff]

/-- Whatever the memory holds, the computation ends in the same way, inside of its arrays. -/
def Determined (run : ε → Outcome α) : Prop := ∃ o, o ≠ .outside ∧ ∀ e, run e = o

theorem Determined.iff_of_const [Nonempty ε] {run : ε → Outcome α} {o : Outcome α}
    (h : ∀ e, run e = o) : Determined run ↔ o ≠ .outside := by
  constructor
  · rintro ⟨o', hne, hall⟩
    obtain ⟨e⟩ := ‹Nonempty ε›
    rw [← h e, hall e]
    exact hne
  · exact fun hne => ⟨o, hne, h⟩

theorem Determined.same {run : ε → Outcome α} (h : Determined run) (e e' : ε) : run e = run e' := by
  obtain ⟨o, -, hall⟩ := h
  rw [hall, hall]

theorem Determined.inside {run : ε → Outcome α} (h : Determined run) (e : ε) : run e ≠ .outside := by
  obtain ⟨o, hne, hall⟩ := h
  rw [hall]
  exact hne

/-- What is made of the value makes no difference, if it is told from others. -/
theorem determined_map {β : Type} {run : ε → Outcome α} {f : α → β} (hf : Function.Injective f)
    [Nonempty ε] : Determined (fun e => (run e).map f) ↔ Determined run := by
  constructor
  · intro h
    obtain ⟨e⟩ := ‹Nonempty ε›
    exact ⟨run e, fun houtside => h.inside e (Outcome.map_eq_outside.2 houtside), fun e' =>
      (Outcome.map_inj hf).1 (h.same e' e)⟩
  · rintro ⟨o, hne, hall⟩
    exact ⟨o.map f, fun houtside => hne (Outcome.map_eq_outside.1 houtside), fun e => congrArg _ (hall e)⟩

/-- Nor does memory that is not looked at. -/
theorem determined_comp {δ : Type} {run : δ → Outcome α} {g : ε → δ} (hg : Function.Surjective g) :
    Determined (fun e => run (g e)) ↔ Determined run := by
  constructor
  · rintro ⟨o, hne, hall⟩
    refine ⟨o, hne, fun d => ?_⟩
    obtain ⟨e, rfl⟩ := hg d
    exact hall e
  · rintro ⟨o, hne, hall⟩
    exact ⟨o, hne, fun e => hall (g e)⟩

end Dirtsand.Lib
