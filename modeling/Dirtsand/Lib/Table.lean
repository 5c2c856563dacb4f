import Mathlib.Data.List.Basic
import Mathlib.Data.List.Nodup
import Mathlib.Tactic

/-!
# Assignments to the columns of a table

A row has a text or NULL under the name of each column.  A statement assigns the
texts of its parameters, which it names by number, to columns, which it names by
name.  What a column keeps of a text is up to its type, and a text that a type
does not take is an error.

* `resolve_numbered` — a statement that numbers its parameters one after the other
  assigns each of them to its column.
* `Row.assign_of_mem`, `Row.assign_of_not_mem` — a row after that.
-/

namespace Dirtsand.Lib.Table

variable {τ : Type}

structure Column (τ : Type) where
  name : String
  type : τ
  default : Option String := none
  notNull : Bool := false

/-- `none` is NULL. -/
abbrev Row := String → Option String

/-- Every column at its default. -/
def defaults (schema : List (Column τ)) : Row := fun name =>
  (schema.find? (·.name = name)).bind Column.default

/-- No column is NULL that must not be. -/
def Row.allowed (schema : List (Column τ)) (row : Row) : Bool :=
  schema.all fun column => !column.notNull || (row column.name).isSome

/-- Texts in the place of what columns had. -/
def Row.assign (row : Row) (values : List (String × String)) : Row := fun name =>
  (values.lookup name).or (row name)

section

variable (input : τ → String → Option String) (schema : List (Column τ))

/-- What a column keeps of a text. -/
def keep (name text : String) : Option String := do
  let column ← schema.find? (·.name = name)
  input column.type text

def keepAll : List (String × String) → Option (List (String × String))
  | [] => some []
  | (name, text) :: rest => do
    let kept ← keep input schema name text
    let rest ← keepAll rest
    some ((name, kept) :: rest)

/-- The texts that numbered parameters stand for.  They are numbered from 1. -/
def resolve (params : List String) : List (String × Nat) → Option (List (String × String))
  | [] => some []
  | (_, 0) :: _ => none
  | (name, k + 1) :: rest => do
    let text ← params[k]?
    let rest ← resolve params rest
    some ((name, text) :: rest)

/-- What a list of assignments keeps: an error if a column is assigned twice. -/
def assignments (params : List String) (sets : List (String × Nat)) :
    Option (List (String × String)) := do
  if ¬ (sets.map Prod.fst).Nodup then none
  else
    let values ← resolve params sets
    keepAll input schema values

end

/-! ## Numbered parameters -/

/-- Columns with the numbers of their parameters, from `k + 1` on. -/
def numbered : Nat → List (String × String) → List (String × Nat)
  | _, [] => []
  | k, (name, _) :: rest => (name, k + 1) :: numbered (k + 1) rest

theorem fst_numbered (k : Nat) (pairs : List (String × String)) :
    (numbered k pairs).map Prod.fst = pairs.map Prod.fst := by
  induction pairs generalizing k with
  | nil => rfl
  | cons pair pairs ih => rw [numbered, List.map_cons, List.map_cons, ih]

/-- **Parameters that are numbered one after the other.** -/
theorem resolve_numbered (before : List String) (pairs : List (String × String)) :
    resolve (before ++ pairs.map Prod.snd) (numbered before.length pairs) = some pairs := by
  induction pairs generalizing before with
  | nil => rfl
  | cons pair pairs ih =>
    obtain ⟨name, text⟩ := pair
    have htext : (before ++ ((name, text) :: pairs).map Prod.snd)[before.length]? = some text := by
      rw [List.map_cons, List.getElem?_append_right (le_refl _), Nat.sub_self]
      rfl
    have hrest := ih (before ++ [text])
    rw [List.append_assoc, List.length_append, List.length_singleton] at hrest
    rw [numbered, resolve, htext]
    show (resolve (before ++ ([text] ++ pairs.map Prod.snd)) _).bind _ = _
    rw [hrest]
    rfl

theorem assignments_numbered (input : τ → String → Option String) (schema : List (Column τ))
    (before : List String) {pairs : List (String × String)} (h : (pairs.map Prod.fst).Nodup) :
    assignments input schema (before ++ pairs.map Prod.snd) (numbered before.length pairs) =
      keepAll input schema pairs := by
  rw [assignments, fst_numbered, if_neg (not_not.2 h), resolve_numbered]
  rfl

/-! ## Rows after assignments -/

section

variable {input : τ → String → Option String} {schema : List (Column τ)}
  {pairs values : List (String × String)}

theorem fst_keepAll (h : keepAll input schema pairs = some values) :
    values.map Prod.fst = pairs.map Prod.fst := by
  induction pairs generalizing values with
  | nil =>
    cases h
    rfl
  | cons pair pairs ih =>
    obtain ⟨name, text⟩ := pair
    obtain ⟨kept, -, h⟩ := Option.bind_eq_some_iff.1 h
    obtain ⟨rest, hrest, h⟩ := Option.bind_eq_some_iff.1 h
    cases h
    rw [List.map_cons, List.map_cons, ih hrest]

theorem keepAll_none {pair : String × String} (hpair : pair ∈ pairs)
    (h : keep input schema pair.1 pair.2 = none) : keepAll input schema pairs = none := by
  induction pairs with
  | nil => exact absurd hpair List.not_mem_nil
  | cons first pairs ih =>
    obtain ⟨name, text⟩ := first
    rw [keepAll]
    obtain rfl | hpair := List.mem_cons.1 hpair
    · rw [h]
      rfl
    · rw [ih hpair]
      cases keep input schema name text with
      | none => rfl
      | some kept => rfl

/-- Texts that are kept as they are. -/
theorem keepAll_same (h : ∀ pair ∈ pairs, keep input schema pair.1 pair.2 = some pair.2) :
    keepAll input schema pairs = some pairs := by
  induction pairs with
  | nil => rfl
  | cons first pairs ih =>
    obtain ⟨name, text⟩ := first
    rw [keepAll, h (name, text) List.mem_cons_self,
      ih fun pair hpair => h pair (List.mem_cons_of_mem _ hpair)]
    rfl

theorem lookup_eq_none {name : String} (h : name ∉ values.map Prod.fst) :
    values.lookup name = none := by
  rw [List.lookup_eq_none_iff]
  intro p hp
  rw [bne_iff_ne]
  rintro rfl
  exact h (List.mem_map_of_mem hp)

/-- **A column that is not assigned stays as it was.** -/
theorem Row.assign_of_not_mem (row : Row) {name : String}
    (h : keepAll input schema pairs = some values) (hname : name ∉ pairs.map Prod.fst) :
    row.assign values name = row name := by
  rw [Row.assign, lookup_eq_none (by rw [fst_keepAll h]; exact hname), Option.none_or]

/-- **A column that is assigned has what its type keeps of the text.** -/
theorem Row.assign_of_mem (row : Row) {name text : String}
    (h : keepAll input schema pairs = some values) (hnodup : (pairs.map Prod.fst).Nodup)
    (hmem : (name, text) ∈ pairs) :
    ∃ kept, keep input schema name text = some kept ∧ row.assign values name = some kept := by
  induction pairs generalizing values with
  | nil => exact absurd hmem List.not_mem_nil
  | cons pair pairs ih =>
    obtain ⟨name', text'⟩ := pair
    obtain ⟨kept, hkept, h⟩ := Option.bind_eq_some_iff.1 h
    obtain ⟨rest, hrest, h⟩ := Option.bind_eq_some_iff.1 h
    cases h
    rw [List.map_cons, List.nodup_cons] at hnodup
    obtain heq | hmem := List.mem_cons.1 hmem
    · cases heq
      refine ⟨kept, hkept, ?_⟩
      rw [Row.assign, List.lookup_cons_self]
      rfl
    · obtain ⟨kept', hkept', hassign⟩ := ih hrest hnodup.2 hmem
      refine ⟨kept', hkept', ?_⟩
      have hmem' : name ∈ pairs.map Prod.fst := List.mem_map.2 ⟨_, hmem, rfl⟩
      have hne : name ≠ name' := by
        rintro rfl
        exact hnodup.1 hmem'
      rw [Row.assign, List.lookup_cons, beq_eq_false_iff_ne.2 hne]
      exact hassign

end

end Dirtsand.Lib.Table
