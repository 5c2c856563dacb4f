import Dirtsand.Lib.Graph
import Dirtsand.SDL.StateTree

/-!
# Constructing states

The constructor of a state constructs the states inside it, of the descriptors that
`FindDescriptor(name, -1)` finds for its fixed-size nested variables.

* `terminates_iff` — it ends exactly if no descriptor that it comes to refers back to
  itself.
-/

namespace Dirtsand.SDL

open Lib.Graph (Arrow Reaches Below)

/-! ## References -/

namespace DescriptorDb

/-- A variable for which the constructor of a state constructs states. -/
def Nests (v : VarDescriptor) : Prop := v.type = .stateDesc ∧ 0 < v.size

instance (v : VarDescriptor) : Decidable (Nests v) := inferInstanceAs (Decidable (_ ∧ _))

/-- The descriptors of the states inside a state. -/
def references (db : DescriptorDb) (p : DescriptorPtr) : List DescriptorPtr :=
  p.desc.vars.filterMap fun v => if Nests v then db.findDescriptor v.typeName (-1) else none

def edges (db : DescriptorDb) : List (DescriptorPtr × DescriptorPtr) :=
  db.flatMap fun p => (db.references p).map (p, ·)

variable {db : DescriptorDb} {p q : DescriptorPtr} {v : VarDescriptor}

theorem mem_references : q ∈ db.references p ↔
    ∃ v ∈ p.desc.vars, Nests v ∧ db.findDescriptor v.typeName (-1) = some q := by
  rw [references, List.mem_filterMap]
  constructor
  · rintro ⟨v, hv, hq⟩
    split at hq
    · rename_i hnests
      exact ⟨v, hv, hnests, hq⟩
    · cases hq
  · rintro ⟨v, hv, hnests, hq⟩
    exact ⟨v, hv, by rw [if_pos hnests, hq]⟩

theorem mem_edges : (p, q) ∈ db.edges ↔ p ∈ db ∧ q ∈ db.references p := by
  simp [edges, List.mem_flatMap]

theorem references_mem (h : q ∈ db.references p) : q ∈ db := by
  obtain ⟨v, -, -, hfind⟩ := mem_references.1 h
  exact (findDescriptor_mem hfind).1

theorem arrow_iff : Arrow Prod.fst Prod.snd db.edges p q ↔ p ∈ db ∧ q ∈ db.references p := by
  rw [← mem_edges]
  constructor
  · rintro ⟨⟨a, b⟩, he, rfl, rfl⟩
    exact he
  · intro h
    exact ⟨(p, q), h, rfl, rfl⟩

/-- No descriptor that `p` comes to refers back to itself. -/
def WellFounded (db : DescriptorDb) (p : DescriptorPtr) : Prop :=
  ∀ q, Reaches Prod.fst Prod.snd db.edges p q → ¬ Below Prod.fst Prod.snd db.edges q q

end DescriptorDb

/-! ## The constructor -/

section

variable {κ σ : Type} (C : Creatables κ) (db : DescriptorDb)

/-- The constructor ends on a stack for states that are nested so deep. -/
def Constructs (n : Nat) (p : DescriptorPtr) : Prop :=
  ∃ s : Option (State κ (Child κ n)), State.new (children C db n) (some p) = .ok s

/-- The constructor ends. -/
def Terminates (p : DescriptorPtr) : Prop := ∃ n, Constructs C db n p

variable {C db} {S : Children σ} {p : DescriptorPtr} {v : VarDescriptor} {n : Nat}

theorem Elem.resize_nested {typeName : String} {n : Nat} :
    (∃ es : List σ, Elem.resize (κ := κ) S typeName .stateDesc n = .ok es) ↔
      (0 < n → ∃ c, S.new typeName = .ok c) := by
  cases n with
  | zero => simp [Elem.resize]
  | succ n =>
    rw [Elem.resize]
    cases hnew : S.new typeName with
    | ok c => simp
    | error e => simp

theorem Variable.new_iff : (∃ var : Variable κ σ v, Variable.new S v = .ok var) ↔
    (DescriptorDb.Nests v → ∃ c, S.new v.typeName = .ok c) := by
  have hresize : (∃ var : Variable κ σ v, Variable.new S v = .ok var) ↔
      ∃ es : List (v.type.Elem κ σ), Elem.resize S v.typeName v.type v.size.toNat = .ok es := by
    unfold Variable.new
    cases Elem.resize (κ := κ) S v.typeName v.type v.size.toNat with
    | ok es => simp
    | error e => simp
  rw [hresize]
  obtain ⟨type, typeName, name, size, default, defaultOption, displayOption⟩ := v
  by_cases htype : type = .stateDesc
  · subst htype
    have hpos : DescriptorDb.Nests ⟨.stateDesc, typeName, name, size, default, defaultOption,
        displayOption⟩ ↔ 0 < size.toNat := by
      simp [DescriptorDb.Nests]
    rw [hpos]
    exact Elem.resize_nested
  · obtain ⟨es, hes, -⟩ := Elem.resize_simple (S := S) (κ := κ) htype typeName size.toNat
    refine iff_of_true ⟨es, hes⟩ ?_
    rintro ⟨hnested, -⟩
    exact absurd hnested htype

/-- **The constructor of a state** ends if those of the states inside it do. -/
theorem State.new_iff : (∃ s, State.new (κ := κ) S (some p) = .ok s) ↔
    ∀ v ∈ p.desc.vars, DescriptorDb.Nests v → ∃ c, S.new v.typeName = .ok c := by
  have hdata : (∃ s, State.new (κ := κ) S (some p) = .ok s) ↔
      ∃ vars : Vars κ σ p.desc, ∀ i, Variable.new S (p.desc.vars.get i) = .ok (vars i) := by
    simp only [← Lib.pointwise_eq_ok, State.new, StateData.new]
    cases Lib.pointwise fun i => Variable.new (κ := κ) S (p.desc.vars.get i) with
    | ok vars => simp
    | error e => simp
  rw [hdata]
  constructor
  · rintro ⟨vars, hvars⟩ v hv
    obtain ⟨i, rfl⟩ := List.get_of_mem hv
    exact Variable.new_iff.1 ⟨vars i, hvars i⟩
  · intro h
    have hall : ∀ i, ∃ var : Variable κ σ (p.desc.vars.get i), Variable.new S _ = .ok var :=
      fun i => Variable.new_iff.2 (h _ (List.get_mem _ i))
    choose vars hvars using hall
    exact ⟨vars, hvars⟩

theorem children_new_zero (typeName : String) : ¬ ∃ c, (children C db 0).new typeName = .ok c := by
  rintro ⟨c, -⟩
  exact nomatch c

theorem State.new_none : State.new (κ := κ) S none = .ok none := rfl

/-- A reference lowers the depth that is needed. -/
theorem Constructs.reference (n : Nat) (p q : DescriptorPtr) (h : Constructs C db n p)
    (harrow : Arrow Prod.fst Prod.snd db.edges p q) : ∃ m < n, Constructs C db m q := by
  obtain ⟨-, hq⟩ := DescriptorDb.arrow_iff.1 harrow
  obtain ⟨v, hv, hnests, hfind⟩ := DescriptorDb.mem_references.1 hq
  have hchild := State.new_iff.1 h v hv hnests
  cases n with
  | zero => exact absurd hchild (children_new_zero _)
  | succ n =>
    refine ⟨n, Nat.lt_succ_self n, ?_⟩
    rw [Constructs, ← hfind]
    exact hchild

/-- If every reference lowers a rank, the constructor needs no more depth than that. -/
theorem Constructs.of_rank {rank : DescriptorPtr → Nat}
    (hrank : ∀ e ∈ db.edges, Reaches Prod.fst Prod.snd db.edges p e.1 → rank e.2 < rank e.1)
    {q : DescriptorPtr} (hq : q ∈ db) (hreach : Reaches Prod.fst Prod.snd db.edges p q)
    (hn : rank q < n) : Constructs C db n q := by
  induction n generalizing q with
  | zero => omega
  | succ n ih =>
    rw [Constructs, State.new_iff]
    intro v hv hnests
    show ∃ c, State.new (children C db n) (db.findDescriptor v.typeName (-1)) = .ok c
    cases hfind : db.findDescriptor v.typeName (-1) with
    | none => exact ⟨none, State.new_none⟩
    | some r =>
      have hr : r ∈ db.references q := DescriptorDb.mem_references.2 ⟨v, hv, hnests, hfind⟩
      have hlower : rank r < rank q := hrank (q, r) (DescriptorDb.mem_edges.2 ⟨hq, hr⟩) hreach
      refine ih (DescriptorDb.references_mem hr) ?_ (by omega)
      exact hreach.tail (DescriptorDb.arrow_iff.2 ⟨hq, hr⟩)

/-- Whatever the constructor comes to, it constructs. -/
theorem Terminates.of_reaches {q : DescriptorPtr} (h : Terminates C db p)
    (hreach : Reaches Prod.fst Prod.snd db.edges p q) : Terminates C db q := by
  induction hreach with
  | refl => exact h
  | tail _ harrow ih =>
    obtain ⟨m, hm⟩ := ih
    obtain ⟨k, -, hk⟩ := Constructs.reference m _ _ hm harrow
    exact ⟨k, hk⟩

theorem Terminates.wellFounded (h : Terminates C db p) : db.WellFounded p := by
  intro q hreach
  obtain ⟨m, hm⟩ := h.of_reaches hreach
  exact Lib.Graph.not_below_of_descends Constructs.reference hm

end

/-- **Constructing a state ends** exactly if no descriptor that it comes to refers back to
itself. -/
theorem terminates_iff {κ : Type} (C : Creatables κ) (descs : List StateDescriptor)
    {p : DescriptorPtr} (h : p ∈ DescriptorDb.load descs) :
    Terminates C (DescriptorDb.load descs) p ↔ (DescriptorDb.load descs).WellFounded p := by
  constructor
  · exact Terminates.wellFounded
  · intro hfounded
    obtain ⟨rank, hrank⟩ := Lib.Graph.exists_rank_from hfounded
    exact ⟨rank p + 1, .of_rank hrank h .refl (Nat.lt_succ_self _)⟩

/-- A door with a nested variable of a type. -/
def nestedDoor (typeName : String) : StateDescriptor where
  name := "Door"
  version := 1
  vars := [{ type := .stateDesc, typeName, name := "inner", size := 1 }]
  few := by simp

theorem terminates_missing :
    Terminates State.noCreatables (DescriptorDb.load [nestedDoor "Lock"])
        ⟨"door", 1, nestedDoor "Lock"⟩ ↔
      (DescriptorDb.load [nestedDoor "Lock"]).WellFounded ⟨"door", 1, nestedDoor "Lock"⟩ :=
  terminates_iff State.noCreatables [nestedDoor "Lock"] (by decide)

/-- A door inside a door. -/
theorem door_without_end : ¬ Terminates State.noCreatables
    (DescriptorDb.load [nestedDoor "Door"]) ⟨"door", 1, nestedDoor "Door"⟩ := by
  intro h
  -- The descriptor is found under -1, and that one refers to itself.
  have hfirst : (⟨"door", -1, nestedDoor "Door"⟩ : DescriptorPtr) ∈
      (DescriptorDb.load [nestedDoor "Door"]).references ⟨"door", 1, nestedDoor "Door"⟩ := by
    decide
  have hagain : (⟨"door", -1, nestedDoor "Door"⟩ : DescriptorPtr) ∈
      (DescriptorDb.load [nestedDoor "Door"]).references ⟨"door", -1, nestedDoor "Door"⟩ := by
    decide
  have hstart : (⟨"door", 1, nestedDoor "Door"⟩ : DescriptorPtr) ∈
      DescriptorDb.load [nestedDoor "Door"] := by decide
  have hreach := Relation.ReflTransGen.single (DescriptorDb.arrow_iff.2 ⟨hstart, hfirst⟩)
  refine h.wellFounded _ hreach (.single (DescriptorDb.arrow_iff.2 ⟨?_, hagain⟩))
  exact DescriptorDb.references_mem hfirst

end Dirtsand.SDL
