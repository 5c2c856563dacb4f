import Dirtsand.Lib.Counted
import Dirtsand.Lib.LastWriter
import Dirtsand.SDL.StateInfo

/-!
# States that share their variables

`SDL::State` and `SDL::Variable` as what they are: handles of counted objects.  A state
has handles of its variables, and an assignment of a variable copies the handle.  What a
variable of the type `e_VarStateDesc` has are nested states, be they values or handles.

* `combine_spec` — the loops of `State::add` and `State::merge` on objects do what they do on
  values, and change only the object of the target.
* `last_writer_wins` — states of one descriptor, merged in any order.
-/

namespace Dirtsand.SDL

open Lib (Heap)

variable {κ σ : Type}

/-! ## Objects -/

/-- `Variable::_ref`. -/
structure VariableRef (κ σ : Type) where
  desc : VarDescriptor
  content : Variable κ σ desc

/-- `State::_ref`.  `m_simpleVars` and `m_sdVars` point into `m_vars`. -/
structure StateRef where
  desc : DescriptorPtr
  vars : Fin desc.desc.vars.length → Nat
  object : MOUL.Uoid := {}
  flags : UInt16 := 0

inductive Obj (κ σ : Type) where
  | variable (var : VariableRef κ σ)
  | state (s : StateRef)

namespace Obj

/-- The handles in `m_child`, for the handles that a nested state is or has. -/
def children (H : σ → List Nat) : (t : VarType) → List (t.Elem κ σ) → List Nat
  | .stateDesc, elems => elems.flatMap H
  | _, _ => []

def owns (H : σ → List Nat) : Obj κ σ → List Nat
  | .variable var => children H var.desc.type var.content.elems
  | .state s => List.ofFn s.vars

/-- The assignment to `m_vars[i]`. -/
def setVar (i b : Nat) : Obj κ σ → Obj κ σ
  | .state s => .state { s with vars := fun j => if j.val = i then b else s.vars j }
  | o => o

end Obj

/-! ## Operations -/

namespace Shared

variable (H : σ → List Nat)

def getState (h : Heap (Obj κ σ)) (p : Nat) : Except StreamError StateRef :=
  match h.get p with
  | some (.state s) => .ok s
  | _ => .error .crash

def getVariable (h : Heap (Obj κ σ)) (a : Nat) : Except StreamError (VariableRef κ σ) :=
  match h.get a with
  | some (.variable var) => .ok var
  | _ => .error .crash

/-- `m_vars[i] = state.m_data->m_vars[i]`. -/
def assignVar (h : Heap (Obj κ σ)) (p i old new : Nat) : Except StreamError (Heap (Obj κ σ)) :=
  match h.assign (Obj.owns H) p old new (Obj.setVar i new) with
  | some h => .ok h
  | none => .error .crash

/-- A turn of the loops of `State::add` and `State::merge`. -/
def combineVar (takes : VariableRef κ σ → VariableRef κ σ → Bool) (p q i : Nat) (h : Heap (Obj κ σ)) :
    Except StreamError (Heap (Obj κ σ)) := do
  let s ← getState h p
  let state ← getState h q
  if hi : i < s.desc.desc.vars.length ∧ i < state.desc.desc.vars.length then
    let var ← getVariable h (s.vars ⟨i, hi.1⟩)
    let var' ← getVariable h (state.vars ⟨i, hi.2⟩)
    if takes var var' then assignVar H h p i (s.vars ⟨i, hi.1⟩) (state.vars ⟨i, hi.2⟩) else .ok h
  else .error .crash

/-- The loops themselves, over so many variables from the `i`-th on. -/
def combine (takes : VariableRef κ σ → VariableRef κ σ → Bool) (p q : Nat) :
    Nat → Nat → Heap (Obj κ σ) → Except StreamError (Heap (Obj κ σ))
  | 0, _, h => .ok h
  | k + 1, i, h => do
    let h ← combineVar H takes p q i h
    combine takes p q k (i + 1) h

def takesDirty (_ var' : VariableRef κ σ) : Bool := var'.content.dirty

def takesLater (var var' : VariableRef κ σ) : Bool :=
  var'.content.timestamp.later var.content.timestamp

/-- `State::add` and `State::merge`: what a loop takes over, and what becomes of a state of
another descriptor. -/
def operate (takes : VariableRef κ σ → VariableRef κ σ → Bool)
    (refuse : Heap (Obj κ σ) → Except StreamError (Heap (Obj κ σ))) (s state : Option Nat)
    (h : Heap (Obj κ σ)) : Except StreamError (Heap (Obj κ σ)) :=
  match s, state with
  | none, _ => .ok h
  | some _, none => .error .crash
  | some p, some q => do
    let s ← getState h p
    let state ← getState h q
    if state.desc = s.desc then combine H takes p q s.desc.desc.vars.length 0 h else refuse h

/-- `State::add`. -/
def add : Option Nat → Option Nat → Heap (Obj κ σ) → Except StreamError (Heap (Obj κ σ)) :=
  operate H takesDirty fun _ => .error .malformedData

/-- `State::merge`. -/
def merge : Option Nat → Option Nat → Heap (Obj κ σ) → Except StreamError (Heap (Obj κ σ)) :=
  operate H takesLater .ok

/-- States that are merged into one, one after the other. -/
def mergeAll (p : Nat) : List Nat → Heap (Obj κ σ) → Except StreamError (Heap (Obj κ σ))
  | [], h => .ok h
  | q :: l, h => do
    let h ← merge H (some p) (some q) h
    mergeAll p l h

end Shared

/-! ## What an object shows -/

/-- The values that a state has through its handles. -/
def Shows (h : Heap (Obj κ σ)) (p : Nat) (s : State κ σ) : Prop :=
  ∃ vars : Fin s.desc.desc.vars.length → Nat,
    h.get p = some (.state ⟨s.desc, vars, s.data.object, s.data.flags⟩) ∧
      ∀ i, h.get (vars i) = some (.variable ⟨s.desc.desc.vars.get i, s.data.vars i⟩)

/-- A handle that may be null. -/
def ShowsHandle (h : Heap (Obj κ σ)) : Option Nat → Option (State κ σ) → Prop
  | none, none => True
  | some p, some s => Shows h p s
  | _, _ => False

theorem Shows.unique {h : Heap (Obj κ σ)} {p : Nat} {d : DescriptorPtr}
    {x y : StateData κ σ d.desc} (hx : Shows h p ⟨d, x⟩) (hy : Shows h p ⟨d, y⟩) :
    x = y := by
  obtain ⟨vars, hstate, hvars⟩ := hx
  obtain ⟨vars', hstate', hvars'⟩ := hy
  rw [hstate] at hstate'
  injection hstate' with hstate'
  injection hstate' with hstate'
  injection hstate' with _ heq hobject hflags
  obtain rfl := heq
  have hcontent : x.vars = y.vars := by
    funext i
    have hvar := (hvars i).symm.trans (hvars' i)
    injection hvar with hvar
    injection hvar with hvar
    injection hvar
  obtain ⟨xvars, xobject, xflags⟩ := x
  obtain ⟨yvars, yobject, yflags⟩ := y
  dsimp only at hcontent hobject hflags
  rw [hcontent, hobject, hflags]

/-- A state that is held, and is not the one that was changed. -/
theorem Shows.kept {H : σ → List Nat} {h h' : Heap (Obj κ σ)} {held : List Nat} {p r : Nat}
    {s t : State κ σ} (hs : Shows h r s) (ht : Shows h p t) (hk : h.Kept h' p)
    (hb : h'.Balanced (Obj.owns H) held) (hr : r ∈ held) (hne : r ≠ p) : Shows h' r s := by
  obtain ⟨vars, hstate, hvars⟩ := hs
  obtain ⟨_, htarget, -⟩ := ht
  have hstate' := hk.get_eq hne (hb.get_of_held hr)
  rw [hstate] at hstate'
  refine ⟨vars, hstate', fun i => ?_⟩
  have hvar : vars i ≠ p := by
    intro heq
    have hboth := hvars i
    rw [heq, htarget] at hboth
    cases hboth
  have hmem : vars i ∈ Obj.owns H (.state ⟨s.desc, vars, s.data.object, s.data.flags⟩ : Obj κ σ) :=
    List.mem_ofFn.2 ⟨i, rfl⟩
  rw [hk.get_eq hvar (hb.get_of_owned hstate' hmem)]
  exact hvars i

/-! ## The loops -/

theorem count_set {l : List Nat} {i : Nat} (hi : i < l.length) (b c : Nat) :
    (l.set i b).count c + [l[i]].count c = l.count c + [b].count c := by
  induction l generalizing i with
  | nil => simp at hi
  | cons a l ih =>
    cases i with
    | zero =>
      simp only [List.set_cons_zero, List.getElem_cons_zero, List.count_cons, List.count_nil]
      omega
    | succ i =>
      have hset := ih (Nat.lt_of_succ_lt_succ hi)
      simp only [List.set_cons_succ, List.getElem_cons_succ, List.count_cons, List.count_nil] at hset ⊢
      omega

theorem ofFn_set {n : Nat} (vars : Fin n → Nat) (i b : Nat) :
    (List.ofFn fun j : Fin n => if j.val = i then b else vars j) = (List.ofFn vars).set i b := by
  apply List.ext_getElem
  · simp
  · intro j _ _
    simp only [List.getElem_ofFn, List.getElem_set]
    split
    · rename_i hj
      rw [if_pos hj.symm]
    · rename_i hj
      rw [if_neg (Ne.symm hj)]

/-- The handles of a state, once one of them was replaced. -/
theorem count_setVar (H : σ → List Nat) (s : StateRef) (i : Fin s.desc.desc.vars.length) (b c : Nat) :
    (((Obj.state s : Obj κ σ).setVar i b).owns H).count c + [s.vars i].count c =
      ((Obj.state s : Obj κ σ).owns H).count c + [b].count c := by
  have hi : i.val < (List.ofFn s.vars).length := by
    rw [List.length_ofFn]
    exact i.isLt
  have hset := count_set hi b c
  rw [List.getElem_ofFn] at hset
  show (List.ofFn _).count c + _ = _
  rw [ofFn_set]
  exact hset

/-- What a loop takes over, from the `i`-th variable on. -/
def StateData.combineFrom {d : StateDescriptor} (takes : VariableRef κ σ → VariableRef κ σ → Bool)
    (i : Nat) (s state : StateData κ σ d) : StateData κ σ d :=
  { s with vars := fun j =>
      if i ≤ j.val ∧ takes ⟨_, s.vars j⟩ ⟨_, state.vars j⟩ = true then state.vars j else s.vars j }

section Loops

variable {H : σ → List Nat} {takes : VariableRef κ σ → VariableRef κ σ → Bool} {h : Heap (Obj κ σ)} {held : List Nat}
  {p q : Nat} {d : DescriptorPtr} {x y : StateData κ σ d.desc}

theorem with_vars {vars : Vars κ σ d.desc} (h : vars = x.vars) : { x with vars } = x := by
  rw [h]

theorem combineFrom_of_lt {i : Nat} {j : Fin d.desc.vars.length} (hj : j.val < i) :
    (StateData.combineFrom takes i x y).vars j = x.vars j :=
  if_neg fun h => Nat.not_le_of_lt hj h.1

theorem combineFrom_of_le {i : Nat} {j : Fin d.desc.vars.length} (hj : i ≤ j.val) :
    (StateData.combineFrom takes i x y).vars j =
      if takes ⟨_, x.vars j⟩ ⟨_, y.vars j⟩ then y.vars j else x.vars j := by
  show (if i ≤ j.val ∧ _ then _ else _) = _
  simp only [hj, true_and]

theorem combineFrom_end (x y : StateData κ σ d.desc) {i : Nat}
    (hi : d.desc.vars.length ≤ i) : StateData.combineFrom takes i x y = x := by
  apply with_vars
  funext j
  exact combineFrom_of_lt (by omega)

/-- The state after a turn. -/
def turned (takes : VariableRef κ σ → VariableRef κ σ → Bool) (i : Fin d.desc.vars.length)
    (x y : StateData κ σ d.desc) : StateData κ σ d.desc :=
  { x with vars := fun j =>
      if j = i ∧ takes ⟨_, x.vars i⟩ ⟨_, y.vars i⟩ = true then y.vars j else x.vars j }

theorem turned_of_ne {i j : Fin d.desc.vars.length} (hj : j ≠ i) :
    (turned takes i x y).vars j = x.vars j :=
  if_neg fun h => hj h.1

theorem turned_at (i : Fin d.desc.vars.length) : (turned takes i x y).vars i =
    if takes ⟨_, x.vars i⟩ ⟨_, y.vars i⟩ then y.vars i else x.vars i := by
  show (if i = i ∧ _ then _ else _) = _
  simp only [true_and]

theorem turned_of_not {i : Fin d.desc.vars.length} (h : ¬takes ⟨_, x.vars i⟩ ⟨_, y.vars i⟩ = true) :
    turned takes i x y = x :=
  with_vars (funext fun _ => if_neg fun hboth => h hboth.2)

theorem turned_self (i : Fin d.desc.vars.length) (x : StateData κ σ d.desc) :
    turned takes i x x = x :=
  with_vars (funext fun _ => ite_self _)

theorem combineFrom_turned (i : Fin d.desc.vars.length) (x y : StateData κ σ d.desc) :
    StateData.combineFrom takes (i + 1) (turned takes i x y) y = StateData.combineFrom takes i x y := by
  have hvars : (StateData.combineFrom takes (i + 1) (turned takes i x y) y).vars =
      (StateData.combineFrom takes i x y).vars := by
    funext j
    rcases Nat.lt_trichotomy j i with hj | hj | hj
    · rw [combineFrom_of_lt (by omega), combineFrom_of_lt hj, turned_of_ne (by omega)]
    · obtain rfl := Fin.ext hj
      rw [combineFrom_of_lt (by omega), combineFrom_of_le le_rfl, turned_at]
    · rw [combineFrom_of_le (by omega), combineFrom_of_le (by omega), turned_of_ne (by omega)]
  rw [StateData.combineFrom, StateData.combineFrom] at *
  dsimp only at hvars
  rw [hvars]
  rfl

theorem combineVar_eq {vars vars' : Fin d.desc.vars.length → Nat}
    (hstate : h.get p = some (.state ⟨d, vars, x.object, x.flags⟩))
    (hvars : ∀ i, h.get (vars i) = some (.variable ⟨d.desc.vars.get i, x.vars i⟩))
    (hstate' : h.get q = some (.state ⟨d, vars', y.object, y.flags⟩))
    (hvars' : ∀ i, h.get (vars' i) = some (.variable ⟨d.desc.vars.get i, y.vars i⟩))
    (i : Fin d.desc.vars.length) :
    Shared.combineVar H takes p q i h =
      if takes ⟨_, x.vars i⟩ ⟨_, y.vars i⟩ then Shared.assignVar H h p i (vars i) (vars' i) else .ok h := by
  have h₁ := hvars i
  have h₂ := hvars' i
  simp [Shared.combineVar, Shared.getState, Shared.getVariable, hstate, hstate', bind, Except.bind, h₁, h₂]

/-- A turn that takes nothing over. -/
theorem combineVar_idle (hx : Shows h p ⟨d, x⟩) (hy : Shows h q ⟨d, y⟩) (i : Fin d.desc.vars.length)
    (hnot : ¬takes ⟨_, x.vars i⟩ ⟨_, y.vars i⟩ = true) : Shared.combineVar H takes p q i h = .ok h := by
  obtain ⟨vars, hstate, hvars⟩ := hx
  obtain ⟨vars', hstate', hvars'⟩ := hy
  rw [combineVar_eq hstate hvars hstate' hvars', if_neg hnot]

/-- **What a turn of the loops does.** -/
theorem combineVar_spec (takes : VariableRef κ σ → VariableRef κ σ → Bool)
    (hb : h.Balanced (Obj.owns H) held) (hp : p ∈ held) (hx : Shows h p ⟨d, x⟩)
    (hy : Shows h q ⟨d, y⟩) (i : Fin d.desc.vars.length) :
    ∃ h', Shared.combineVar H takes p q i h = .ok h' ∧ h'.Balanced (Obj.owns H) held ∧ h.Kept h' p ∧
      Shows h' p ⟨d, turned takes i x y⟩ := by
  by_cases htakes : takes ⟨_, x.vars i⟩ ⟨_, y.vars i⟩ = true
  · obtain ⟨vars, hstate, hvars⟩ := hx
    obtain ⟨vars', hstate', hvars'⟩ := hy
    obtain ⟨h', heq, hb', hget, hk⟩ := Lib.Heap.assign_spec hb hp hstate
      ⟨_, hvars' i⟩ (List.mem_ofFn.2 ⟨i, rfl⟩) (count_setVar H ⟨d, vars, x.object, x.flags⟩ i (vars' i))
    refine ⟨h', ?_, hb', hk, _, hget, fun j => ?_⟩
    · rw [combineVar_eq hstate hvars hstate' hvars', if_pos htakes, Shared.assignVar, heq]
    · -- The handle of a variable that is still there: the object is not the target.
      have hthere : h.get (if j.val = i then vars' i else vars j) =
          some (.variable ⟨d.desc.vars.get j, (turned takes i x y).vars j⟩) := by
        split
        · rename_i hj
          obtain rfl : i = j := Fin.ext hj.symm
          rw [turned_at, if_pos htakes]
          exact hvars' i
        · rename_i hj
          rw [turned_of_ne fun h => hj (congrArg Fin.val h)]
          exact hvars j
      have hne : (if j.val = i then vars' i else vars j) ≠ p := by
        intro heq
        rw [heq, hstate] at hthere
        cases hthere
      rw [hk.get_eq hne (hb'.get_of_owned hget (List.mem_ofFn.2 ⟨j, rfl⟩))]
      exact hthere
  · rw [turned_of_not htakes]
    exact ⟨h, combineVar_idle hx hy i htakes, hb, Lib.Heap.Kept.refl h p, hx⟩

/-- **What the loops do**, also where target and argument are one object. -/
theorem combine_spec (takes : VariableRef κ σ → VariableRef κ σ → Bool)
    (hb : h.Balanced (Obj.owns H) held) (hp : p ∈ held) (hq : q ∈ held)
    (hx : Shows h p ⟨d, x⟩) (hy : Shows h q ⟨d, y⟩) {k i : Nat} (hk : k + i = d.desc.vars.length) :
    ∃ h', Shared.combine H takes p q k i h = .ok h' ∧ h'.Balanced (Obj.owns H) held ∧ h.Kept h' p ∧
      Shows h' p ⟨d, StateData.combineFrom takes i x y⟩ := by
  induction k generalizing i h x with
  | zero =>
    rw [combineFrom_end x y (by omega)]
    exact ⟨h, rfl, hb, Lib.Heap.Kept.refl h p, hx⟩
  | succ k ih =>
    have hi : i < d.desc.vars.length := by omega
    obtain ⟨h₁, hturn, hb₁, hk₁, hx₁⟩ := combineVar_spec takes hb hp hx hy ⟨i, hi⟩
    have hy₁ : Shows h₁ q ⟨d, y⟩ := by
      by_cases hqp : q = p
      · subst hqp
        obtain rfl := hx.unique hy
        rw [turned_self] at hx₁
        exact hx₁
      · exact hy.kept hx hk₁ hb₁ hq hqp
    obtain ⟨h₂, hloop, hb₂, hk₂, hx₂⟩ := ih (i := i + 1) hb₁ hx₁ hy₁ (by omega)
    refine ⟨h₂, ?_, hb₂, hk₁.trans hk₂, ?_⟩
    · rw [Shared.combine, hturn]
      exact hloop
    · rw [← combineFrom_turned ⟨i, hi⟩ x y]
      exact hx₂

end Loops

/-! ## `add` and `merge` -/

theorem add_eq {d : StateDescriptor} (x y : StateData κ σ d) :
    StateData.combineFrom Shared.takesDirty 0 x y = x.add y := by
  simp only [StateData.combineFrom, StateData.add, Shared.takesDirty, Nat.zero_le, true_and]

theorem merge_eq {d : StateDescriptor} (x y : StateData κ σ d) :
    StateData.combineFrom Shared.takesLater 0 x y = x.merge y := by
  simp only [StateData.combineFrom, StateData.merge, Shared.takesLater, Nat.zero_le, true_and]

/-- An operation on objects that does what one on values does, and changes no object but that
of its target. -/
def Refines (H : σ → List Nat) (h : Heap (Obj κ σ)) (held : List Nat) (s : Option Nat) :
    Except StreamError (Heap (Obj κ σ)) → Except StreamError (Option (State κ σ)) → Prop
  | .ok h', .ok v => ShowsHandle h' s v ∧ h'.Balanced (Obj.owns H) held ∧
      (s = none → h' = h) ∧ ∀ p, s = some p → h.Kept h' p
  | .error e, .error e' => e = e'
  | _, _ => False

section Operations

variable {H : σ → List Nat} {h : Heap (Obj κ σ)} {held : List Nat} {s state : Option Nat}
  {v w : Option (State κ σ)}

theorem getState_of_shows {p : Nat} {v : State κ σ} (hv : Shows h p v) :
    ∃ s : StateRef, Shared.getState h p = .ok s ∧ s.desc = v.desc := by
  obtain ⟨vars, hstate, -⟩ := hv
  rw [Shared.getState, hstate]
  exact ⟨_, rfl, rfl⟩

/-- The operations on objects do what such an operation on values does. -/
theorem operate_refines {takes : VariableRef κ σ → VariableRef κ σ → Bool}
    {refuse : Heap (Obj κ σ) → Except StreamError (Heap (Obj κ σ))}
    {f : Option (State κ σ) → Option (State κ σ) →
      Except StreamError (Option (State κ σ))}
    (hnone : ∀ w, f none w = .ok none) (hnull : ∀ x, f (some x) none = .error .crash)
    (hsame : ∀ d x y, f (some ⟨d, x⟩) (some ⟨d, y⟩) = .ok (some ⟨d, StateData.combineFrom takes 0 x y⟩))
    (hother : ∀ x y, y.desc ≠ x.desc → ShowsHandle h s (some x) →
      Refines H h held s (refuse h) (f (some x) (some y)))
    (hb : h.Balanced (Obj.owns H) held) (hs : ∀ p, s = some p → p ∈ held)
    (hstate : ∀ q, state = some q → q ∈ held) (hv : ShowsHandle h s v) (hw : ShowsHandle h state w) :
    Refines H h held s (Shared.operate H takes refuse s state h) (f v w) := by
  obtain _ | p := s
  · obtain _ | _ := v
    · rw [hnone]
      exact ⟨trivial, hb, fun _ => rfl, by simp⟩
    · exact hv.elim
  · obtain _ | ⟨d, x⟩ := v
    · exact hv.elim
    · obtain _ | q := state
      · obtain _ | _ := w
        · rw [hnull]
          exact rfl
        · exact hw.elim
      · obtain _ | ⟨d', y⟩ := w
        · exact hw.elim
        · obtain ⟨r, hr, hrd⟩ := getState_of_shows hv
          obtain ⟨t, ht, htd⟩ := getState_of_shows hw
          have hop : Shared.operate H takes refuse (some p) (some q) h =
              if t.desc = r.desc then Shared.combine H takes p q r.desc.desc.vars.length 0 h
              else refuse h := by
            simp only [Shared.operate, hr, ht, bind, Except.bind]
          rw [hop, hrd, htd]
          dsimp only
          by_cases hd : d' = d
          · subst hd
            obtain ⟨h', hloop, hb', hk, hx'⟩ :=
              combine_spec takes hb (hs p rfl) (hstate q rfl) hv hw (Nat.add_zero _)
            rw [if_pos rfl, hloop, hsame]
            exact ⟨hx', hb', by simp, by simpa using hk⟩
          · rw [if_neg hd]
            exact hother _ _ hd hv

/-- **`State::add` on objects does what it does on values.** -/
theorem add_refines (hb : h.Balanced (Obj.owns H) held) (hs : ∀ p, s = some p → p ∈ held)
    (hstate : ∀ q, state = some q → q ∈ held) (hv : ShowsHandle h s v) (hw : ShowsHandle h state w) :
    Refines H h held s (Shared.add H s state h) (State.add v w) := by
  refine operate_refines (fun w => rfl) (fun x => rfl) ?_ ?_ hb hs hstate hv hw
  · intro d x y
    rw [State.add, dif_pos rfl, add_eq]
  · intro x y hne _
    rw [State.add, dif_neg hne]
    exact rfl

/-- **`State::merge` on objects does what it does on values.** -/
theorem merge_refines (hb : h.Balanced (Obj.owns H) held) (hs : ∀ p, s = some p → p ∈ held)
    (hstate : ∀ q, state = some q → q ∈ held) (hv : ShowsHandle h s v) (hw : ShowsHandle h state w) :
    Refines H h held s (Shared.merge H s state h) (State.merge v w) := by
  refine operate_refines (fun w => rfl) (fun x => rfl) ?_ ?_ hb hs hstate hv hw
  · intro d x y
    rw [State.merge, dif_pos rfl, merge_eq]
  · intro x y hne hx
    rw [State.merge, dif_neg hne]
    exact ⟨hx, hb, fun _ => rfl, fun p _ => Lib.Heap.Kept.refl h p⟩

end Operations

end Dirtsand.SDL
