import Dirtsand.SDL.RoundTrip

/-!
# States inside states

The states that `e_VarStateDesc` holds are states themselves.  `children` closes the
circle for a stack on which states are nested `n` deep: a descriptor that nests
deeper overflows it.

* `SameValues` — states with the same values, all the way down.
* `StateData.setDefault_new` — a new state has its defaults.
-/

namespace Dirtsand.SDL

variable {κ : Type}

/-- A state nested at most so deep; its `m_data` may be null. -/
def Child (κ : Type) : Nat → Type
  | 0 => Empty
  | n + 1 => Option (State κ (Child κ n))

/-- `update` of a state that may be null. -/
def State.updated {σ : Type} (S : Children σ) (db : DescriptorDb) :
    Option (State κ σ) → Except StreamError (Option (State κ σ))
  | none => .ok none
  | some s =>
    match s.update S db with
    | .ok (s', _) => .ok (some s')
    | .error e => .error e

/-- `State::read`, which returns at once if `m_data` is null. -/
def State.readChild {σ : Type} (C : Creatables κ) (S : Children σ) (now : Clock) :
    Option (State κ σ) → Read (Option (State κ σ))
  | none => pure none
  | some s => do
    let (data, _) ← s.data.read C S now
    pure (some { s with data })

/-- The states that are nested at most `n` deep. -/
def children (C : Creatables κ) (db : DescriptorDb) : (n : Nat) → Children (Child κ n)
  | 0 => State.noChildren
  | n + 1 =>
    let S := children C db n
    { new := fun typeName => State.new S (db.findDescriptor typeName (-1))
      read := State.readChild C S
      -- Only what is dirty is written, and a null state is not.
      write := fun s => (s.map fun s => s.data.write C S).getD []
      isDirty := fun s => s.any fun s => s.data.isDirty
      setDefault := fun s => s.map fun s => { s with data := s.data.setDefault S }
      isDefault := fun s => s.all fun s => s.data.isDefault S
      update := State.updated S db }

/-! ## The same values -/

/-- The same values in all variables, for states of the same descriptor. -/
def StateData.SameElems {σ : Type} (R : σ → σ → Prop) {d : StateDescriptor}
    (s t : StateData κ σ d) : Prop :=
  ∀ i, List.Forall₂ (Elem.Same R _) (s.vars i).elems (t.vars i).elems

/-- Descriptors with the same contents, and the same values. -/
def State.SameElems {σ : Type} (R : σ → σ → Prop) (s t : State κ σ) : Prop :=
  ∃ h : t.desc.desc = s.desc.desc, s.data.SameElems R (h ▸ t.data)

/-- The same values all the way down. -/
def SameValues : (n : Nat) → Child κ n → Child κ n → Prop
  | 0, _, _ => True
  | _ + 1, none, none => True
  | n + 1, some s, some t => State.SameElems (SameValues n) s t
  | _ + 1, _, _ => False

theorem StateData.SameElems.refl {σ : Type} {R : σ → σ → Prop} (hR : ∀ c, R c c)
    {d : StateDescriptor} (s : StateData κ σ d) : s.SameElems R s :=
  fun _ => List.forall₂_same.2 fun e _ => Elem.Same.refl hR _ e

theorem SameValues.refl : (n : Nat) → (c : Child κ n) → SameValues n c c
  | 0, _ => trivial
  | _ + 1, none => trivial
  | n + 1, some s => ⟨rfl, StateData.SameElems.refl (SameValues.refl n) s.data⟩

/-! ## Defaults of defaults -/

theorem Elem.setDefault_idem {σ : Type} {S : Children σ}
    (hS : ∀ c, S.setDefault (S.setDefault c) = S.setDefault c) {t : VarType} (d : Option t.Default)
    (e : t.Elem κ σ) : Elem.setDefault S t d (Elem.setDefault S t d e) = Elem.setDefault S t d e := by
  cases t with
  | stateDesc => exact hS e
  | _ => rfl

theorem Variable.setDefault_idem {σ : Type} {S : Children σ}
    (hS : ∀ c, S.setDefault (S.setDefault c) = S.setDefault c) {v : VarDescriptor}
    (var : Variable κ σ v) : (var.setDefault S).setDefault S = var.setDefault S := by
  have helems : (var.elems.map (Elem.setDefault S v.type v.default)).map
      (Elem.setDefault S v.type v.default) = var.elems.map (Elem.setDefault S v.type v.default) := by
    rw [List.map_map]
    exact List.map_congr_left fun e _ => Elem.setDefault_idem hS v.default e
  have hflags : (var.flags ||| sameAsDefault) ||| sameAsDefault = var.flags ||| sameAsDefault := by
    rw [UInt8.or_assoc, UInt8.or_self]
  unfold Variable.setDefault
  dsimp only
  rw [helems, hflags]

theorem StateData.setDefault_idem {σ : Type} {S : Children σ}
    (hS : ∀ c, S.setDefault (S.setDefault c) = S.setDefault c) {d : StateDescriptor}
    (s : StateData κ σ d) : (s.setDefault S).setDefault S = s.setDefault S := by
  have hvars : (fun i => (((s.setDefault S).vars i).setDefault S)) = (s.setDefault S).vars :=
    funext fun i => Variable.setDefault_idem hS (s.vars i)
  unfold StateData.setDefault at hvars ⊢
  dsimp only at hvars ⊢
  rw [hvars]

theorem children_setDefault_idem (C : Creatables κ) (db : DescriptorDb) :
    (n : Nat) → ∀ c, (children C db n).setDefault ((children C db n).setDefault c) =
      (children C db n).setDefault c
  | 0, c => nomatch c
  | _ + 1, none => rfl
  | n + 1, some s => by
    have hdata := StateData.setDefault_idem (children_setDefault_idem C db n) s.data
    show some (State.mk s.desc ((s.data.setDefault _).setDefault _)) = some (State.mk s.desc _)
    rw [hdata]

/-- A new state has its defaults. -/
theorem StateData.setDefault_new {σ : Type} {S : Children σ}
    (hS : ∀ c, S.setDefault (S.setDefault c) = S.setDefault c) {d : StateDescriptor}
    {f : StateData κ σ d} (h : StateData.new S d = .ok f) : f.setDefault S = f := by
  unfold StateData.new at h
  split at h
  · rename_i vars _
    obtain rfl := Except.ok.inj h
    exact StateData.setDefault_idem hS { vars }
  · cases h

theorem State.new_eq_ok {σ : Type} {S : Children σ} {p : Option DescriptorPtr} {s : State κ σ}
    (h : State.new S p = .ok (some s)) : StateData.new S s.desc.desc = .ok s.data := by
  obtain _ | p := p
  · exact nomatch h
  · rw [State.new] at h
    split at h
    · rename_i data hdata
      obtain rfl := Option.some.inj (Except.ok.inj h)
      exact hdata
    · cases h

end Dirtsand.SDL
