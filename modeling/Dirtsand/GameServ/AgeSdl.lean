import Dirtsand.Lib.Transition
import Dirtsand.SDL.Upgrade

/-!
# The state of the AgeSDLHook

`m_localState`, `m_globalState` and `m_ageSdlHook` of a game host: `start_game_host`,
the AgeSDLHook branch of `dm_read_sdl`, `dm_local_sdl_update`, `dm_global_sdl_update`
(GameServ/GameHost.cpp), and `dm_auth_update_globalSDL` (AuthServ/AuthDaemon.cpp).

`merge` copies handles, so a variable of the hook that was taken over from the global
state is the same object as the one there, and the auth daemon writes to it in place.
`Hook.shared` says of which variables of the hook that is so.  What `toBlob` leaves
behind in the flags of a state is left out: it changes no value and no time, and a
second `toBlob` writes the same.

* `Linked.step` — what every step preserves.
* `hook_composed` — the hook is composed of local and global state.
-/

namespace Dirtsand.AgeSdl

open SDL

variable {κ σ : Type}

/-! ## Sharing -/

/-- The variables of a state, if it has this descriptor. -/
def dataFor (p : DescriptorPtr) : Option (State κ σ) → Option (StateData κ σ p.desc)
  | none => none
  | some s => if h : s.desc = p then some (h ▸ s.data) else none

/-- Whether `merge` takes over the variable of this number. -/
def mergesAt (s state : Option (State κ σ)) (i : Nat) : Bool :=
  match s with
  | none => false
  | some s =>
    match dataFor s.desc state with
    | none => false
    | some data =>
      if h : i < s.desc.desc.vars.length then
        (data.vars ⟨i, h⟩).timestamp.later (s.data.vars ⟨i, h⟩).timestamp
      else false

/-- Whether `add` takes over the variable of this number. -/
def addsAt (state : Option (State κ σ)) (i : Nat) : Bool :=
  match state with
  | none => false
  | some s => if h : i < s.desc.desc.vars.length then (s.data.vars ⟨i, h⟩).dirty else false

/-- `m_ageSdlHook`, with the variables that are those of `m_globalState`. -/
structure Hook (κ σ : Type) where
  state : Option (State κ σ)
  shared : Nat → Bool

namespace Hook

def add (hook : Hook κ σ) (update : Option (State κ σ)) : Except StreamError (Hook κ σ) := do
  let state ← State.add hook.state update
  .ok { state, shared := fun i => hook.shared i && !addsAt update i }

def merge (hook : Hook κ σ) (state : Option (State κ σ)) : Except StreamError (Hook κ σ) := do
  let state' ← State.merge hook.state state
  .ok { state := state', shared := fun i => hook.shared i && !mergesAt hook.state state i }

/-- `merge` of the global state. -/
def mergeGlobal (hook : Hook κ σ) (global : Option (State κ σ)) :
    Except StreamError (Hook κ σ) := do
  let state ← State.merge hook.state global
  .ok { state, shared := fun i => hook.shared i || mergesAt hook.state global i }

/-- What the hook has once the global state was written to in place. -/
def follow (hook : Hook κ σ) (global : Option (State κ σ)) : Hook κ σ :=
  { hook with
    state := hook.state.map fun s =>
      match dataFor s.desc global with
      | none => s
      | some data =>
        { s with data := { s.data with
            vars := fun i => if hook.shared i then data.vars i else s.data.vars i } } }

end Hook

/-! ## The host -/

structure Host (κ σ : Type) where
  localState : Option (State κ σ)
  globalState : Option (State κ σ)
  ageSdlHook : Hook κ σ
  /-- The `e_GameGlobalSdlUpdate` messages in the host's channel. -/
  updates : Nat := 0

/-- `ST::string::to_bool`, `to_uint` and `to_int`. -/
structure Conversions where
  toBool : String → Bool
  toUInt : String → UInt32
  toInt : String → UInt32

/-- What `dm_auth_update_globalSDL` makes of a text, for the types that it knows. -/
def ofText (X : Conversions) : (t : VarType) → String → Option (t.Elem κ σ)
  | .bool, value => some (X.toBool value)
  | .byte, value => some (X.toUInt value).toUInt8
  | .int, value => some (X.toInt value)
  | .short, value => some (X.toInt value).toUInt16
  | .string, value => some value
  | _, _ => none

/-- What `dm_auth_update_globalSDL` does to a variable, and whether it knows the type.
An array of no elements has no first element to write to. -/
def setText (X : Conversions) (S : Children σ) (now : UnifiedTime) (value : String)
    {v : VarDescriptor} (var : Variable κ σ v) : Except StreamError (Variable κ σ v × Bool) :=
  let var := { var with flags := var.flags ||| hasTimeStamp, dirty := true, timestamp := now }
  if value = "" then .ok (var.setDefault S, true)
  else
    let var := { var with flags := var.flags &&& ~~~sameAsDefault }
    match ofText X v.type value, var.elems with
    | none, _ => .ok (var, false)
    | some _, [] => .error .crash
    | some e, _ :: es => .ok ({ var with elems := e :: es }, true)

/-- The variable that `dm_auth_update_globalSDL` finds. -/
def named (d : StateDescriptor) (variableName : String) : Option (Fin d.vars.length) :=
  d.simpleVars.find? fun i => (d.vars.get i).name = variableName

/-- `dm_auth_update_globalSDL` of a global state, with whether the hosts are told. -/
def setGlobal (X : Conversions) (S : Children σ) (now : UnifiedTime) (variableName value : String)
    (s : State κ σ) : Except StreamError (State κ σ × Bool) :=
  match named s.desc.desc variableName with
  | none => .ok (s, false)
  | some i =>
    match setText X S now value (s.data.vars i) with
    | .error e => .error e
    | .ok (var, told) =>
      .ok ({ s with data := { s.data with vars := Function.update s.data.vars i var } }, told)

/-- What a host meets. -/
inductive Event (κ σ : Type) where
  /-- `start_game_host`, with what `e_AuthFetchSDL` answers. -/
  | start (localBlob : List UInt8) (global : Option (State κ σ))
  /-- A `NetMsgSDLState` for the AgeSDLHook. -/
  | client (blob : List UInt8)
  /-- An `e_GameLocalSdlUpdate`. -/
  | vault (blob : List UInt8)
  /-- A change of a global state by the auth daemon. -/
  | setGlobal (ageFilename variableName value : String) (now : UnifiedTime)
  /-- An `e_GameGlobalSdlUpdate`. -/
  | globalUpdate

section Steps

variable (C : Creatables κ) (S : Children σ) (db : DescriptorDb) (X : Conversions)
  (now : List UInt8 → Clock) (ageFilename : String)

/-- `FromBlob`, which gives the same values for the same blob. -/
def parse (blob : List UInt8) : Except StreamError (Option (State κ σ)) :=
  match State.fromBlob C S db (now blob) blob with
  | .ok (state, _) => .ok state
  | .error e => .error e

/-- `m_localState` and the state that `m_ageSdlHook` starts with. -/
def load (localBlob : List UInt8) : Except StreamError (Option (State κ σ) × Option (State κ σ)) := do
  let state ← parse C S db now localBlob
  match state with
  | none =>
    match db.findLatestDescriptor ageFilename with
    | none => .ok (none, none)
    | some desc =>
      let state ← State.new S (some desc)
      let hook ← parse C S db now (State.toBlob C S state)
      .ok (state, hook)
  | some s =>
    let (s, updated) ← s.update S db
    let hook ← parse C S db now (if updated then State.toBlob C S (some s) else localBlob)
    .ok (some s, hook)

/-- `start_game_host`. -/
def start (localBlob : List UInt8) (global : Option (State κ σ)) : Except StreamError (Host κ σ) := do
  let (localState, state) ← load C S db now ageFilename localBlob
  let hook ← Hook.mergeGlobal { state, shared := fun _ => false } global
  .ok { localState, globalState := global, ageSdlHook := hook }

/-- What is left of an exception, if the process survives it. -/
def caught {α : Type} (a : α) : Except StreamError α → Option α
  | .ok a' => some a'
  | .error .crash => none
  | .error _ => some a

/-- The AgeSDLHook branch of `dm_read_sdl`: if the second `add` throws, the first is done. -/
def client (host : Host κ σ) (blob : List UInt8) : Option (Host κ σ) :=
  match parse C S db now blob with
  | .error e => caught host (.error e)
  | .ok none => some host
  | .ok (some update) =>
    match State.add host.localState (some update) with
    | .error e => caught host (.error e)
    | .ok localState =>
      (caught host.ageSdlHook (host.ageSdlHook.add (some update))).map fun ageSdlHook =>
        { host with localState, ageSdlHook }

/-- The three calls of `merge` in `dm_local_sdl_update`. -/
def mergeVault (host : Host κ σ) (vaultState : State κ σ) : Except StreamError (Host κ σ) := do
  let hook ← host.ageSdlHook.merge (some vaultState)
  let ageSdlHook ← hook.mergeGlobal host.globalState
  let localState ← State.merge host.localState (some vaultState)
  .ok { host with localState, ageSdlHook }

/-- `dm_local_sdl_update`. -/
def vault (host : Host κ σ) (blob : List UInt8) : Option (Host κ σ) :=
  match parse C S db now blob with
  | .error e => caught host (.error e)
  | .ok none => some host
  | .ok (some vaultState) => caught host (mergeVault host vaultState)

/-- `dm_global_sdl_update`. -/
def globalUpdate (host : Host κ σ) : Option (Host κ σ) :=
  if host.updates = 0 then none
  else
    (caught host.ageSdlHook (host.ageSdlHook.mergeGlobal host.globalState)).map fun ageSdlHook =>
      { host with ageSdlHook, updates := host.updates - 1 }

/-- `dm_auth_update_globalSDL`, for a host with this filename: the states are looked up
without the case, and the hosts that are told with it. -/
def changeGlobal (host : Host κ σ) (name variableName value : String) (time : UnifiedTime) :
    Option (Host κ σ) :=
  if DescriptorDb.bucket name = DescriptorDb.bucket ageFilename then
    match host.globalState with
    | none => some host
    | some global =>
      (caught (global, false) (setGlobal X S time variableName value global)).map fun result =>
        { host with
          globalState := some result.1
          ageSdlHook := host.ageSdlHook.follow (some result.1)
          updates := if result.2 = true ∧ name = ageFilename then host.updates + 1 else host.updates }
  else some host

def step : Option (Host κ σ) → Event κ σ → Option (Option (Host κ σ))
  | none, .start localBlob global => (start C S db now ageFilename localBlob global).toOption.map some
  | none, _ => none
  | some _, .start _ _ => none
  | some host, .client blob => (client C S db now host blob).map some
  | some host, .vault blob => (vault C S db now host blob).map some
  | some host, .setGlobal name variableName value time =>
    (changeGlobal S X ageFilename host name variableName value time).map some
  | some host, .globalUpdate => (globalUpdate host).map some

/-- A game host, from before it is started. -/
def machine : Lib.Machine (Option (Host κ σ)) (Event κ σ) where
  start host := host = none
  step := step C S db X now ageFilename

end Steps

/-! ## What the operations do to one variable -/

/-- What `merge` leaves of a variable. -/
def merged {v : VarDescriptor} (var : Variable κ σ v) : Option (Variable κ σ v) → Variable κ σ v
  | none => var
  | some var' => if var'.timestamp.later var.timestamp then var' else var

/-- Whether it takes over the other. -/
def taken {v : VarDescriptor} (var : Variable κ σ v) : Option (Variable κ σ v) → Bool
  | none => false
  | some var' => var'.timestamp.later var.timestamp

/-- The variable of a state that has the descriptor. -/
def varFor (p : DescriptorPtr) (s : Option (State κ σ)) (i : Fin p.desc.vars.length) :
    Option (Variable κ σ (p.desc.vars.get i)) :=
  (dataFor p s).map fun data => data.vars i

theorem dataFor_some (p : DescriptorPtr) (x : StateData κ σ p.desc) :
    dataFor p (some ⟨p, x⟩) = some x := by
  rw [dataFor, dif_pos rfl]

theorem dataFor_eq_some {p : DescriptorPtr} {s : Option (State κ σ)} {x : StateData κ σ p.desc} :
    dataFor p s = some x ↔ s = some ⟨p, x⟩ := by
  constructor
  · intro h
    obtain _ | ⟨q, y⟩ := s
    · exact nomatch h
    · rw [dataFor] at h
      split at h
      · rename_i hq
        obtain rfl : q = p := hq
        obtain rfl : y = x := Option.some.inj h
        rfl
      · exact nomatch h
  · rintro rfl
    exact dataFor_some p x

theorem varFor_some (p : DescriptorPtr) (x : StateData κ σ p.desc) (i : Fin p.desc.vars.length) :
    varFor p (some ⟨p, x⟩) i = some (x.vars i) := by
  rw [varFor, dataFor_some]
  rfl

/-- What `merge` does. -/
theorem merge_eq_ok {s state st : Option (State κ σ)} (h : State.merge s state = .ok st) :
    (s = none ∧ st = none) ∨ ∃ (p : DescriptorPtr) (x x' : StateData κ σ p.desc),
      s = some ⟨p, x⟩ ∧ st = some ⟨p, x'⟩ ∧ ∀ i, x'.vars i = merged (x.vars i) (varFor p state i) := by
  obtain _ | ⟨p, x⟩ := s
  · exact .inl ⟨rfl, (Except.ok.inj h).symm⟩
  · obtain _ | ⟨r, y⟩ := state
    · exact nomatch h
    · rw [State.merge] at h
      split at h
      · rename_i hr
        obtain rfl : r = p := hr
        refine .inr ⟨r, x, x.merge y, rfl, (Except.ok.inj h).symm, fun i => ?_⟩
        rw [varFor_some]
        rfl
      · rename_i hr
        refine .inr ⟨p, x, x, rfl, (Except.ok.inj h).symm, fun i => ?_⟩
        rw [varFor, dataFor, dif_neg hr]
        rfl

theorem merge_of_some {s state : Option (State κ σ)} {p : DescriptorPtr} {x' : StateData κ σ p.desc}
    (h : State.merge s state = .ok (some ⟨p, x'⟩)) : ∃ x : StateData κ σ p.desc, s = some ⟨p, x⟩ ∧
      ∀ i, x'.vars i = merged (x.vars i) (varFor p state i) := by
  obtain ⟨-, hst⟩ | ⟨q, x, x'', hs, hst, hvars⟩ := merge_eq_ok h
  · exact nomatch hst
  · obtain ⟨rfl, hx⟩ := State.mk.inj (Option.some.inj hst)
    obtain rfl := eq_of_heq hx
    exact ⟨x, hs, hvars⟩

theorem merge_to_some {state st : Option (State κ σ)} {p : DescriptorPtr} {y : StateData κ σ p.desc}
    (h : State.merge (some ⟨p, y⟩) state = .ok st) : ∃ y' : StateData κ σ p.desc, st = some ⟨p, y'⟩ ∧
      ∀ i, y'.vars i = merged (y.vars i) (varFor p state i) := by
  obtain ⟨hs, -⟩ | ⟨q, x, x', hs, hst, hvars⟩ := merge_eq_ok h
  · exact nomatch hs
  · obtain ⟨rfl, hx⟩ := State.mk.inj (Option.some.inj hs)
    obtain rfl := eq_of_heq hx
    exact ⟨x', hst, hvars⟩

theorem mergesAt_eq (p : DescriptorPtr) (x : StateData κ σ p.desc) (state : Option (State κ σ))
    (i : Fin p.desc.vars.length) :
    mergesAt (some ⟨p, x⟩) state i = taken (x.vars i) (varFor p state i) := by
  unfold mergesAt varFor
  dsimp only
  cases dataFor p state with
  | none => rfl
  | some data => exact dif_pos i.isLt

theorem add_some (p : DescriptorPtr) (x u : StateData κ σ p.desc) :
    State.add (some ⟨p, x⟩) (some ⟨p, u⟩) = .ok (some ⟨p, x.add u⟩) := by
  rw [State.add, dif_pos rfl]

/-! ## The invariant -/

section Invariant

variable (R : σ → σ → Prop)

/-- The same values. -/
def SameVar {v : VarDescriptor} (var var' : Variable κ σ v) : Prop :=
  List.Forall₂ (Elem.Same R v.type) var.elems var'.elems

/-- A variable of the hook is that of the global state, with a time that is not before
the local one; or it has the value and the time of the local one. -/
def Follows {v : VarDescriptor} (shared : Bool) (y x : Variable κ σ v)
    (g : Option (Variable κ σ v)) : Prop :=
  if shared = true then g = some x ∧ y.timestamp.later x.timestamp = false
  else SameVar R y x ∧ x.timestamp = y.timestamp

/-- What holds of the local state, the global state and the hook. -/
def Linked (localState globalState : Option (State κ σ)) (hook : Hook κ σ) : Prop :=
  ∀ (p : DescriptorPtr) (x : StateData κ σ p.desc), hook.state = some ⟨p, x⟩ →
    ∃ y : StateData κ σ p.desc, localState = some ⟨p, y⟩ ∧
      ∀ i : Fin p.desc.vars.length,
        Follows R (hook.shared i) (y.vars i) (x.vars i) (varFor p globalState i)

/-- **The hook is composed**: it has the descriptor of the local state, and each of its
variables has the value of the local one, or else that of the global one, of which the
time is not before that of the local one. -/
def Composed (host : Host κ σ) : Prop :=
  ∀ (p : DescriptorPtr) (x : StateData κ σ p.desc), host.ageSdlHook.state = some ⟨p, x⟩ →
    ∃ y : StateData κ σ p.desc, host.localState = some ⟨p, y⟩ ∧
      ∀ i, SameVar R (y.vars i) (x.vars i) ∨
        ∃ g : StateData κ σ p.desc, host.globalState = some ⟨p, g⟩ ∧
          SameVar R (g.vars i) (x.vars i) ∧
          (y.vars i).timestamp.later (g.vars i).timestamp = false

variable {R}

theorem SameVar.refl (hR : ∀ c, R c c) {v : VarDescriptor} (var : Variable κ σ v) :
    SameVar R var var :=
  List.forall₂_same.2 fun e _ => Elem.Same.refl hR _ e

theorem Linked.composed (hR : ∀ c, R c c) {host : Host κ σ}
    (h : Linked R host.localState host.globalState host.ageSdlHook) : Composed R host := by
  intro p x hx
  obtain ⟨y, hy, hvars⟩ := h p x hx
  refine ⟨y, hy, fun i => ?_⟩
  have hi := hvars i
  unfold Follows at hi
  split at hi
  · obtain ⟨hg, htime⟩ := hi
    obtain ⟨g, hdata, hgi⟩ := Option.map_eq_some_iff.1 hg
    rw [← hgi] at htime ⊢
    exact .inr ⟨g, dataFor_eq_some.1 hdata, .refl hR _, htime⟩
  · exact .inl hi.1

/-! ### Variables -/

theorem Follows.merge {v : VarDescriptor} {shared : Bool} {y x : Variable κ σ v}
    {g : Option (Variable κ σ v)} (h : Follows R shared y x g) (hR : ∀ c, R c c)
    (w : Option (Variable κ σ v)) :
    Follows R (shared && !taken x w) (merged y w) (merged x w) g := by
  obtain _ | w := w
  · rw [taken, Bool.not_false, Bool.and_true]
    exact h
  · unfold Follows at h
    cases htaken : w.timestamp.later x.timestamp with
    | true =>
      have hy : w.timestamp.later y.timestamp = true := by
        rw [UnifiedTime.later_iff] at htaken ⊢
        split at h
        · have htime := (UnifiedTime.later_eq_false _ _).1 h.2
          omega
        · rw [← h.2]
          exact htaken
      rw [taken, merged, merged, htaken, hy, if_pos rfl, if_pos rfl, Bool.not_true, Bool.and_false,
        Follows, if_neg Bool.false_ne_true]
      exact ⟨.refl hR w, rfl⟩
    | false =>
      rw [taken, merged, merged, htaken, if_neg Bool.false_ne_true, Bool.not_false, Bool.and_true,
        Follows]
      split at h
      · rename_i hshared
        refine (if_pos hshared).symm ▸ ⟨h.1, ?_⟩
        split
        · exact htaken
        · exact h.2
      · rename_i hshared
        rw [if_neg hshared, ← h.2, htaken, if_neg Bool.false_ne_true]
        exact h

theorem Follows.mergeGlobal {v : VarDescriptor} {shared : Bool} {y x : Variable κ σ v}
    {g : Option (Variable κ σ v)} (h : (shared = true → Follows R shared y x g) ∧
      (shared = false → x.timestamp = y.timestamp ∧ (SameVar R y x ∨ taken x g = true))) :
    Follows R (shared || taken x g) y (merged x g) g := by
  cases shared with
  | true =>
    have hx := h.1 rfl
    rw [Follows, if_pos rfl] at hx
    obtain ⟨rfl, htime⟩ := hx
    have hself : x.timestamp.later x.timestamp = false := (UnifiedTime.later_eq_false _ _).2 (le_refl _)
    rw [Bool.true_or, merged, hself, if_neg Bool.false_ne_true, Follows, if_pos rfl]
    exact ⟨rfl, htime⟩
  | false =>
    obtain ⟨htime, hsame⟩ := h.2 rfl
    rw [Bool.false_or]
    cases htaken : taken x g with
    | true =>
      obtain _ | g := g
      · exact nomatch htaken
      · rw [taken] at htaken
        rw [merged, htaken, if_pos rfl, Follows, if_pos rfl]
        refine ⟨rfl, (UnifiedTime.later_eq_false _ _).2 ?_⟩
        rw [UnifiedTime.later_iff, htime] at htaken
        exact le_of_lt htaken
    | false =>
      have hx : merged x g = x := by
        obtain _ | g := g
        · rfl
        · rw [taken] at htaken
          rw [merged, htaken, if_neg Bool.false_ne_true]
      rw [hx, Follows, if_neg Bool.false_ne_true]
      refine ⟨hsame.resolve_right ?_, htime⟩
      rw [htaken]
      exact Bool.false_ne_true

/-! ### Operations -/

theorem Linked.merge {y y' g w : Option (State κ σ)} {hook hook' : Hook κ σ} (h : Linked R y g hook)
    (hR : ∀ c, R c c) (hhook : hook.merge w = .ok hook') (hy : State.merge y w = .ok y') :
    Linked R y' g hook' := by
  obtain ⟨state, hstate, hhook⟩ := Lib.bind_eq_ok.1 hhook
  obtain rfl := Except.ok.inj hhook
  intro p x' hx'
  obtain rfl : state = some ⟨p, x'⟩ := hx'
  obtain ⟨x, hx, hvars⟩ := merge_of_some hstate
  obtain ⟨z, rfl, hfollows⟩ := h p x hx
  obtain ⟨z', rfl, hvars'⟩ := merge_to_some hy
  refine ⟨z', rfl, fun i => ?_⟩
  dsimp only
  rw [hx, mergesAt_eq, hvars i, hvars' i]
  exact (hfollows i).merge hR _

/-- What the hook is to be before the global state is merged into it. -/
def Starts (R : σ → σ → Prop) (localState globalState state : Option (State κ σ)) : Prop :=
  ∀ (p : DescriptorPtr) (x : StateData κ σ p.desc), state = some ⟨p, x⟩ →
    ∃ y : StateData κ σ p.desc, localState = some ⟨p, y⟩ ∧ ∀ i : Fin p.desc.vars.length,
      (x.vars i).timestamp = (y.vars i).timestamp ∧
        (SameVar R (y.vars i) (x.vars i) ∨ taken (x.vars i) (varFor p globalState i) = true)

theorem Linked.start {y g state : Option (State κ σ)} {hook : Hook κ σ} (h : Starts R y g state)
    (hhook : Hook.mergeGlobal { state, shared := fun _ => false } g = .ok hook) : Linked R y g hook := by
  obtain ⟨state', hstate, hhook⟩ := Lib.bind_eq_ok.1 hhook
  obtain rfl := Except.ok.inj hhook
  intro p x' hx'
  obtain rfl : state' = some ⟨p, x'⟩ := hx'
  obtain ⟨x, rfl, hvars⟩ := merge_of_some hstate
  obtain ⟨z, rfl, hstarts⟩ := h p x rfl
  refine ⟨z, rfl, fun i => ?_⟩
  dsimp only
  rw [mergesAt_eq, hvars i]
  exact Follows.mergeGlobal ⟨(fun hshared => nomatch hshared), fun _ => hstarts i⟩

theorem Linked.mergeGlobal {y g : Option (State κ σ)} {hook hook' : Hook κ σ} (h : Linked R y g hook)
    (hhook : hook.mergeGlobal g = .ok hook') : Linked R y g hook' := by
  obtain ⟨state', hstate, hhook⟩ := Lib.bind_eq_ok.1 hhook
  obtain rfl := Except.ok.inj hhook
  intro p x' hx'
  obtain rfl : state' = some ⟨p, x'⟩ := hx'
  obtain ⟨x, hx, hvars⟩ := merge_of_some hstate
  obtain ⟨z, rfl, hfollows⟩ := h p x hx
  refine ⟨z, rfl, fun i => ?_⟩
  have hi := hfollows i
  dsimp only
  rw [hx, mergesAt_eq, hvars i]
  refine Follows.mergeGlobal ⟨fun _ => hi, fun hshared => ?_⟩
  rw [Follows, hshared, if_neg Bool.false_ne_true] at hi
  exact ⟨hi.2, .inl hi.1⟩

/-- What the local state can add, the hook can. -/
theorem Linked.add {y y' g : Option (State κ σ)} {hook : Hook κ σ} {u : State κ σ}
    (h : Linked R y g hook) (hR : ∀ c, R c c) (hy : State.add y (some u) = .ok y') :
    ∃ hook', hook.add (some u) = .ok hook' ∧ Linked R y' g hook' := by
  obtain ⟨state, shared⟩ := hook
  obtain _ | ⟨p, x⟩ := state
  · exact ⟨_, rfl, fun p x hx => nomatch hx⟩
  · obtain ⟨z, rfl, hfollows⟩ := h p x rfl
    obtain ⟨q, u⟩ := u
    have hq : q = p := by
      rw [State.add] at hy
      split at hy
      · rename_i hq
        exact hq
      · cases hy
    subst hq
    have hadd := add_some q x u
    rw [add_some] at hy
    obtain rfl := Except.ok.inj hy
    refine ⟨{ state := some ⟨q, x.add u⟩, shared := fun i => shared i && !addsAt (some ⟨q, u⟩) i },
      Lib.bind_eq_ok.2 ⟨_, hadd, rfl⟩, fun p' x' hx' => ?_⟩
    obtain ⟨rfl, hx⟩ := State.mk.inj (Option.some.inj hx')
    obtain rfl := eq_of_heq hx
    refine ⟨_, rfl, fun i => ?_⟩
    have hat : addsAt (some (⟨q, u⟩ : State κ σ)) i = (u.vars i).dirty := dif_pos i.isLt
    have hi := hfollows i
    dsimp only [StateData.add]
    rw [hat]
    cases (u.vars i).dirty with
    | true =>
      rw [if_pos rfl, if_pos rfl, Bool.not_true, Bool.and_false, Follows, if_neg Bool.false_ne_true]
      exact ⟨.refl hR _, rfl⟩
    | false =>
      rw [if_neg Bool.false_ne_true, if_neg Bool.false_ne_true, Bool.not_false, Bool.and_true]
      exact hi

theorem setText_timestamp {X : Conversions} {S : Children σ} {now : UnifiedTime} {value : String}
    {v : VarDescriptor} {var var' : Variable κ σ v} {told : Bool}
    (h : setText X S now value var = .ok (var', told)) : var'.timestamp = now := by
  unfold setText at h
  split at h
  · obtain ⟨rfl, -⟩ := Prod.mk.inj (Except.ok.inj h)
    rfl
  · dsimp only at h
    split at h
    · obtain ⟨rfl, -⟩ := Prod.mk.inj (Except.ok.inj h)
      rfl
    · exact nomatch h
    · obtain ⟨rfl, -⟩ := Prod.mk.inj (Except.ok.inj h)
      rfl

/-- What `dm_auth_update_globalSDL` leaves of the variables. -/
theorem setGlobal_eq_ok {X : Conversions} {S : Children σ} {now : UnifiedTime}
    {variableName value : String} {q : DescriptorPtr} {g : StateData κ σ q.desc} {s : State κ σ}
    {told : Bool} (h : setGlobal X S now variableName value ⟨q, g⟩ = .ok (s, told)) :
    ∃ g' : StateData κ σ q.desc, s = ⟨q, g'⟩ ∧
      ∀ i, g'.vars i = g.vars i ∨
        (named q.desc variableName = some i ∧ (g'.vars i).timestamp = now) := by
  unfold setGlobal at h
  split at h
  · obtain ⟨rfl, -⟩ := Prod.mk.inj (Except.ok.inj h)
    exact ⟨g, rfl, fun i => .inl rfl⟩
  · rename_i j hnamed
    split at h
    · exact nomatch h
    · rename_i var told' hvar
      obtain ⟨rfl, -⟩ := Prod.mk.inj (Except.ok.inj h)
      refine ⟨_, rfl, fun i => ?_⟩
      by_cases hi : i = j
      · subst hi
        refine .inr ⟨hnamed, ?_⟩
        dsimp only
        rw [Function.update_self]
        exact setText_timestamp hvar
      · exact .inl (Function.update_of_ne hi _ _)

theorem follow_of_some {hook : Hook κ σ} {g : Option (State κ σ)} {p : DescriptorPtr}
    {x' : StateData κ σ p.desc} (h : (hook.follow g).state = some ⟨p, x'⟩) :
    ∃ x : StateData κ σ p.desc, hook.state = some ⟨p, x⟩ ∧ ∀ i : Fin p.desc.vars.length,
      x'.vars i = if hook.shared i = true then (varFor p g i).getD (x.vars i) else x.vars i := by
  obtain ⟨⟨q, x⟩, hs, hfollow⟩ := Option.map_eq_some_iff.1 h
  dsimp only at hfollow
  split at hfollow
  · rename_i hdata
    obtain ⟨rfl, hx⟩ := State.mk.inj hfollow
    obtain rfl := eq_of_heq hx
    refine ⟨x, hs, fun i => ?_⟩
    rw [varFor, hdata, Option.map_none, Option.getD_none, ite_self]
  · rename_i data hdata
    obtain ⟨rfl, hx⟩ := State.mk.inj hfollow
    obtain rfl := eq_of_heq hx
    refine ⟨x, hs, fun i => ?_⟩
    rw [varFor, hdata, Option.map_some, Option.getD_some]

/-- The hook follows what is written to the global state, if the time of that is not
before the local one. -/
theorem Linked.follow {y : Option (State κ σ)} {q : DescriptorPtr} {g g' : StateData κ σ q.desc}
    {hook : Hook κ σ} (h : Linked R y (some ⟨q, g⟩) hook)
    (hg : ∀ i, g'.vars i = g.vars i ∨ (hook.shared i = true →
      ∀ z : StateData κ σ q.desc, y = some ⟨q, z⟩ →
        (z.vars i).timestamp.later (g'.vars i).timestamp = false)) :
    Linked R y (some ⟨q, g'⟩) (hook.follow (some ⟨q, g'⟩)) := by
  intro p x' hx'
  obtain ⟨x, hx, hvars⟩ := follow_of_some hx'
  obtain ⟨z, rfl, hfollows⟩ := h p x hx
  refine ⟨z, rfl, fun i => ?_⟩
  have hi := hfollows i
  show Follows R (hook.shared i) _ _ _
  rw [hvars i]
  unfold Follows at hi ⊢
  by_cases hshared : hook.shared i = true
  · rw [if_pos hshared] at hi
    rw [if_pos hshared, if_pos hshared]
    obtain ⟨hvar, htime⟩ := hi
    obtain ⟨data, hdata, hgi⟩ := Option.map_eq_some_iff.1 hvar
    obtain ⟨rfl, hdata⟩ := State.mk.inj (Option.some.inj (dataFor_eq_some.1 hdata))
    obtain rfl := eq_of_heq hdata
    rw [varFor_some, Option.getD_some]
    refine ⟨rfl, ?_⟩
    obtain hsame | hafter := hg i
    · rw [hsame, hgi]
      exact htime
    · exact hafter hshared z rfl
  · rw [if_neg hshared] at hi
    rw [if_neg hshared, if_neg hshared]
    exact hi

end Invariant

/-! ## Start-up -/

section StartUp

variable {C : Creatables κ} {S : Children σ} {db : DescriptorDb} {R D : σ → σ → Prop}
  {now : List UInt8 → Clock}

/-- No other descriptor is found under the name and the version that a blob holds. -/
def FoundAgain (db : DescriptorDb) (p : DescriptorPtr) : Prop :=
  Streams.Safe p.desc.name ∧
    ∀ q, db.findDescriptor p.desc.name (Streams.wrap16 p.desc.version) = some q → q = p

/-- What a state that has to be brought up to date at start-up carries over is the
default, or else there is a global value that is newer than none. -/
def CarriesLittle (D : σ → σ → Prop) (globalState : Option (State κ σ)) (s : State κ σ)
    (p : DescriptorPtr) (f : StateData κ σ p.desc) : Prop :=
  ∀ i j, s.desc.desc.find (p.desc.vars.get i).name = some j →
    (f.vars i).CarriedDefault D (s.data.vars j) ∨ taken (f.vars i) (varFor p globalState i) = true

variable (C S db now D) in
/-- When start-up goes well: a state that it creates or updates is read back from its
blob as it was. -/
def StartMeets (ageFilename : String) (localBlob : List UInt8) (globalState : Option (State κ σ)) :
    Prop :=
  match parse C S db now localBlob with
  | .error _ => True
  | .ok none => ∀ p, db.findLatestDescriptor ageFilename = some p → FoundAgain db p
  | .ok (some s) => ∀ p, db.findLatestDescriptor s.desc.desc.name = some p → p ≠ s.desc →
      FoundAgain db p ∧ ∀ f, StateData.new S p.desc = .ok f → CarriesLittle D globalState s p f

/-- A state in which nothing is dirty is read back as a new one. -/
theorem parse_clean {p q : DescriptorPtr} {f x : StateData κ σ p.desc} {t : StateData κ σ q.desc}
    (hfound : FoundAgain db p) (hobject : x.object = {}) (hnew : StateData.new S p.desc = .ok f)
    (hclean : ∀ i, (x.vars i).dirty = false)
    (h : parse C S db now (State.toBlob C S (some ⟨p, x⟩)) = .ok (some ⟨q, t⟩)) :
    ∃ t' : StateData κ σ p.desc, (⟨q, t⟩ : State κ σ) = ⟨p, t'⟩ ∧ t'.vars = f.vars := by
  unfold parse at h
  split at h
  · rename_i state rest hfrom
    obtain rfl := Except.ok.inj h
    have hfind := State.fromBlob_desc hfound.1 hfrom
    obtain rfl := hfound.2 q hfind
    obtain ⟨bucket, version, d⟩ := q
    obtain ⟨t', hfrom', hvars⟩ := State.clean_run (now _) hfound.1 hobject hnew hclean hfind
    obtain ⟨hstate, -⟩ := Prod.mk.inj (Except.ok.inj (hfrom.symm.trans hfrom'))
    exact ⟨t', Option.some.inj hstate, hvars⟩
  · exact nomatch h

/-- A state that is written and read back at start-up, with the descriptor `p`. -/
theorem starts_clean {p : DescriptorPtr} {f x : StateData κ σ p.desc} {g state : Option (State κ σ)}
    (hfound : FoundAgain db p) (hnew : StateData.new S p.desc = .ok f) (hobject : x.object = f.object)
    (hclean : ∀ i, (x.vars i).dirty = false) (htime : ∀ i, (x.vars i).timestamp = (f.vars i).timestamp)
    (hsame : ∀ i, SameVar R (x.vars i) (f.vars i) ∨ taken (f.vars i) (varFor p g i) = true)
    (h : parse C S db now (State.toBlob C S (some ⟨p, x⟩)) = .ok state) :
    Starts R (some ⟨p, x⟩) g state := by
  rintro q t rfl
  obtain ⟨t', heq, hvars⟩ := parse_clean hfound (hobject.trans (State.new_object hnew)) hnew hclean h
  obtain ⟨rfl, ht⟩ := State.mk.inj heq
  obtain rfl := eq_of_heq ht
  refine ⟨x, rfl, fun i => ?_⟩
  rw [hvars]
  exact ⟨(htime i).symm, hsame i⟩

theorem load_starts (hR : ∀ c, R c c) (hD : Elem.Foresees S D R) {ageFilename : String}
    {localBlob : List UInt8} {g y state : Option (State κ σ)}
    (hmeets : StartMeets C S db D now ageFilename localBlob g)
    (h : load C S db now ageFilename localBlob = .ok (y, state)) : Starts R y g state := by
  unfold load at h
  obtain ⟨st, hparse, h⟩ := Lib.bind_eq_ok.1 h
  rw [StartMeets, hparse] at hmeets
  obtain _ | s := st
  · dsimp only at h hmeets
    split at h
    · obtain ⟨-, rfl⟩ := Prod.mk.inj (Except.ok.inj h)
      exact fun p x hx => nomatch hx
    · rename_i p hlatest
      obtain ⟨created, hcreated, h⟩ := Lib.bind_eq_ok.1 h
      obtain ⟨state', hstate, h⟩ := Lib.bind_eq_ok.1 h
      obtain ⟨rfl, rfl⟩ := Prod.mk.inj (Except.ok.inj h)
      rw [State.new] at hcreated
      split at hcreated
      · rename_i f hf
        obtain rfl := Except.ok.inj hcreated
        exact starts_clean (hmeets p hlatest) hf rfl (fun i => (StateData.isNew hf i).clean)
          (fun i => rfl) (fun i => .inl (.refl hR _)) hstate
      · cases hcreated
  · dsimp only at h hmeets
    obtain ⟨⟨s', updated⟩, hupdate, h⟩ := Lib.bind_eq_ok.1 h
    obtain ⟨state', hstate, h⟩ := Lib.bind_eq_ok.1 h
    obtain ⟨rfl, rfl⟩ := Prod.mk.inj (Except.ok.inj h)
    obtain ⟨p, hlatest, hcases⟩ := State.update_eq_ok hupdate
    obtain ⟨-, rfl, rfl⟩ | ⟨hp, rfl, f, data, hf, hcarry, rfl⟩ := hcases
    · -- The hook is read off the blob that the local state was read off.
      rw [if_neg Bool.false_ne_true, hparse] at hstate
      obtain rfl := Except.ok.inj hstate
      obtain ⟨q, x⟩ := s'
      intro q' x' hx'
      obtain ⟨rfl, hx⟩ := State.mk.inj (Option.some.inj hx')
      obtain rfl := eq_of_heq hx
      exact ⟨x, rfl, fun i => ⟨rfl, .inl (.refl hR _)⟩⟩
    · rw [if_pos rfl] at hstate
      obtain ⟨hfound, hlittle⟩ := hmeets p hlatest hp
      obtain ⟨hobject, -, hvars⟩ := StateData.carry_eq_ok hcarry
      refine starts_clean hfound hf hobject (StateData.carry_clean hf hcarry) (fun i => ?_)
        (fun i => ?_) hstate
      · cases hfind : s.desc.desc.find (p.desc.vars.get i).name with
        | none => rw [(hvars i).1 hfind]
        | some j => exact Variable.copy_timestamp ((hvars i).2 j hfind)
      · cases hfind : s.desc.desc.find (p.desc.vars.get i).name with
        | none =>
          rw [(hvars i).1 hfind]
          exact .inl (.refl hR _)
        | some j =>
          refine (hlittle f hf i j hfind).imp_left fun hcarried => ?_
          exact (Variable.carried_iff hR hD (StateData.isNew hf i) ((hvars i).2 j hfind)).2 hcarried

end StartUp

/-! ## Runs -/

section Runs

variable {C : Creatables κ} {S : Children σ} {db : DescriptorDb} {R D : σ → σ → Prop}
  {X : Conversions} {now : List UInt8 → Clock} {ageFilename : String}

variable (C S db D now ageFilename) in
/-- When a step goes well: start-up as in `StartMeets`; and where the hook shares the
variable that the auth daemon writes to, the time of that is not before the time of the
local one. -/
def Meets : Option (Host κ σ) → Event κ σ → Prop
  | _, .start localBlob globalState => StartMeets C S db D now ageFilename localBlob globalState
  | some host, .setGlobal name variableName _ time =>
    DescriptorDb.bucket name = DescriptorDb.bucket ageFilename →
      ∀ (p : DescriptorPtr) (y : StateData κ σ p.desc) (i : Fin p.desc.vars.length),
        host.localState = some ⟨p, y⟩ → named p.desc variableName = some i →
        host.ageSdlHook.shared i = true → (y.vars i).timestamp.later time = false
  | _, _ => True

/-- What holds of a host, if there is one. -/
def Links (R : σ → σ → Prop) (host : Option (Host κ σ)) : Prop :=
  ∀ h ∈ host, Linked R h.localState h.globalState h.ageSdlHook

theorem caught_eq_some {α : Type} {a a' : α} {x : Except StreamError α} (h : caught a x = some a') :
    x = .ok a' ∨ a' = a ∧ ∃ e, x = .error e := by
  unfold caught at h
  split at h
  · exact .inl (congrArg _ (Option.some.inj h))
  · exact nomatch h
  · exact .inr ⟨(Option.some.inj h).symm, _, rfl⟩

theorem client_linked (hR : ∀ c, R c c) {host host' : Host κ σ} {blob : List UInt8}
    (h : Linked R host.localState host.globalState host.ageSdlHook)
    (hstep : client C S db now host blob = some host') :
    Linked R host'.localState host'.globalState host'.ageSdlHook := by
  unfold client at hstep
  split at hstep
  · obtain hok | ⟨rfl, -⟩ := caught_eq_some hstep
    · exact nomatch hok
    · exact h
  · obtain rfl := Option.some.inj hstep
    exact h
  · split at hstep
    · obtain hok | ⟨rfl, -⟩ := caught_eq_some hstep
      · exact nomatch hok
      · exact h
    · rename_i u _ localState hlocal
      obtain ⟨hook, hadd, hlinked⟩ := h.add hR hlocal
      rw [hadd] at hstep
      obtain rfl := Option.some.inj hstep
      exact hlinked

theorem vault_linked (hR : ∀ c, R c c) {host host' : Host κ σ} {blob : List UInt8}
    (h : Linked R host.localState host.globalState host.ageSdlHook)
    (hstep : vault C S db now host blob = some host') :
    Linked R host'.localState host'.globalState host'.ageSdlHook := by
  unfold vault at hstep
  split at hstep
  · obtain hok | ⟨rfl, -⟩ := caught_eq_some hstep
    · exact nomatch hok
    · exact h
  · obtain rfl := Option.some.inj hstep
    exact h
  · obtain hok | ⟨rfl, -⟩ := caught_eq_some hstep
    · obtain ⟨hook, hhook, hok⟩ := Lib.bind_eq_ok.1 hok
      obtain ⟨hook', hhook', hok⟩ := Lib.bind_eq_ok.1 hok
      obtain ⟨localState, hlocal, hok⟩ := Lib.bind_eq_ok.1 hok
      obtain rfl := Except.ok.inj hok
      exact (h.merge hR hhook hlocal).mergeGlobal hhook'
    · exact h

theorem globalUpdate_linked {host host' : Host κ σ}
    (h : Linked R host.localState host.globalState host.ageSdlHook)
    (hstep : globalUpdate host = some host') :
    Linked R host'.localState host'.globalState host'.ageSdlHook := by
  unfold globalUpdate at hstep
  split at hstep
  · exact nomatch hstep
  · obtain ⟨hook, hhook, rfl⟩ := Option.map_eq_some_iff.1 hstep
    obtain hok | ⟨rfl, -⟩ := caught_eq_some hhook
    · exact h.mergeGlobal hok
    · exact h

theorem changeGlobal_linked {host host' : Host κ σ} {name variableName value : String}
    {time : UnifiedTime} (h : Linked R host.localState host.globalState host.ageSdlHook)
    (hmeets : Meets C S db D now ageFilename (some host) (.setGlobal name variableName value time))
    (hstep : changeGlobal S X ageFilename host name variableName value time = some host') :
    Linked R host'.localState host'.globalState host'.ageSdlHook := by
  unfold changeGlobal at hstep
  split at hstep
  · rename_i hname
    split at hstep
    · obtain rfl := Option.some.inj hstep
      exact h
    · rename_i global hglobal
      rw [hglobal] at h
      obtain ⟨⟨global', told⟩, hset, rfl⟩ := Option.map_eq_some_iff.1 hstep
      obtain ⟨q, g⟩ := global
      obtain hok | ⟨heq, -⟩ := caught_eq_some hset
      · obtain ⟨g', rfl, hvars⟩ := setGlobal_eq_ok hok
        refine h.follow fun i => (hvars i).imp_right ?_
        rintro ⟨hnamed, htime⟩ hshared z hz
        rw [htime]
        exact hmeets hname q z i hz hnamed hshared
      · obtain ⟨rfl, -⟩ := Prod.mk.inj heq
        exact h.follow fun i => .inl rfl
  · obtain rfl := Option.some.inj hstep
    exact h

theorem start_linked (hR : ∀ c, R c c) (hD : Elem.Foresees S D R) {localBlob : List UInt8}
    {globalState : Option (State κ σ)} {host : Host κ σ}
    (hmeets : StartMeets C S db D now ageFilename localBlob globalState)
    (hstart : start C S db now ageFilename localBlob globalState = .ok host) :
    Linked R host.localState host.globalState host.ageSdlHook := by
  obtain ⟨⟨localState, state⟩, hload, hstart⟩ := Lib.bind_eq_ok.1 hstart
  obtain ⟨hook, hhook, hstart⟩ := Lib.bind_eq_ok.1 hstart
  obtain rfl := Except.ok.inj hstart
  exact Linked.start (load_starts hR hD hmeets hload) hhook

/-- **What every step preserves.** -/
theorem step_links (hR : ∀ c, R c c) (hD : Elem.Foresees S D R) {host host' : Option (Host κ σ)}
    {e : Event κ σ} (h : Links R host) (hmeets : Meets C S db D now ageFilename host e)
    (hstep : step C S db X now ageFilename host e = some host') : Links R host' := by
  obtain _ | host := host
  · cases e with
    | start localBlob globalState =>
      obtain ⟨host, hstart, rfl⟩ := Option.map_eq_some_iff.1 hstep
      intro host' hhost'
      obtain rfl := Option.some.inj hhost'
      refine start_linked hR hD hmeets ?_
      revert hstart
      cases start C S db now ageFilename localBlob globalState with
      | error => exact fun hstart => nomatch hstart
      | ok host => exact fun hstart => congrArg Except.ok (Option.some.inj hstart)
    | _ => exact nomatch hstep
  · have hlinked := h host rfl
    have hall : ∀ host'' : Option (Host κ σ), host''.map some = some host' →
        (∀ h' ∈ host'', Linked R h'.localState h'.globalState h'.ageSdlHook) → Links R host' := by
      intro host'' heq hhost''
      obtain ⟨h', hh', rfl⟩ := Option.map_eq_some_iff.1 heq
      intro h'' hh''
      obtain rfl := Option.some.inj hh''
      exact hhost'' h' hh'
    cases e with
    | start => exact nomatch hstep
    | client blob => exact hall _ hstep fun host' hhost' => client_linked hR hlinked hhost'
    | vault blob => exact hall _ hstep fun host' hhost' => vault_linked hR hlinked hhost'
    | setGlobal name variableName value time =>
      exact hall _ hstep fun host' hhost' => changeGlobal_linked hlinked hmeets hhost'
    | globalUpdate => exact hall _ hstep fun host' hhost' => globalUpdate_linked hlinked hhost'

end Runs

/-- **The hook is composed of local and global state** in every run of a host in which a
state that start-up creates or updates is read back as it was, and in which the auth
daemon's clock is not behind the local time of a variable that it writes to and that the
hook shares. -/
theorem hook_composed (C : Creatables κ) (db : DescriptorDb) (n : Nat) (X : Conversions)
    (now : List UInt8 → Clock) (ageFilename : String) {host : Host κ (Child κ n)}
    (h : (machine C (children C db n) db X now ageFilename).ReachableWith
      (Meets C (children C db n) db (Foreseen db n) now ageFilename) (some host)) :
    Composed (SameValues n) host := by
  have hlinks : Links (SameValues n) (some host) := by
    refine h.invariant (I := Links (SameValues n)) ?_ ?_
    · rintro _ rfl host' hhost'
      exact nomatch hhost'
    · intro host e host' hinv hmeets hstep
      exact step_links (SameValues.refl n) (children_foresees C db n) hinv hmeets hstep
  exact (hlinks host rfl).composed (SameValues.refl n)

/-! ## Two runs of a door -/

/-- The integers of a variable. -/
def intsAt (s : Option (State κ σ)) (i : Nat) : Option (List (Option UInt32)) :=
  s.bind fun s =>
    if h : i < s.desc.desc.vars.length then
      some ((s.data.vars ⟨i, h⟩).elems.map (State.intElem _))
    else none

theorem intsAt_eq {R : σ → σ → Prop} {p : DescriptorPtr} {x y : StateData κ σ p.desc}
    {i : Fin p.desc.vars.length} (h : SameVar R (y.vars i) (x.vars i)) :
    intsAt (some (⟨p, y⟩ : State κ σ)) i = intsAt (some (⟨p, x⟩ : State κ σ)) i := by
  have hat : ∀ z : StateData κ σ p.desc,
      intsAt (some (⟨p, z⟩ : State κ σ)) i = some ((z.vars i).elems.map (State.intElem _)) :=
    fun z => dif_pos i.isLt
  have hmap : List.Forall₂ Eq ((y.vars i).elems.map (State.intElem (κ := κ) (σ := σ) _))
      ((x.vars i).elems.map (State.intElem _)) :=
    List.forall₂_map_left_iff.2 (List.forall₂_map_right_iff.2 (h.imp fun _ _ h => State.intElem_eq h))
  rw [List.forall₂_eq_eq_eq] at hmap
  rw [hat, hat, hmap]

/-- The integers of a hook that is composed. -/
theorem Composed.ints {R : σ → σ → Prop} {host : Host κ σ} (h : Composed R host) (i : Nat) :
    intsAt host.ageSdlHook.state i = none ∨
      intsAt host.localState i = intsAt host.ageSdlHook.state i ∨
      intsAt host.globalState i = intsAt host.ageSdlHook.state i := by
  cases hstate : host.ageSdlHook.state with
  | none => exact .inl rfl
  | some s =>
    obtain ⟨p, x⟩ := s
    obtain ⟨y, hy, hvars⟩ := h p x hstate
    by_cases hi : i < p.desc.vars.length
    · right
      rw [hy]
      obtain hsame | ⟨g, hg, hsame, -⟩ := hvars ⟨i, hi⟩
      · exact .inl (intsAt_eq hsame)
      · rw [hg]
        exact .inr (intsAt_eq hsame)
    · exact .inl (dif_neg hi)

/-- A blob of the door, in this version and with this value. -/
def doorBlob (version : Int) (n : UInt8) : List UInt8 :=
  Streams.writeU16 0x8000 ++ Streams.writeSafeString "Door" ++ Streams.writeInt16 version ++
    Streams.writeU16 0 ++ [StateData.ioVersion, 1, 0, 0, n, 0, 0, 0, 0]

/-- The conversions of the one number here. -/
def nine : Conversions where
  toBool := fun _ => false
  toUInt := fun value => if value = "9" then 9 else 0
  toInt := fun value => if value = "9" then 9 else 0

def doorDb : DescriptorDb := DescriptorDb.load State.twoVersions

abbrev Door := State Empty (Child Empty 0)

def doorMachine : Lib.Machine (Option (Host Empty (Child Empty 0))) (Event Empty (Child Empty 0)) :=
  machine State.noCreatables (children State.noCreatables doorDb 0) doorDb nine (fun _ _ => {}) "Door"

/-- A global state of the door, of the latest version. -/
def globalDoor (n : UInt8) : Option Door :=
  match parse State.noCreatables (children State.noCreatables doorDb 0) doorDb (fun _ _ => {})
    (doorBlob 2 n) with
  | .ok state => state
  | .error _ => none

/-- The integers of the local state, of the global state and of the hook. -/
def doorInts (events : List (Event Empty (Child Empty 0))) :
    Option (Option (List (Option (List (Option UInt32))))) :=
  (doorMachine.run none events).map fun host => host.map fun host =>
    [intsAt host.localState 0, intsAt host.globalState 0, intsAt host.ageSdlHook.state 0]

/-- **A hook that is neither.**  The local state is updated to a new version, its hook is
read back with the default, and the global value is as old as that. -/
theorem hook_of_its_own : ∃ host, doorMachine.Reachable (some host) ∧
    ¬ Composed (SameValues 0) host := by
  have hints : doorInts [.start (doorBlob 1 5) (globalDoor 7)] =
      some (some [some [some 5], some [some 7], some [some 0]]) := by decide +kernel
  obtain ⟨state, hrun, hstate⟩ := Option.map_eq_some_iff.1 hints
  obtain ⟨host, rfl, hhost⟩ := Option.map_eq_some_iff.1 hstate
  obtain ⟨hlocal, hglobal, hhook⟩ : intsAt host.localState 0 = some [some 5] ∧
      intsAt host.globalState 0 = some [some 7] ∧
      intsAt host.ageSdlHook.state 0 = some [some 0] := by
    obtain ⟨h₁, h₂⟩ := List.cons.inj hhost
    obtain ⟨h₂, h₃⟩ := List.cons.inj h₂
    exact ⟨h₁, h₂, (List.cons.inj h₃).1⟩
  refine ⟨host, Lib.Machine.run_reachable (.start rfl) hrun, fun hcomposed => ?_⟩
  have hor := hcomposed.ints 0
  rw [hlocal, hglobal, hhook] at hor
  exact absurd hor (by decide)

/-- A test of `Meets`, for states that need no update. -/
def meetsTest : Option (Host Empty (Child Empty 0)) → Event Empty (Child Empty 0) → Bool
  | none, .start localBlob _ =>
    match parse State.noCreatables (children State.noCreatables doorDb 0) doorDb (fun _ _ => {})
      localBlob with
    | .ok (some s) => doorDb.findLatestDescriptor s.desc.desc.name = some s.desc
    | _ => false
  | some host, .setGlobal _ variableName _ time =>
    match host.localState with
    | none => true
    | some y => decide (∀ i : Fin y.desc.desc.vars.length, named y.desc.desc variableName = some i →
        host.ageSdlHook.shared i = true → (y.data.vars i).timestamp.later time = false)
  | some _, .globalUpdate => true
  | _, _ => false

theorem meets_of_test (host : Option (Host Empty (Child Empty 0))) (e : Event Empty (Child Empty 0))
    (h : meetsTest host e = true) :
    Meets State.noCreatables (children State.noCreatables doorDb 0) doorDb (Foreseen doorDb 0)
      (fun _ _ => {}) "Door" host e := by
  unfold meetsTest at h
  split at h
  · split at h
    · rename_i hparse
      rw [Meets, StartMeets, hparse]
      intro p hp hne
      rw [of_decide_eq_true h] at hp
      exact absurd (Option.some.inj hp).symm hne
    · exact nomatch h
  · intro _ p y i hy hnamed hshared
    rw [hy] at h
    exact of_decide_eq_true h i hnamed hshared
  · trivial
  · exact nomatch h

theorem hook_composed_door : ∃ host, intsAt host.ageSdlHook.state 0 = some [some 9] ∧
    Composed (SameValues 0) (host : Host Empty (Child Empty 0)) := by
  have hints : doorInts [.start (doorBlob 2 5) (globalDoor 7), .setGlobal "Door" "n" "9" ⟨3, 0⟩,
      .globalUpdate] = some (some [some [some 5], some [some 9], some [some 9]]) := by decide +kernel
  obtain ⟨state, hrun, hstate⟩ := Option.map_eq_some_iff.1 hints
  obtain ⟨host, rfl, hhost⟩ := Option.map_eq_some_iff.1 hstate
  have hok : doorMachine.OkRun
      (Meets State.noCreatables (children State.noCreatables doorDb 0) doorDb (Foreseen doorDb 0)
        (fun _ _ => {}) "Door") none
      [.start (doorBlob 2 5) (globalDoor 7), .setGlobal "Door" "n" "9" ⟨3, 0⟩, .globalUpdate] :=
    Lib.Machine.okRun_of_allRun meets_of_test (by decide +kernel)
  obtain ⟨s', hrun', hreach⟩ := Lib.Machine.ReachableWith.run (.start rfl) hok
  obtain rfl := Option.some.inj (hrun'.symm.trans hrun)
  obtain ⟨-, h₂⟩ := List.cons.inj hhost
  obtain ⟨-, h₃⟩ := List.cons.inj h₂
  exact ⟨host, (List.cons.inj h₃).1, hook_composed State.noCreatables doorDb 0 nine (fun _ _ => {})
    "Door" hreach⟩

end Dirtsand.AgeSdl
