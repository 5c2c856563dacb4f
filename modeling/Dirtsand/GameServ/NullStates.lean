import Dirtsand.GameServ.AgeSdl

/-!
# Null states

Where states are null, and what becomes of those that are combined with them:
`State::add` and `State::merge` (SDL/StateInfo.cpp), `v_check_global_sdl`
(AuthServ/AuthVault.cpp), `start_game_host` and the SDL handlers of a game host
(GameServ/GameHost.cpp).

* `add_total`, `merge_total` — which pairs of states are combined.
* `step_hookSafe` — a null global state stays apart from a hook that is not null.
* `combining_total` — when no handler combines a state with a null one.
-/

namespace Dirtsand.AgeSdl

open SDL

variable {κ σ : Type}

/-! ## Pairs of states -/

/-- How a pair is combined: with all variables, or without a change of the target, which
may be because of an exception. -/
inductive Combined (whole : ∀ d, StateData κ σ d → StateData κ σ d → StateData κ σ d)
    (s state : Option (State κ σ)) : Except StreamError (Option (State κ σ)) → Prop
  | whole {p : DescriptorPtr} {x y : StateData κ σ p.desc} (hs : s = some ⟨p, x⟩)
      (hstate : state = some ⟨p, y⟩) : Combined whole s state (.ok (some ⟨p, whole p.desc x y⟩))
  | same : Combined whole s state (.ok s)
  | thrown {e : StreamError} (he : e ≠ .crash) : Combined whole s state (.error e)

theorem add_total (s state : Option (State κ σ)) :
    Combined (fun _ => StateData.add) s state (State.add s state) ↔ s = none ∨ state ≠ none := by
  obtain _ | ⟨p, x⟩ := s
  · exact iff_of_true .same (.inl rfl)
  · obtain _ | ⟨q, y⟩ := state
    · refine iff_of_false ?_ (by simp)
      rintro (_ | _ | he)
      exact he rfl
    · refine iff_of_true ?_ (.inr (by simp))
      rw [State.add]
      split
      · rename_i hq
        obtain rfl : q = p := hq
        exact .whole rfl rfl
      · exact .thrown (by decide)

theorem merge_total (s state : Option (State κ σ)) :
    Combined (fun _ => StateData.merge) s state (State.merge s state) ↔ s = none ∨ state ≠ none := by
  obtain _ | ⟨p, x⟩ := s
  · exact iff_of_true .same (.inl rfl)
  · obtain _ | ⟨q, y⟩ := state
    · refine iff_of_false ?_ (by simp)
      rintro (_ | _ | he)
      exact he rfl
    · refine iff_of_true ?_ (.inr (by simp))
      rw [State.merge]
      split
      · rename_i hq
        obtain rfl : q = p := hq
        exact .whole rfl rfl
      · exact .same

/-- What is combined stays null, or not null. -/
theorem isSome_of_merge {s state st : Option (State κ σ)} (h : State.merge s state = .ok st) :
    st = none ↔ s = none := by
  obtain ⟨rfl, rfl⟩ | ⟨p, x, x', rfl, rfl, -⟩ := merge_eq_ok h
  · rfl
  · simp

theorem isSome_of_add {s state st : Option (State κ σ)} (h : State.add s state = .ok st) :
    st = none ↔ s = none := by
  obtain _ | ⟨p, x⟩ := s
  · obtain rfl := Except.ok.inj h
    rfl
  · obtain _ | ⟨q, y⟩ := state
    · cases h
    · rw [State.add] at h
      split at h
      · obtain rfl := Except.ok.inj h
        simp
      · cases h

section Handlers

variable (C : Creatables κ) (S : Children σ) (db : DescriptorDb) (X : Conversions)
  (now : List UInt8 → Clock) (ageFilename : String)

/-! ## The global state -/

/-- What `v_check_global_sdl` looks at for a name, which is that of a bucket here: whether there
is an .age file, and the blob in the row of the database. -/
structure Installation where
  ageFile : String → Bool
  row : String → Option (List UInt8)

/-- `v_check_global_sdl`, where the database answers: the state that is put into
`s_globalStates`, if one is. -/
def checkGlobalSdl (W : Installation) (name : String) (desc : DescriptorPtr) :
    Except StreamError (Option (Option (State κ σ))) :=
  if W.ageFile name = false then .ok none
  else
    match W.row name with
    | none => do
      let state ← State.new S (some desc)
      .ok (some state)
    | some blob => do
      let state ← parse C S db now blob
      match state with
      -- `update` of a null state does nothing.
      | none => .ok (some none)
      | some s =>
        if s.desc = desc then .ok (some (some s))
        else do
          let (s, _) ← s.update S db
          .ok (some (some s))

/-- The global state in the answer of `dm_auth_fetchSDL`: what `ForLatestDescriptors` came to
under this name. -/
def globalState (W : Installation) : Except StreamError (Option (State κ σ)) :=
  match db.findLatestDescriptor ageFilename with
  | none => .ok none
  | some desc => do
    let state ← checkGlobalSdl C S db now W (DescriptorDb.bucket ageFilename) desc
    .ok state.join

/-- An age without a global state: it has no descriptor, or no .age file, or a row of which the
blob has no state. -/
def NoGlobal (W : Installation) : Prop :=
  db.findLatestDescriptor ageFilename = none ∨ W.ageFile (DescriptorDb.bucket ageFilename) = false ∨
    ∃ blob, W.row (DescriptorDb.bucket ageFilename) = some blob ∧ parse C S db now blob = .ok none

variable {C S db X now ageFilename}

theorem globalState_eq_none {W : Installation} {global : Option (State κ σ)}
    (h : globalState C S db now ageFilename W = .ok global) :
    global = none ↔ NoGlobal C S db now ageFilename W := by
  unfold globalState at h
  unfold NoGlobal
  split at h
  · rename_i hdesc
    obtain rfl := Except.ok.inj h
    exact iff_of_true rfl (.inl hdesc)
  · rename_i desc hdesc
    obtain ⟨state, hcheck, h⟩ := Lib.bind_eq_ok.1 h
    obtain rfl := Except.ok.inj h
    rw [hdesc]
    unfold checkGlobalSdl at hcheck
    split at hcheck
    · rename_i hfile
      obtain rfl := Except.ok.inj hcheck
      exact iff_of_true rfl (.inr (.inl hfile))
    · rename_i hfile
      split at hcheck
      · rename_i hrow
        obtain ⟨st, hnew, hcheck⟩ := Lib.bind_eq_ok.1 hcheck
        obtain rfl := Except.ok.inj hcheck
        rw [State.new] at hnew
        split at hnew
        · obtain rfl := Except.ok.inj hnew
          simp [hfile, hrow]
        · cases hnew
      · rename_i blob hrow
        obtain ⟨st, hparse, hcheck⟩ := Lib.bind_eq_ok.1 hcheck
        obtain _ | s := st
        · obtain rfl := Except.ok.inj hcheck
          exact iff_of_true rfl (.inr (.inr ⟨blob, hrow, hparse⟩))
        · have hsome : state.join ≠ none := by
            dsimp only at hcheck
            split at hcheck
            · obtain rfl := Except.ok.inj hcheck
              simp
            · obtain ⟨⟨s', _⟩, -, hcheck⟩ := Lib.bind_eq_ok.1 hcheck
              obtain rfl := Except.ok.inj hcheck
              simp
          refine iff_of_false hsome ?_
          rintro (hnone | hfile' | ⟨blob', hrow', hparse'⟩)
          · cases hnone
          · exact hfile hfile'
          · obtain rfl := Option.some.inj (hrow.symm.trans hrow')
            rw [hparse] at hparse'
            cases hparse'

/-! ## Handlers -/

variable (C S db X now ageFilename)

/-- The blob that `start_game_host` reads the hook from. -/
def hookBlob (localBlob : List UInt8) : Except StreamError (List UInt8) := do
  let state ← parse C S db now localBlob
  match state with
  | none =>
    match db.findLatestDescriptor ageFilename with
    | none => .ok []
    | some desc => do
      let state ← State.new S (some desc)
      .ok (State.toBlob C S state)
  | some s => do
    let (s, updated) ← s.update S db
    .ok (if updated then State.toBlob C S (some s) else localBlob)

/-- A hook that is null: that blob has no state. -/
def NoHook (localBlob : List UInt8) : Prop :=
  ∀ blob, hookBlob C S db now ageFilename localBlob = .ok blob → parse C S db now blob = .ok none

/-- **No null state is used** while a handler combines states: once the blobs of the event are
read, it comes to its end, or throws. -/
def Combines : Option (Host κ σ) → Event κ σ → Prop
  | none, .start localBlob global => ∀ states, load C S db now ageFilename localBlob = .ok states →
      start C S db now ageFilename localBlob global ≠ .error .crash
  | some host, .client blob => ∀ update, parse C S db now blob = .ok (some update) →
      client C S db now host blob ≠ none
  | some host, .vault blob => ∀ vaultState, parse C S db now blob = .ok (some vaultState) →
      vault C S db now host blob ≠ none
  | some host, .globalUpdate => host.updates ≠ 0 → globalUpdate host ≠ none
  | _, _ => True

/-- The condition on how a host is started: the age has a global state that is not null, or the
hook is null. -/
def StartsSafely : Option (Host κ σ) → Event κ σ → Prop
  | none, .start localBlob global => global ≠ none ∨ NoHook C S db now ageFilename localBlob
  | _, _ => True

variable {C S db X now ageFilename}

theorem parse_nil : parse C S db now [] = .ok none := rfl

/-- The hook is what its blob has. -/
theorem load_hook {localBlob : List UInt8} {states : Option (State κ σ) × Option (State κ σ)}
    (h : load C S db now ageFilename localBlob = .ok states) :
    ∃ blob, hookBlob C S db now ageFilename localBlob = .ok blob ∧
      parse C S db now blob = .ok states.2 := by
  obtain ⟨state, hstate, h⟩ := Lib.bind_eq_ok.1 h
  obtain _ | s := state
  · dsimp only at h
    split at h
    · rename_i hdesc
      obtain rfl := Except.ok.inj h
      refine ⟨[], Lib.bind_eq_ok.2 ⟨none, hstate, ?_⟩, parse_nil⟩
      dsimp only
      rw [hdesc]
    · rename_i desc hdesc
      obtain ⟨state, hnew, h⟩ := Lib.bind_eq_ok.1 h
      obtain ⟨hook, hhook, h⟩ := Lib.bind_eq_ok.1 h
      obtain rfl := Except.ok.inj h
      refine ⟨State.toBlob C S state, Lib.bind_eq_ok.2 ⟨none, hstate, ?_⟩, hhook⟩
      dsimp only
      rw [hdesc]
      exact Lib.bind_eq_ok.2 ⟨state, hnew, rfl⟩
  · obtain ⟨⟨s', updated⟩, hupdate, h⟩ := Lib.bind_eq_ok.1 h
    obtain ⟨hook, hhook, h⟩ := Lib.bind_eq_ok.1 h
    obtain rfl := Except.ok.inj h
    exact ⟨_, Lib.bind_eq_ok.2 ⟨some s, hstate, Lib.bind_eq_ok.2 ⟨(s', updated), hupdate, rfl⟩⟩, hhook⟩

theorem noHook_iff {localBlob : List UInt8} {states : Option (State κ σ) × Option (State κ σ)}
    (h : load C S db now ageFilename localBlob = .ok states) :
    NoHook C S db now ageFilename localBlob ↔ states.2 = none := by
  obtain ⟨blob, hblob, hparse⟩ := load_hook h
  constructor
  · intro hnone
    rw [hnone blob hblob] at hparse
    exact (Except.ok.inj hparse).symm
  · rintro hnone blob' hblob'
    obtain rfl := Except.ok.inj (hblob.symm.trans hblob')
    rw [hparse, hnone]

/-! ### What a host keeps -/

/-- A hook that is not null has a global state beside it. -/
def HookSafe (host : Host κ σ) : Prop := host.ageSdlHook.state = none ∨ host.globalState ≠ none

theorem merge_of_total {s state : Option (State κ σ)} (h : s = none ∨ state ≠ none) :
    ∃ st, State.merge s state = .ok st ∧ (st = none ↔ s = none) := by
  cases hmerge : State.merge s state with
  | error e =>
    obtain _ | ⟨p, x⟩ := s
    · cases hmerge
    · obtain _ | ⟨q, y⟩ := state
      · exact absurd rfl (h.resolve_left (by simp))
      · rw [State.merge] at hmerge
        split at hmerge
        · cases hmerge
        · cases hmerge
  | ok st => exact ⟨st, rfl, isSome_of_merge hmerge⟩

theorem Hook.merge_of_total (hook : Hook κ σ) {state : Option (State κ σ)}
    (h : hook.state = none ∨ state ≠ none) :
    ∃ hook', hook.merge state = .ok hook' ∧ (hook'.state = none ↔ hook.state = none) := by
  obtain ⟨st, hmerge, hnone⟩ := AgeSdl.merge_of_total h
  exact ⟨_, Lib.bind_eq_ok.2 ⟨st, hmerge, rfl⟩, hnone⟩

theorem Hook.mergeGlobal_of_total (hook : Hook κ σ) {global : Option (State κ σ)}
    (h : hook.state = none ∨ global ≠ none) :
    ∃ hook', hook.mergeGlobal global = .ok hook' ∧ (hook'.state = none ↔ hook.state = none) := by
  obtain ⟨st, hmerge, hnone⟩ := AgeSdl.merge_of_total h
  exact ⟨_, Lib.bind_eq_ok.2 ⟨st, hmerge, rfl⟩, hnone⟩

/-- Start-up, with the states that it has loaded. -/
theorem start_iff {localBlob : List UInt8} {global : Option (State κ σ)}
    {states : Option (State κ σ) × Option (State κ σ)}
    (h : load C S db now ageFilename localBlob = .ok states) :
    start C S db now ageFilename localBlob global ≠ .error .crash ↔
      global ≠ none ∨ NoHook C S db now ageFilename localBlob := by
  rw [noHook_iff h, start, h]
  show ((Hook.mergeGlobal ⟨states.2, fun _ => false⟩ global).bind _ ≠ _) ↔ _
  constructor
  · intro hne
    by_contra hnot
    rw [not_or, not_ne_iff] at hnot
    obtain ⟨rfl, hhook⟩ := hnot
    obtain ⟨s, hs⟩ := Option.ne_none_iff_exists'.1 hhook
    rw [hs] at hne
    exact hne rfl
  · intro hor
    obtain ⟨hook, hmerge, -⟩ := Hook.mergeGlobal_of_total ⟨states.2, fun _ => false⟩ hor.symm
    rw [hmerge]
    exact fun h => nomatch h

theorem start_hookSafe {localBlob : List UInt8} {global : Option (State κ σ)} {host : Host κ σ}
    (hok : global ≠ none ∨ NoHook C S db now ageFilename localBlob)
    (h : start C S db now ageFilename localBlob global = .ok host) : HookSafe host := by
  obtain ⟨states, hload, h⟩ := Lib.bind_eq_ok.1 h
  obtain ⟨hook, hmerge, h⟩ := Lib.bind_eq_ok.1 h
  obtain rfl := Except.ok.inj h
  rw [noHook_iff hload] at hok
  obtain ⟨hook', hmerge', hnone⟩ :=
    Hook.mergeGlobal_of_total ⟨states.2, fun _ => false⟩ hok.symm
  obtain rfl := Except.ok.inj (hmerge.symm.trans hmerge')
  exact hok.symm.imp hnone.2 id

theorem mergeVault_of_safe {host : Host κ σ} (h : HookSafe host) (vaultState : State κ σ) :
    ∃ host', mergeVault host vaultState = .ok host' ∧ HookSafe host' := by
  obtain ⟨hook₁, h₁, hnone₁⟩ := 
    Hook.merge_of_total host.ageSdlHook (.inr (Option.some_ne_none vaultState))
  have hsafe : hook₁.state = none ∨ host.globalState ≠ none := h.imp hnone₁.2 id
  obtain ⟨hook₂, h₂, hnone₂⟩ := Hook.mergeGlobal_of_total hook₁ hsafe
  obtain ⟨st, h₃, -⟩ := merge_of_total (s := host.localState) (.inr (Option.some_ne_none vaultState))
  refine ⟨_, Lib.bind_eq_ok.2 ⟨hook₁, h₁, Lib.bind_eq_ok.2 ⟨hook₂, h₂, Lib.bind_eq_ok.2 ⟨st, h₃, rfl⟩⟩⟩, ?_⟩
  exact hsafe.imp hnone₂.2 id

theorem add_ne_crash (s : Option (State κ σ)) (state : State κ σ) :
    State.add s (some state) ≠ .error .crash := by
  intro h
  have htotal := (add_total s (some state)).2 (.inr (by simp))
  rw [h] at htotal
  cases htotal with
  | thrown he => exact he rfl

theorem caught_ne_none {α : Type} {a : α} {x : Except StreamError α} (h : x ≠ .error .crash) :
    caught a x ≠ none := by
  unfold caught
  split
  · simp
  · exact absurd rfl h
  · simp

theorem isSome_of_hookAdd {hook hook' : Hook κ σ} {update : Option (State κ σ)}
    (h : hook.add update = .ok hook') : hook'.state = none ↔ hook.state = none := by
  obtain ⟨st, hadd, h⟩ := Lib.bind_eq_ok.1 h
  obtain rfl := Except.ok.inj h
  exact isSome_of_add hadd

theorem client_hookSafe {host host' : Host κ σ} {blob : List UInt8} (h : HookSafe host)
    (hclient : client C S db now host blob = some host') : HookSafe host' := by
  unfold client at hclient
  split at hclient
  · obtain ⟨rfl, -⟩ := (caught_eq_some hclient).resolve_left (by simp)
    exact h
  · obtain rfl := Option.some.inj hclient
    exact h
  · split at hclient
    · obtain ⟨rfl, -⟩ := (caught_eq_some hclient).resolve_left (by simp)
      exact h
    · obtain ⟨hook, hhook, rfl⟩ := Option.map_eq_some_iff.1 hclient
      rcases caught_eq_some hhook with hadd | ⟨rfl, -⟩
      · exact h.imp (isSome_of_hookAdd hadd).2 id
      · exact h

theorem vault_hookSafe {host host' : Host κ σ} {blob : List UInt8} (h : HookSafe host)
    (hvault : vault C S db now host blob = some host') : HookSafe host' := by
  unfold vault at hvault
  split at hvault
  · obtain ⟨rfl, -⟩ := (caught_eq_some hvault).resolve_left (by simp)
    exact h
  · obtain rfl := Option.some.inj hvault
    exact h
  · rename_i vaultState _
    obtain ⟨host'', hmerge, hsafe⟩ := mergeVault_of_safe h vaultState
    rw [hmerge] at hvault
    obtain rfl := Option.some.inj hvault
    exact hsafe

theorem globalUpdate_hookSafe {host host' : Host κ σ} (h : HookSafe host)
    (hupdate : globalUpdate host = some host') : HookSafe host' := by
  unfold globalUpdate at hupdate
  split at hupdate
  · cases hupdate
  · obtain ⟨hook, hmerge, hnone⟩ := Hook.mergeGlobal_of_total host.ageSdlHook h
    rw [hmerge] at hupdate
    obtain rfl := Option.some.inj hupdate
    exact h.imp hnone.2 id

theorem changeGlobal_hookSafe {host host' : Host κ σ} {name variableName value : String}
    {time : UnifiedTime} (h : HookSafe host)
    (hchange : changeGlobal S X ageFilename host name variableName value time = some host') :
    HookSafe host' := by
  unfold changeGlobal at hchange
  split at hchange
  · split at hchange
    · obtain rfl := Option.some.inj hchange
      exact h
    · obtain ⟨result, -, rfl⟩ := Option.map_eq_some_iff.1 hchange
      exact .inr (Option.some_ne_none result.1)
  · obtain rfl := Option.some.inj hchange
    exact h

/-- **A host keeps a null global state apart from its hook.** -/
theorem step_hookSafe {host host' : Host κ σ} {e : Event κ σ} (h : HookSafe host)
    (hstep : step C S db X now ageFilename (some host) e = some (some host')) : HookSafe host' := by
  have hall : ∀ next : Option (Host κ σ), next.map some = some (some host') → next = some host' := by
    intro next hnext
    obtain ⟨host'', rfl, hhost''⟩ := Option.map_eq_some_iff.1 hnext
    exact hhost''
  cases e with
  | start => cases hstep
  | client blob => exact client_hookSafe h (hall _ hstep)
  | vault blob => exact vault_hookSafe h (hall _ hstep)
  | setGlobal name variableName value time => exact changeGlobal_hookSafe h (hall _ hstep)
  | globalUpdate => exact globalUpdate_hookSafe h (hall _ hstep)

theorem combines_of_hookSafe {host : Host κ σ} (h : HookSafe host) (e : Event κ σ) :
    Combines C S db now ageFilename (some host) e := by
  cases e with
  | start => trivial
  | setGlobal => trivial
  | client blob =>
    intro update hparse
    rw [client, hparse]
    dsimp only
    split
    · rename_i e hadd
      exact caught_ne_none fun he => add_ne_crash host.localState update (by rw [hadd, Except.error.inj he])
    · rw [Ne, Option.map_eq_none_iff]
      apply caught_ne_none
      intro hcrash
      cases hadd : State.add host.ageSdlHook.state (some update) with
      | ok st =>
        rw [Hook.add, hadd] at hcrash
        cases hcrash
      | error e =>
        rw [Hook.add, hadd] at hcrash
        obtain rfl := Except.error.inj hcrash
        exact add_ne_crash _ update hadd
  | vault blob =>
    intro vaultState hparse
    obtain ⟨host', hmerge, -⟩ := mergeVault_of_safe h vaultState
    rw [vault, hparse]
    dsimp only
    rw [hmerge]
    simp [caught]
  | globalUpdate =>
    intro hupdates
    obtain ⟨hook, hmerge, -⟩ := Hook.mergeGlobal_of_total host.ageSdlHook h
    rw [globalUpdate, if_neg hupdates, hmerge]
    simp [caught]

/-- In a run that starts safely, every host has a safe hook. -/
theorem reachable_hookSafe {host : Host κ σ}
    (h : (machine C S db X now ageFilename).ReachableWith (StartsSafely C S db now ageFilename)
      (some host)) : HookSafe host := by
  have hall : ∀ host' : Host κ σ, some host = some host' → HookSafe host' := by
    refine h.invariant (I := fun s => ∀ host' : Host κ σ, s = some host' → HookSafe host') ?_ ?_
    · rintro _ rfl host' hhost'
      exact nomatch hhost'
    · rintro s e s' hinv hok hstep host' rfl
      obtain _ | host₀ := s
      · cases e with
        | start localBlob global =>
          have hstart : start C S db now ageFilename localBlob global = .ok host' := by
            change (start C S db now ageFilename localBlob global).toOption.map some = some (some host')
              at hstep
            cases hs : start C S db now ageFilename localBlob global with
            | error e =>
              rw [hs] at hstep
              cases hstep
            | ok host'' =>
              rw [hs] at hstep
              exact congrArg Except.ok (Option.some.inj (Option.some.inj hstep))
          exact start_hookSafe hok hstart
        | _ => cases hstep
      · exact step_hookSafe (hinv host₀ rfl) hstep
  exact hall host rfl

end Handlers

/-- **When states are combined.**  A pair of states is, unless a state is combined with a null
one.  A host is started exactly if its age has a global state or its hook is null, and after
that none of its handlers meets such a pair.  A state of an age is null if the age has no
descriptor, no .age file, or a row without a state. -/
theorem combining_total (C : Creatables κ) (S : Children σ) (db : DescriptorDb) (X : Conversions)
    (now : List UInt8 → Clock) (ageFilename : String) :
    (∀ s state : Option (State κ σ),
      (Combined (fun _ => StateData.add) s state (State.add s state) ↔ s = none ∨ state ≠ none) ∧
      (Combined (fun _ => StateData.merge) s state (State.merge s state) ↔ s = none ∨ state ≠ none)) ∧
    (∀ localBlob (global : Option (State κ σ)) states,
      load C S db now ageFilename localBlob = .ok states →
      (Combines C S db now ageFilename none (.start localBlob global) ↔
        global ≠ none ∨ NoHook C S db now ageFilename localBlob)) ∧
    (∀ W (global : Option (State κ σ)), globalState C S db now ageFilename W = .ok global →
      (global = none ↔ NoGlobal C S db now ageFilename W)) ∧
    ∀ host, (machine C S db X now ageFilename).ReachableWith (StartsSafely C S db now ageFilename)
      host → ∀ e, StartsSafely C S db now ageFilename host e → Combines C S db now ageFilename host e := by
  refine ⟨fun s state => ⟨add_total s state, merge_total s state⟩, ?_, ?_, ?_⟩
  · intro localBlob global states hload
    rw [← start_iff hload]
    exact ⟨fun h => h states hload, fun h _ _ => h⟩
  · exact fun W global h => globalState_eq_none h
  · intro host hhost e hok
    obtain _ | host := host
    · cases e with
      | start localBlob global => exact fun states hload => (start_iff hload).2 hok
      | _ => trivial
    · exact combines_of_hookSafe (reachable_hookSafe hhost) e

/-- A test of `StartsSafely`. -/
def safeTest : Option (Host Empty (Child Empty 0)) → Event Empty (Child Empty 0) → Bool
  | none, .start _ global => global.isSome
  | _, _ => true

theorem safe_of_test (host : Option (Host Empty (Child Empty 0))) (e : Event Empty (Child Empty 0))
    (h : safeTest host e = true) :
    StartsSafely State.noCreatables (children State.noCreatables doorDb 0) doorDb (fun _ _ => {}) "Door"
      host e := by
  unfold safeTest at h
  split at h
  · exact .inl (Option.isSome_iff_ne_none.1 h)
  · unfold StartsSafely
    split
    · simp at *
    · trivial

theorem combining_total_door : ∃ host, intsAt host.ageSdlHook.state 0 = some [some 9] ∧
    ∀ e, Combines State.noCreatables (children State.noCreatables doorDb 0) doorDb (fun _ _ => {}) "Door"
      (some (host : Host Empty (Child Empty 0))) e := by
  have hints : doorInts [.start (doorBlob 2 5) (globalDoor 7), .setGlobal "Door" "n" "9" ⟨3, 0⟩,
      .globalUpdate] = some (some [some [some 5], some [some 9], some [some 9]]) := by decide +kernel
  obtain ⟨state, hrun, hstate⟩ := Option.map_eq_some_iff.1 hints
  obtain ⟨host, rfl, hhost⟩ := Option.map_eq_some_iff.1 hstate
  have hok : doorMachine.OkRun
      (StartsSafely State.noCreatables (children State.noCreatables doorDb 0) doorDb (fun _ _ => {}) "Door")
      none [.start (doorBlob 2 5) (globalDoor 7), .setGlobal "Door" "n" "9" ⟨3, 0⟩, .globalUpdate] :=
    Lib.Machine.okRun_of_allRun safe_of_test (by decide +kernel)
  obtain ⟨s', hrun', hreach⟩ := Lib.Machine.ReachableWith.run (.start rfl) hok
  obtain rfl := Option.some.inj (hrun'.symm.trans hrun)
  obtain ⟨-, h₂⟩ := List.cons.inj hhost
  obtain ⟨-, h₃⟩ := List.cons.inj h₂
  refine ⟨host, (List.cons.inj h₃).1, fun e => ?_⟩
  exact (combining_total State.noCreatables _ doorDb nine (fun _ _ => {}) "Door").2.2.2 _ hreach e trivial

/-- An installation without .age files. -/
def noAgeFiles : Installation where
  ageFile := fun _ => false
  row := fun _ => none

/-- Whether start-up ends in the use of a null state, once it has its states. -/
def crashes (localBlob : List UInt8) (global : Option Door) : Bool :=
  match load State.noCreatables (children State.noCreatables doorDb 0) doorDb (fun _ _ => {}) "Door" localBlob,
    start State.noCreatables (children State.noCreatables doorDb 0) doorDb (fun _ _ => {}) "Door" localBlob global with
  | .ok _, .error .crash => true
  | _, _ => false

/-- **An age with a descriptor and without an .age file.**  It has no global state, and its host
is started with a null one. -/
theorem age_without_file :
    globalState State.noCreatables (children State.noCreatables doorDb 0) doorDb (fun _ _ => {}) "Door"
      noAgeFiles = .ok none ∧
    ¬ Combines State.noCreatables (children State.noCreatables doorDb 0) doorDb (fun _ _ => {}) "Door"
      none (.start [] none) := by
  refine ⟨?_, fun h => ?_⟩
  · have hsome : (doorDb.findLatestDescriptor "Door").isSome = true := by decide
    obtain ⟨desc, hdesc⟩ := Option.isSome_iff_exists.1 hsome
    rw [globalState, hdesc]
    rfl
  · have hcrash : crashes [] none = true := by decide
    unfold crashes at hcrash
    split at hcrash
    · rename_i states hload hstart
      exact h states hload hstart
    · cases hcrash

end Dirtsand.AgeSdl
