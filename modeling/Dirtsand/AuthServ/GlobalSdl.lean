import Dirtsand.Config
import Dirtsand.GameServ.AgeSdl
import Dirtsand.SDL.SharedStates

/-!
# Changes of a global state

`dm_auth_update_globalSDL` (AuthServ/AuthDaemon.cpp) on the objects that the daemon
shares with the game hosts, with what `State::toBlob` (SDL/StateInfo.cpp) leaves in
their flags.  Nested states are values here.

* `childLeaves_eq_iff` — what `toBlob` writes without a change.
* `valid_handled` — what no request undoes.
* `updateGlobal_iff` — which requests change nothing but the variable they name.
-/

namespace Dirtsand.GlobalSdl

open SDL
open AgeSdl (ofText setText named nine)
open Lib (Heap)

/-! ## What `toBlob` leaves -/

section Leaving

variable {κ σ : Type} (S : Children σ) (leaves : σ → σ)

/-- The nested states that `Variable::write` writes are the dirty ones. -/
def leftElems : (t : VarType) → List (t.Elem κ σ) → List (t.Elem κ σ)
  | .stateDesc, children => children.map fun c => if S.isDirty c = true then leaves c else c
  | _, elems => elems

/-- What `Variable::write` leaves. -/
def left {v : VarDescriptor} (var : Variable κ σ v) : Variable κ σ v :=
  { var.written S with elems := leftElems S leaves v.type var.elems }

/-- The variables that `State::write` writes.  The loop over the others stops at the number of
the dirty ones. -/
def writtenVars (d : StateDescriptor) (dirty : Fin d.vars.length → Bool) : List (Fin d.vars.length) :=
  d.simpleVars.filter dirty ++ (d.sdVars.take (d.sdVars.countP dirty)).filter dirty

def leftData {d : StateDescriptor} (s : StateData κ σ d) : StateData κ σ d :=
  { s with vars := fun i =>
      if i ∈ writtenVars d (fun i => (s.vars i).dirty) then left S leaves (s.vars i) else s.vars i }

/-- The nested states of a variable. -/
def nestedOf : (t : VarType) → List (t.Elem κ σ) → List σ
  | .stateDesc, children => children
  | _, _ => []

/-- A variable that is written without a change: it has the flag if it is at its default, and
so have those in its nested states. -/
def Settled (nested : σ → Prop) {v : VarDescriptor} (var : Variable κ σ v) : Prop :=
  (var.isDefault S = true → var.flags &&& sameAsDefault ≠ 0) ∧
    ∀ c ∈ nestedOf v.type var.elems, S.isDirty c = true → nested c

end Leaving

section Children

variable {κ : Type} (C : Creatables κ) (db : DescriptorDb)

/-- What `State::write` leaves of a nested state. -/
def childLeaves : (n : Nat) → Child κ n → Child κ n
  | 0, c => c
  | _ + 1, none => none
  | n + 1, some s => some { s with data := leftData (children C db n) (childLeaves n) s.data }

/-- A nested state that is written without a change. -/
def childSettled : (n : Nat) → Child κ n → Prop
  | 0, _ => True
  | _ + 1, none => True
  | n + 1, some s => ∀ i ∈ writtenVars s.desc.desc (fun i => (s.data.vars i).dirty),
      Settled (children C db n) (childSettled n) (s.data.vars i)

end Children

section Leaving

variable {κ σ : Type} {S : Children σ} {leaves : σ → σ} {nested : σ → Prop}

theorem map_eq_self_iff {α : Type} {f : α → α} {l : List α} : l.map f = l ↔ ∀ a ∈ l, f a = a := by
  induction l with
  | nil => simp
  | cons a l ih => simp [ih]

theorem or_sameAsDefault_eq (b : UInt8) : b ||| sameAsDefault = b ↔ b &&& sameAsDefault ≠ 0 := by
  revert b
  refine Streams.forall_byte ?_
  decide +kernel

theorem written_flags_eq {v : VarDescriptor} (var : Variable κ σ v) :
    (var.written S).flags = var.flags ↔ (var.isDefault S = true → var.flags &&& sameAsDefault ≠ 0) := by
  rw [Variable.written]
  dsimp only
  split
  · rename_i hdefault
    rw [or_sameAsDefault_eq]
    simp [hdefault]
  · rename_i hdefault
    simp [hdefault]

theorem leftElems_eq_iff (h : ∀ c, leaves c = c ↔ nested c) :
    (t : VarType) → (elems : List (t.Elem κ σ)) →
      (leftElems S leaves t elems = elems ↔ ∀ c ∈ nestedOf t elems, S.isDirty c = true → nested c)
  | .stateDesc, children => by
    show children.map _ = children ↔ _
    rw [map_eq_self_iff]
    refine forall₂_congr fun c _ => ?_
    by_cases hdirty : S.isDirty c = true
    · simp [hdirty, h]
    · simp [hdirty]
  | .int, _ | .float, _ | .bool, _ | .string, _ | .key, _ | .creatable, _ | .double, _ | .time, _
  | .byte, _ | .short, _ | .ageTimeOfDay, _ | .vector3, _ | .point3, _ | .rgb, _ | .rgba, _
  | .quaternion, _ | .rgb8, _ | .rgba8, _ | .invalid, _ =>
    iff_of_true rfl fun _ hc => absurd hc List.not_mem_nil

theorem left_eq_iff (h : ∀ c, leaves c = c ↔ nested c) {v : VarDescriptor} (var : Variable κ σ v) :
    left S leaves var = var ↔ Settled S nested var := by
  obtain ⟨elems, timestamp, hint, flags, dirty⟩ := var
  rw [Settled, ← written_flags_eq, ← leftElems_eq_iff h]
  simp only [left, Variable.written, Variable.mk.injEq, true_and, and_true]
  exact and_comm

theorem leftData_eq_iff (h : ∀ c, leaves c = c ↔ nested c) {d : StateDescriptor}
    (s : StateData κ σ d) : leftData S leaves s = s ↔
      ∀ i ∈ writtenVars d (fun i => (s.vars i).dirty), Settled S nested (s.vars i) := by
  obtain ⟨vars, object, flags⟩ := s
  simp only [leftData, StateData.mk.injEq, and_true, funext_iff]
  refine forall_congr' fun i => ?_
  split
  · rename_i hi
    simp [hi, left_eq_iff h]
  · rename_i hi
    simp [hi]

theorem childLeaves_eq_iff {κ : Type} (C : Creatables κ) (db : DescriptorDb) :
    (n : Nat) → (c : Child κ n) → (childLeaves C db n c = c ↔ childSettled C db n c)
  | 0, c => nomatch c
  | _ + 1, none => iff_of_true rfl trivial
  | n + 1, some s => by
    have hdata := leftData_eq_iff (S := children C db n) (childLeaves_eq_iff C db n) s.data
    rw [childSettled, ← hdata]
    obtain ⟨desc, data⟩ := s
    show some (State.mk desc _) = some (State.mk desc data) ↔ _
    simp

end Leaving

/-! ## The daemon -/

/-- What a game host has of its age: handles, and the messages in its channel that the global
state has changed. -/
structure Host where
  ageFilename : String
  localState : Option Nat
  globalState : Option Nat
  ageSdlHook : Option Nat
  updates : Nat := 0

/-- The objects, `s_globalStates`, the rows of `vault."GlobalStates"` and the game hosts. -/
structure World (κ σ : Type) where
  heap : Heap (Obj κ σ)
  globalStates : List (String × Option Nat)
  rows : String → Option (List UInt8)
  hosts : List Host

/-- An `Auth_UpdateGlobalSDL`, with the time that it is handled at and whether the database
takes the UPDATE. -/
structure Request where
  ageFilename : String
  variableName : String
  value : String
  now : UnifiedTime
  updated : Bool

variable {κ σ : Type}

namespace World

/-- `s_globalStates.find`, which does not look at the case. -/
def find (w : World κ σ) (ageFilename : String) : Option (Option Nat) :=
  (w.globalStates.find? fun entry =>
    DescriptorDb.bucket entry.1 = DescriptorDb.bucket ageFilename).map Prod.snd

/-- The UPDATE. -/
def store (w : World κ σ) (name : String) (blob : List UInt8) : String → Option (List UInt8) :=
  fun name' => if name' = name then (w.rows name').map fun _ => blob else w.rows name'

/-- `GameServer_UpdateGlobalSDL`. -/
def tell (w : World κ σ) (age : String) : List Host :=
  w.hosts.map fun host =>
    if host.ageFilename = age then { host with updates := host.updates + 1 } else host

end World

/-- The loop over `m_simpleVars`: the first variable of this name. -/
def findVar (h : Heap (Obj κ σ)) (name : String) : List Nat → Except StreamError (Option Nat)
  | [] => .ok none
  | a :: l => do
    let var ← Shared.getVariable h a
    if var.desc.name = name then .ok (some a) else findVar h name l

def setVariable (h : Heap (Obj κ σ)) (a : Nat) (var : VariableRef κ σ) :
    Except StreamError (Heap (Obj κ σ)) :=
  match h.modify a fun _ => .variable var with
  | some h => .ok h
  | none => .error .crash

/-- The values that a state has, which `toBlob` writes. -/
def readState (h : Heap (Obj κ σ)) (p : Nat) : Except StreamError (State κ σ) := do
  let s ← Shared.getState h p
  let vars ← Lib.pointwise fun i => do
    let var ← Shared.getVariable h (s.vars i)
    if hdesc : var.desc = s.desc.desc.vars.get i then Except.ok (hdesc ▸ var.content)
    else .error .crash
  .ok { desc := s.desc, data := { vars, object := s.object, flags := s.flags } }

/-- `e_XIsDirty`. -/
def dirtyAt (h : Heap (Obj κ σ)) (a : Nat) : Bool :=
  match h.get a with
  | some (.variable var) => var.content.dirty
  | _ => false

def writtenAt (h : Heap (Obj κ σ)) (s : StateRef) : List Nat :=
  (writtenVars s.desc.desc fun i => dirtyAt h (s.vars i)).map s.vars

section Handler

variable (C : Creatables κ) (S : Children σ) (leaves : σ → σ) (X : AgeSdl.Conversions)

def leaveObj : Obj κ σ → Obj κ σ
  | .variable var => .variable ⟨var.desc, left S leaves var.content⟩
  | o => o

/-- What `toBlob` leaves of the objects. -/
def leaveAll (l : List Nat) (h : Heap (Obj κ σ)) : Heap (Obj κ σ) :=
  h.mapIdx fun a o => if a ∈ l then o.map fun c => { c with item := leaveObj S leaves c.item } else o

/-- What `dm_auth_update_globalSDL` does in place, and whether it knows the type. -/
def change (h : Heap (Obj κ σ)) (a : Nat) (now : UnifiedTime) (value : String) :
    Except StreamError (Heap (Obj κ σ) × Bool) := do
  let var ← Shared.getVariable h a
  let (content, known) ← setText X S now value var.content
  let h ← setVariable h a ⟨var.desc, content⟩
  .ok (h, known)

/-- The end of `dm_auth_update_globalSDL`, once the variable is changed. -/
def saveGlobal (w : World κ σ) (msg : Request) (p : Nat) (s : StateRef) (heap : Heap (Obj κ σ)) :
    Except StreamError (World κ σ × NetResultCode) := do
  let state ← readState heap p
  -- A failure of the UPDATE does not block continuing.
  let rows := if msg.updated then w.store msg.ageFilename (State.toBlob C S (some state)) else w.rows
  .ok ({ w with
    heap := leaveAll S leaves (writtenAt heap s) heap
    rows
    hosts := w.tell msg.ageFilename }, .success)

/-- `dm_auth_update_globalSDL` after its loop, with the variable that this has found. -/
def updateFound (w : World κ σ) (msg : Request) (p : Nat) (s : StateRef) :
    Option Nat → Except StreamError (World κ σ × NetResultCode)
  | none => .ok (w, .invalidParameter)
  | some a => do
    let (heap, known) ← change S X w.heap a msg.now msg.value
    if known = false then .ok ({ w with heap }, .notSupported) else saveGlobal C S leaves w msg p s heap

/-- `dm_auth_update_globalSDL`, with its answer. -/
def dmAuthUpdateGlobalSDL (w : World κ σ) (msg : Request) :
    Except StreamError (World κ σ × NetResultCode) :=
  match w.find msg.ageFilename with
  | none => .ok (w, .stateObjectNotFound)
  | some none => .error .crash
  | some (some p) => do
    let s ← Shared.getState w.heap p
    let found ← findVar w.heap msg.variableName (s.desc.desc.simpleVars.map s.vars)
    updateFound C S leaves X w msg p s found

/-- `DS::AuthServer_ChangeGlobalSDL`. -/
def changeGlobalSDL (w : World κ σ) (msg : Request) : Except StreamError (World κ σ × Bool) := do
  let (w, result) ← dmAuthUpdateGlobalSDL C S leaves X w msg
  .ok (w, result = .success)

/-! ## The property -/

/-- The elements that a text gives a variable: the default for none, and else it is the first
element. -/
def newElems {v : VarDescriptor} (value : String) (var : Variable κ σ v) :
    Option (List (v.type.Elem κ σ)) :=
  if value = "" then some (var.setDefault S).elems
  else
    match ofText X v.type value, var.elems with
    | some e, _ :: es => some (e :: es)
    | _, _ => none

/-- The states of a host. -/
def Host.states (host : Host) : String × Option Nat × Option Nat × Option Nat :=
  (host.ageFilename, host.localState, host.globalState, host.ageSdlHook)

/-- Exactly one variable has changed: the first simple one of the name, in value, timestamp and
flags. -/
structure OnlyVariable (w w' : World κ σ) (msg : Request) (s : StateRef)
    (i : Fin s.desc.desc.vars.length) (v : VarDescriptor) (var var' : Variable κ σ v) (refs : Nat) :
    Prop where
  named : named s.desc.desc msg.variableName = some i
  before : w.heap.cell (s.vars i) = some ⟨.variable ⟨v, var⟩, refs⟩
  after : w'.heap.cell (s.vars i) = some ⟨.variable ⟨v, var'⟩, refs⟩
  elems : newElems S X msg.value var = some var'.elems
  timestamp : var'.timestamp = msg.now
  hint : var'.notificationHint = var.notificationHint
  others : ∀ b, b ≠ s.vars i → w'.heap.cell b = w.heap.cell b
  globalStates : w'.globalStates = w.globalStates
  rows : ∀ name, name ≠ msg.ageFilename → w'.rows name = w.rows name
  hosts : w'.hosts.map Host.states = w.hosts.map Host.states

/-- **A request changes the variable that it names, or nothing.** -/
def Exact (w : World κ σ) (msg : Request) : Except StreamError (World κ σ × NetResultCode) → Prop
  | .ok (w', .success) => ∃ p s, w.find msg.ageFilename = some (some p) ∧
      w.heap.get p = some (.state s) ∧ ∃ i v var var' refs, OnlyVariable S X w w' msg s i v var var' refs
  | .ok (w', _) => w' = w
  | .error _ => False

end Handler

/-! ## The condition -/

/-- The types that `dm_auth_update_globalSDL` can set from a text. -/
def takesText : VarType → Bool
  | .bool | .byte | .int | .short | .string => true
  | _ => false

/-- A value that the variable takes: none, or one for the first of its elements. -/
def Takes {v : VarDescriptor} (value : String) (var : Variable κ σ v) : Prop :=
  value = "" ∨ (takesText v.type = true ∧ var.elems ≠ [])

/-- A refused variable on which nothing is left to set. -/
def Unmoved {v : VarDescriptor} (msg : Request) (var : Variable κ σ v) : Prop :=
  msg.value ≠ "" ∧ takesText v.type = false ∧ var.timestamp = msg.now ∧ var.dirty = true ∧
    (var.flags ||| hasTimeStamp) &&& ~~~sameAsDefault = var.flags

/-- When a request meets it: the age has no entry, or a state that is not null; and if that has
the variable, then it takes the value, and what else `toBlob` writes has its flags. -/
def Meets (S : Children σ) (nested : σ → Prop) (w : World κ σ) (msg : Request) : Prop :=
  match w.find msg.ageFilename with
  | none => True
  | some none => False
  | some (some p) => ∀ s i var, w.heap.get p = some (.state s) →
      named s.desc.desc msg.variableName = some i → w.heap.get (s.vars i) = some (.variable var) →
      Unmoved msg var.content ∨ (Takes msg.value var.content ∧
        ∀ b ∈ writtenAt w.heap s, b ≠ s.vars i → ∀ var', w.heap.get b = some (.variable var') →
          Settled S nested var'.content)

/-- The states of `s_globalStates` have their variables. -/
def Valid (w : World κ σ) : Prop :=
  ∀ entry ∈ w.globalStates, ∀ p, entry.2 = some p → ∃ s, Shows w.heap p s

/-! ## Objects -/

section Objects

variable {h : Heap (Obj κ σ)} {s : StateRef}

/-- The handles of a state are of its variables. -/
def Typed (h : Heap (Obj κ σ)) (s : StateRef) : Prop :=
  ∀ j, ∃ content, h.get (s.vars j) = some (.variable ⟨s.desc.desc.vars.get j, content⟩)

theorem typed_of_shows {p : Nat} {state : State κ σ} (hshows : Shows h p state)
    (hget : h.get p = some (.state s)) : Typed h s := by
  obtain ⟨vars, hstate, hvars⟩ := hshows
  rw [hget] at hstate
  obtain rfl := Obj.state.inj (Option.some.inj hstate)
  exact fun j => ⟨_, hvars j⟩

theorem getVariable_eq {a : Nat} {var : VariableRef κ σ} (hget : h.get a = some (.variable var)) :
    Shared.getVariable h a = .ok var := by
  rw [Shared.getVariable, hget]

theorem findVar_eq (ht : Typed h s) (name : String) (l : List (Fin s.desc.desc.vars.length)) :
    findVar h name (l.map s.vars) =
      .ok ((l.find? fun i => (s.desc.desc.vars.get i).name = name).map s.vars) := by
  induction l with
  | nil => rfl
  | cons i l ih =>
    obtain ⟨content, hget⟩ := ht i
    rw [List.map_cons, findVar, getVariable_eq hget]
    show (if (s.desc.desc.vars.get i).name = name then _ else _) = _
    by_cases hname : (s.desc.desc.vars.get i).name = name
    · rw [if_pos hname, List.find?_cons_of_pos (by simpa using hname)]
      rfl
    · rw [if_neg hname, List.find?_cons_of_neg (by simpa using hname)]
      exact ih

theorem readState_of_typed {p : Nat} (ht : Typed h s) (hget : h.get p = some (.state s)) :
    ∃ state, readState h p = .ok state := by
  choose content hcontent using ht
  refine ⟨⟨s.desc, { vars := content, object := s.object, flags := s.flags }⟩, ?_⟩
  refine Lib.bind_eq_ok.2 ⟨s, by rw [Shared.getState, hget], Lib.bind_eq_ok.2 ⟨content, ?_, rfl⟩⟩
  refine Lib.pointwise_eq_ok.2 fun i => ?_
  exact Lib.bind_eq_ok.2 ⟨_, getVariable_eq (hcontent i), dif_pos rfl⟩

theorem mem_writtenAt {b : Nat} : b ∈ writtenAt h s ↔
    ∃ j ∈ writtenVars s.desc.desc (fun i => dirtyAt h (s.vars i)), s.vars j = b :=
  List.mem_map

theorem writtenVars_congr {d : StateDescriptor} {f g : Fin d.vars.length → Bool}
    (hsd : ∀ j ∈ d.sdVars, f j = g j) {j : Fin d.vars.length} (hj : f j = g j) :
    j ∈ writtenVars d f ↔ j ∈ writtenVars d g := by
  have hcount : d.sdVars.countP f = d.sdVars.countP g := by
    refine List.countP_congr fun i hi => ?_
    rw [hsd i hi]
  simp only [writtenVars, List.mem_append, List.mem_filter, hcount, hj]

theorem cell_leaveAll (S : Children σ) (leaves : σ → σ) (l : List Nat) (h : Heap (Obj κ σ)) (b : Nat) :
    (leaveAll S leaves l h).cell b =
      if b ∈ l then (h.cell b).map fun c => { c with item := leaveObj S leaves c.item } else h.cell b := by
  rw [Lib.Heap.cell, leaveAll, List.getElem?_mapIdx, Lib.Heap.cell]
  cases h[b]? with
  | none => simp
  | some o =>
    by_cases hb : b ∈ l
    · simp [hb]
    · simp [hb]

theorem leftElems_eq_of_ne {S : Children σ} {leaves : σ → σ} :
    {t : VarType} → t ≠ .stateDesc → (elems : List (t.Elem κ σ)) → leftElems S leaves t elems = elems
  | .stateDesc, h, _ => absurd rfl h
  | .int, _, _ | .float, _, _ | .bool, _, _ | .string, _, _ | .key, _, _ | .creatable, _, _
  | .double, _, _ | .time, _, _ | .byte, _, _ | .short, _, _ | .ageTimeOfDay, _, _
  | .vector3, _, _ | .point3, _, _ | .rgb, _, _ | .rgba, _, _ | .quaternion, _, _
  | .rgb8, _, _ | .rgba8, _, _ | .invalid, _, _ => rfl

end Objects

/-! ## What a text does -/

section Texts

variable {X : AgeSdl.Conversions} {S : Children σ} {v : VarDescriptor} {var : Variable κ σ v} {now : UnifiedTime}
  {value : String}

/-- A variable that a text is written to. -/
def opened (now : UnifiedTime) (var : Variable κ σ v) : Variable κ σ v :=
  { var with
    flags := (var.flags ||| hasTimeStamp) &&& ~~~sameAsDefault
    dirty := true
    timestamp := now }

theorem ofText_isSome (X : AgeSdl.Conversions) (t : VarType) (value : String) :
    (ofText (κ := κ) (σ := σ) X t value).isSome = takesText t := by
  cases t with
  | _ => rfl

theorem setText_empty : setText X S now "" var = .ok (Variable.setDefault S
    { var with flags := var.flags ||| hasTimeStamp, dirty := true, timestamp := now }, true) := by
  rw [setText, if_pos rfl]

theorem setText_refused (hvalue : value ≠ "") (htext : takesText v.type = false) :
    setText X S now value var = .ok (opened now var, false) := by
  have hnone : ofText (κ := κ) (σ := σ) X v.type value = none := by
    rw [← Option.not_isSome_iff_eq_none, ofText_isSome, htext]
    exact Bool.false_ne_true
  rw [setText, if_neg hvalue, hnone]
  rfl

theorem setText_beyond (hvalue : value ≠ "") (htext : takesText v.type = true) (helems : var.elems = []) :
    setText X S now value var = .error .crash := by
  have hsome : (ofText (κ := κ) (σ := σ) X v.type value).isSome = true := (ofText_isSome X _ _).trans htext
  obtain ⟨e, he⟩ := Option.isSome_iff_exists.1 hsome
  rw [setText, if_neg hvalue, he]
  dsimp only
  rw [helems]

variable (X S now) in
theorem setText_taken (hvalue : value ≠ "") (htext : takesText v.type = true) {e₀ : v.type.Elem κ σ}
    {es : List (v.type.Elem κ σ)} (helems : var.elems = e₀ :: es) :
    ∃ e, ofText X v.type value = some e ∧
      setText X S now value var = .ok ({ opened now var with elems := e :: es }, true) := by
  have hsome : (ofText (κ := κ) (σ := σ) X v.type value).isSome = true := (ofText_isSome X _ _).trans htext
  obtain ⟨e, he⟩ := Option.isSome_iff_exists.1 hsome
  refine ⟨e, he, ?_⟩
  rw [setText, if_neg hvalue, he]
  dsimp only
  rw [helems]
  rfl

variable (X S now) in
/-- What a text that is taken leaves of the variable. -/
theorem setText_of_takes (htakes : Takes value var) : ∃ content,
    setText X S now value var = .ok (content, true) ∧ newElems S X value var = some content.elems ∧
      content.timestamp = now ∧ content.notificationHint = var.notificationHint := by
  by_cases hvalue : value = ""
  · subst hvalue
    exact ⟨_, setText_empty, if_pos rfl, rfl, rfl⟩
  · obtain ⟨htext, hne⟩ := htakes.resolve_left hvalue
    obtain ⟨e₀, es, helems⟩ := List.exists_cons_of_ne_nil hne
    obtain ⟨e, he, hset⟩ := setText_taken X S now hvalue htext helems
    refine ⟨_, hset, ?_, rfl, rfl⟩
    rw [newElems, if_neg hvalue, he, helems]

end Texts

/-! ## Requests -/

section Requests

variable {C : Creatables κ} {S : Children σ} {leaves : σ → σ} {nested : σ → Prop} {X : AgeSdl.Conversions}
  {w : World κ σ} {msg : Request} {p : Nat} {s : StateRef}

theorem find_mem {ageFilename : String} (hfind : w.find ageFilename = some (some p)) :
    ∃ entry ∈ w.globalStates, entry.2 = some p := by
  obtain ⟨entry, hentry, hsnd⟩ := Option.map_eq_some_iff.1 hfind
  exact ⟨entry, List.mem_of_find?_eq_some hentry, hsnd⟩

/-- A change of a variable, with what the text does to it. -/
theorem change_eq {h : Heap (Obj κ σ)} {a n : Nat} {v : VarDescriptor} {var : Variable κ σ v}
    {now : UnifiedTime} {value : String} (hc : h.cell a = some ⟨.variable ⟨v, var⟩, n⟩) :
    change S X h a now value = (setText X S now value var).map fun result =>
      (h.set a (some ⟨.variable ⟨v, result.1⟩, n⟩), result.2) := by
  have hget : h.get a = some (.variable ⟨v, var⟩) := Lib.Heap.get_eq_some.2 ⟨n, hc⟩
  rw [change, getVariable_eq hget]
  show (setText X S now value var).bind _ = _
  cases setText X S now value var with
  | error e => rfl
  | ok result =>
    show (setVariable h a ⟨v, result.1⟩).bind _ = _
    rw [setVariable, Lib.Heap.modify, hc]
    rfl

/-- The handler, once the state is found. -/
theorem update_of_get (hfind : w.find msg.ageFilename = some (some p))
    (hget : w.heap.get p = some (.state s)) (ht : Typed w.heap s) {found : Option (Fin s.desc.desc.vars.length)}
    (hnamed : named s.desc.desc msg.variableName = found) {result : Except StreamError (World κ σ × NetResultCode)}
    (hresult : updateFound C S leaves X w msg p s (found.map s.vars) = result) :
    dmAuthUpdateGlobalSDL C S leaves X w msg = result := by
  have hstate : Shared.getState w.heap p = .ok s := by rw [Shared.getState, hget]
  rw [dmAuthUpdateGlobalSDL, hfind]
  dsimp only
  rw [hstate]
  show (findVar w.heap msg.variableName (s.desc.desc.simpleVars.map s.vars)).bind _ = _
  rw [findVar_eq ht]
  unfold named at hnamed
  rw [hnamed]
  exact hresult

theorem update_missing (hfind : w.find msg.ageFilename = some (some p))
    (hget : w.heap.get p = some (.state s)) (ht : Typed w.heap s)
    (hnamed : named s.desc.desc msg.variableName = none) :
    dmAuthUpdateGlobalSDL C S leaves X w msg = .ok (w, .invalidParameter) :=
  update_of_get hfind hget ht hnamed rfl

section Found

variable {i : Fin s.desc.desc.vars.length} {v : VarDescriptor} {var content : Variable κ σ v} {n : Nat}

/-- The objects, once the variable is set. -/
def withVar (w : World κ σ) (s : StateRef) (i : Fin s.desc.desc.vars.length) (content : Variable κ σ v)
    (n : Nat) : Heap (Obj κ σ) :=
  w.heap.set (s.vars i) (some ⟨.variable ⟨v, content⟩, n⟩)

theorem cell_withVar (hc : w.heap.cell (s.vars i) = some ⟨.variable ⟨v, var⟩, n⟩) (b : Nat) :
    (withVar w s i content n).cell b =
      if b = s.vars i then some ⟨.variable ⟨v, content⟩, n⟩ else w.heap.cell b :=
  Lib.Heap.cell_set hc _ b

theorem get_withVar (hc : w.heap.cell (s.vars i) = some ⟨.variable ⟨v, var⟩, n⟩) {b : Nat}
    (hb : b ≠ s.vars i) : (withVar w s i content n).get b = w.heap.get b := by
  rw [Lib.Heap.get, cell_withVar hc, if_neg hb]
  rfl

/-- The variables of all states have their descriptors from them. -/
theorem desc_of_typed {s' : StateRef} (ht : Typed w.heap s')
    (hc : w.heap.cell (s.vars i) = some ⟨.variable ⟨v, var⟩, n⟩) {j : Fin s'.desc.desc.vars.length}
    (hj : s'.vars j = s.vars i) : v = s'.desc.desc.vars.get j := by
  obtain ⟨c, hget⟩ := ht j
  rw [hj, Lib.Heap.get_eq_some.2 ⟨n, hc⟩] at hget
  have hvar := Obj.variable.inj (Option.some.inj hget)
  exact congrArg VariableRef.desc hvar

theorem typed_withVar {s' : StateRef} (ht : Typed w.heap s')
    (hc : w.heap.cell (s.vars i) = some ⟨.variable ⟨v, var⟩, n⟩) :
    Typed (withVar w s i content n) s' := by
  intro j
  by_cases hj : s'.vars j = s.vars i
  · obtain rfl := desc_of_typed ht hc hj
    refine ⟨content, ?_⟩
    rw [Lib.Heap.get, cell_withVar hc, if_pos hj]
    rfl
  · rw [get_withVar hc hj]
    exact ht j

theorem state_withVar {s' : StateRef} (hget : w.heap.get p = some (.state s'))
    (hc : w.heap.cell (s.vars i) = some ⟨.variable ⟨v, var⟩, n⟩) :
    (withVar w s i content n).get p = some (.state s') := by
  have hne : p ≠ s.vars i := by
    intro hp
    rw [hp, Lib.Heap.get_eq_some.2 ⟨n, hc⟩] at hget
    cases hget
  rw [get_withVar hc hne, hget]

/-- Beside the variable that is set, the same variables are written as before. -/
theorem writtenAt_withVar (ht : Typed w.heap s)
    (hc : w.heap.cell (s.vars i) = some ⟨.variable ⟨v, var⟩, n⟩) (hsimple : i ∈ s.desc.desc.simpleVars)
    {b : Nat} (hb : b ≠ s.vars i) : b ∈ writtenAt (withVar w s i content n) s ↔ b ∈ writtenAt w.heap s := by
  have hdirty : ∀ j, s.vars j ≠ s.vars i →
      dirtyAt (withVar w s i content n) (s.vars j) = dirtyAt w.heap (s.vars j) := by
    intro j hj
    rw [dirtyAt, dirtyAt, get_withVar hc hj]
  have hsd : ∀ j ∈ s.desc.desc.sdVars, s.vars j ≠ s.vars i := by
    intro j hj heq
    have hdesc : s.desc.desc.vars.get i = s.desc.desc.vars.get j :=
      (desc_of_typed ht hc rfl).symm.trans (desc_of_typed ht hc heq)
    have htype : (s.desc.desc.vars.get i).type ≠ .stateDesc := by
      simpa using (List.mem_filter.1 hsimple).2
    rw [hdesc] at htype
    exact htype (by simpa using (List.mem_filter.1 hj).2)
  rw [mem_writtenAt, mem_writtenAt]
  refine exists_congr fun j => and_congr_left fun hj => ?_
  refine writtenVars_congr (fun j' hj' => hdirty j' (hsd j' hj')) (hdirty j ?_)
  rw [hj]
  exact hb

theorem found_error {e : StreamError} (hc : w.heap.cell (s.vars i) = some ⟨.variable ⟨v, var⟩, n⟩)
    (hset : setText X S msg.now msg.value var = .error e) :
    updateFound C S leaves X w msg p s (some (s.vars i)) = .error e := by
  rw [updateFound, change_eq hc, hset]
  rfl

theorem found_refused (hc : w.heap.cell (s.vars i) = some ⟨.variable ⟨v, var⟩, n⟩)
    (hset : setText X S msg.now msg.value var = .ok (content, false)) :
    updateFound C S leaves X w msg p s (some (s.vars i)) =
      .ok ({ w with heap := withVar w s i content n }, .notSupported) := by
  rw [updateFound, change_eq hc, hset]
  rfl

variable (C leaves) in
theorem found_taken (hget : w.heap.get p = some (.state s)) (ht : Typed w.heap s)
    (hc : w.heap.cell (s.vars i) = some ⟨.variable ⟨v, var⟩, n⟩)
    (hset : setText X S msg.now msg.value var = .ok (content, true)) :
    ∃ blob, updateFound C S leaves X w msg p s (some (s.vars i)) = .ok ({ w with
      heap := leaveAll S leaves (writtenAt (withVar w s i content n) s) (withVar w s i content n)
      rows := if msg.updated then w.store msg.ageFilename blob else w.rows
      hosts := w.tell msg.ageFilename }, .success) := by
  have htyped : Typed (withVar w s i content n) s := typed_withVar ht hc
  obtain ⟨state, hread⟩ := readState_of_typed htyped (state_withVar hget hc)
  refine ⟨State.toBlob C S (some state), ?_⟩
  rw [updateFound, change_eq hc, hset]
  show saveGlobal C S leaves w msg p s (withVar w s i content n) = _
  rw [saveGlobal, hread]
  rfl

/-- What `toBlob` leaves of the variable. -/
def saved (S : Children σ) (leaves : σ → σ) (w : World κ σ) (s : StateRef)
    (i : Fin s.desc.desc.vars.length) (content : Variable κ σ v) (n : Nat) : Variable κ σ v :=
  if s.vars i ∈ writtenAt (withVar w s i content n) s then left S leaves content else content

theorem saved_elems (hsimple : v.type ≠ .stateDesc) :
    (saved S leaves w s i content n).elems = content.elems := by
  unfold saved
  split
  · exact leftElems_eq_of_ne hsimple content.elems
  · rfl

theorem saved_timestamp : (saved S leaves w s i content n).timestamp = content.timestamp := by
  unfold saved
  split <;> rfl

theorem saved_hint : (saved S leaves w s i content n).notificationHint = content.notificationHint := by
  unfold saved
  split <;> rfl

theorem leaveAll_here (hc : w.heap.cell (s.vars i) = some ⟨.variable ⟨v, var⟩, n⟩) :
    (leaveAll S leaves (writtenAt (withVar w s i content n) s) (withVar w s i content n)).cell (s.vars i) =
      some ⟨.variable ⟨v, saved S leaves w s i content n⟩, n⟩ := by
  rw [cell_leaveAll, cell_withVar hc, if_pos rfl, saved]
  split <;> rfl

variable (content) in
/-- The other objects are as before when those that are written have their flags. -/
theorem leaveAll_others (hnested : ∀ c, leaves c = c ↔ nested c) (ht : Typed w.heap s)
    (hc : w.heap.cell (s.vars i) = some ⟨.variable ⟨v, var⟩, n⟩) (hsimple : i ∈ s.desc.desc.simpleVars) :
    (∀ b, b ≠ s.vars i → (leaveAll S leaves (writtenAt (withVar w s i content n) s)
        (withVar w s i content n)).cell b = w.heap.cell b) ↔
      ∀ b ∈ writtenAt w.heap s, b ≠ s.vars i → ∀ var', w.heap.get b = some (.variable var') →
        Settled S nested var'.content := by
  refine forall_congr' fun b => ?_
  by_cases hb : b = s.vars i
  · simp [hb]
  by_cases hmem : b ∈ writtenAt w.heap s
  · obtain ⟨j, -, hj⟩ := mem_writtenAt.1 hmem
    obtain ⟨x, hx⟩ := ht j
    rw [hj] at hx
    obtain ⟨m, hcell⟩ := Lib.Heap.get_eq_some.1 hx
    rw [cell_leaveAll, if_pos ((writtenAt_withVar ht hc hsimple hb).2 hmem), cell_withVar hc, if_neg hb,
      hcell, hx]
    simp [hb, hmem, leaveObj, left_eq_iff hnested]
  · rw [cell_leaveAll, if_neg (mt (writtenAt_withVar ht hc hsimple hb).1 hmem), cell_withVar hc, if_neg hb]
    simp [hmem]

theorem exact_taken (hnested : ∀ c, leaves c = c ↔ nested c) (hfind : w.find msg.ageFilename = some (some p))
    (hget : w.heap.get p = some (.state s)) (ht : Typed w.heap s)
    (hnamed : named s.desc.desc msg.variableName = some i)
    (hc : w.heap.cell (s.vars i) = some ⟨.variable ⟨v, var⟩, n⟩) (htakes : Takes msg.value var) :
    Exact S X w msg (updateFound C S leaves X w msg p s (some (s.vars i))) ↔
      ∀ b ∈ writtenAt w.heap s, b ≠ s.vars i → ∀ var', w.heap.get b = some (.variable var') →
        Settled S nested var'.content := by
  have hsimple : i ∈ s.desc.desc.simpleVars := List.mem_of_find?_eq_some hnamed
  have htype : v.type ≠ .stateDesc := by
    rw [desc_of_typed ht hc rfl]
    simpa using (List.mem_filter.1 hsimple).2
  obtain ⟨content, hset, helems, htime, hhint⟩ := setText_of_takes X S msg.now htakes
  obtain ⟨blob, hresult⟩ := found_taken C leaves hget ht hc hset
  rw [hresult, ← leaveAll_others content hnested ht hc hsimple]
  constructor
  · rintro ⟨p', s', hfind', hget', i', v', var₁, var₂, refs, honly⟩ b hb
    obtain rfl : p = p' := by simpa [hfind] using hfind'
    obtain rfl : s = s' := Obj.state.inj (Option.some.inj (hget.symm.trans hget'))
    obtain rfl : i = i' := Option.some.inj (hnamed.symm.trans honly.named)
    exact honly.others b hb
  · intro hothers
    refine ⟨p, s, hfind, hget, i, v, var, saved S leaves w s i content n, n, ?_⟩
    exact {
      named := hnamed
      before := hc
      after := leaveAll_here hc
      elems := by rw [saved_elems htype, helems]
      timestamp := saved_timestamp.trans htime
      hint := saved_hint.trans hhint
      others := hothers
      globalStates := rfl
      rows := by
        intro name hname
        dsimp only
        split
        · exact if_neg hname
        · rfl
      hosts := by
        rw [World.tell, List.map_map]
        refine List.map_congr_left fun host _ => ?_
        show Host.states (if _ then _ else _) = _
        split <;> rfl }

/-- A refused request has changed the variable, unless nothing was left to change. -/
theorem exact_refused (hc : w.heap.cell (s.vars i) = some ⟨.variable ⟨v, var⟩, n⟩) (hvalue : msg.value ≠ "")
    (htext : takesText v.type = false) :
    Exact S X w msg (updateFound C S leaves X w msg p s (some (s.vars i))) ↔ Unmoved msg var := by
  rw [found_refused hc (setText_refused hvalue htext)]
  show { w with heap := withVar w s i (opened msg.now var) n } = w ↔ _
  have hheap : { w with heap := withVar w s i (opened msg.now var) n } = w ↔
      withVar w s i (opened msg.now var) n = w.heap :=
    ⟨fun h => congrArg World.heap h, fun h => by rw [h]⟩
  rw [hheap]
  have hopened : withVar w s i (opened msg.now var) n = w.heap ↔ opened msg.now var = var := by
    constructor
    · intro h
      have hcell : (withVar w s i (opened msg.now var) n).cell (s.vars i) = _ :=
        cell_withVar hc (s.vars i)
      rw [h, hc, if_pos rfl] at hcell
      simpa using hcell.symm
    · intro h
      rw [withVar, h, ← Lib.Heap.getElem_of_cell hc (Lib.Heap.lt_length hc)]
      exact List.set_getElem_self _
  rw [hopened]
  obtain ⟨elems, timestamp, hint, flags, dirty⟩ := var
  simp only [Unmoved, opened, Variable.mk.injEq, true_and]
  constructor
  · rintro ⟨htime, hflags, hdirty⟩
    exact ⟨hvalue, htext, htime.symm, hdirty.symm, hflags⟩
  · rintro ⟨-, -, htime, hdirty, hflags⟩
    exact ⟨htime.symm, hflags, hdirty.symm⟩

/-- A value for the first element of a variable that has none is written beyond its end. -/
theorem exact_beyond (hc : w.heap.cell (s.vars i) = some ⟨.variable ⟨v, var⟩, n⟩) (hvalue : msg.value ≠ "")
    (htext : takesText v.type = true) (helems : var.elems = []) :
    ¬Exact S X w msg (updateFound C S leaves X w msg p s (some (s.vars i))) := by
  rw [found_error hc (setText_beyond hvalue htext helems)]
  exact not_false

/-- The condition, once the variable is found. -/
theorem meets_found (hfind : w.find msg.ageFilename = some (some p))
    (hget : w.heap.get p = some (.state s)) (hnamed : named s.desc.desc msg.variableName = some i)
    (hc : w.heap.cell (s.vars i) = some ⟨.variable ⟨v, var⟩, n⟩) : Meets S nested w msg ↔
      Unmoved msg var ∨ (Takes msg.value var ∧ ∀ b ∈ writtenAt w.heap s, b ≠ s.vars i →
        ∀ var', w.heap.get b = some (.variable var') → Settled S nested var'.content) := by
  have hvar : w.heap.get (s.vars i) = some (.variable ⟨v, var⟩) := Lib.Heap.get_eq_some.2 ⟨n, hc⟩
  rw [Meets, hfind]
  constructor
  · intro h
    exact h s i _ hget hnamed hvar
  · rintro h s' i' var' hget' hnamed' hvar'
    obtain rfl : s = s' := Obj.state.inj (Option.some.inj (hget.symm.trans hget'))
    obtain rfl : i = i' := Option.some.inj (hnamed.symm.trans hnamed')
    obtain rfl := Obj.variable.inj (Option.some.inj (hvar.symm.trans hvar'))
    exact h

theorem exact_found (hnested : ∀ c, leaves c = c ↔ nested c) (hfind : w.find msg.ageFilename = some (some p))
    (hget : w.heap.get p = some (.state s)) (ht : Typed w.heap s)
    (hnamed : named s.desc.desc msg.variableName = some i)
    (hc : w.heap.cell (s.vars i) = some ⟨.variable ⟨v, var⟩, n⟩) :
    Exact S X w msg (updateFound C S leaves X w msg p s (some (s.vars i))) ↔ Meets S nested w msg := by
  rw [meets_found hfind hget hnamed hc]
  by_cases htakes : Takes msg.value var
  · have hmoves : ¬Unmoved msg var := by
      rintro ⟨hvalue, htext, -⟩
      rw [(htakes.resolve_left hvalue).1] at htext
      cases htext
    rw [exact_taken hnested hfind hget ht hnamed hc htakes]
    simp [htakes, hmoves]
  · have hvalue : msg.value ≠ "" := fun h => htakes (.inl h)
    cases htext : takesText v.type with
    | false =>
      rw [exact_refused hc hvalue htext]
      simp [htakes]
    | true =>
      have helems : var.elems = [] := by
        by_contra hne
        exact htakes (.inr ⟨htext, hne⟩)
      refine iff_of_false (exact_beyond hc hvalue htext helems) ?_
      rintro (⟨-, hrefused, -⟩ | ⟨htakes', -⟩)
      · rw [htext] at hrefused
        cases hrefused
      · exact htakes htakes'

end Found

/-- A state has its variables when it shows one. -/
theorem shows_iff {h : Heap (Obj κ σ)} {p : Nat} :
    (∃ state, Shows h p state) ↔ ∃ s, h.get p = some (.state s) ∧ Typed h s := by
  constructor
  · rintro ⟨state, hshows⟩
    obtain ⟨vars, hget, -⟩ := id hshows
    exact ⟨_, hget, typed_of_shows hshows hget⟩
  · rintro ⟨s, hget, ht⟩
    choose content hcontent using ht
    exact ⟨⟨s.desc, ⟨content, s.object, s.flags⟩⟩, s.vars, hget, hcontent⟩

theorem get_leaveAll (l : List Nat) (h : Heap (Obj κ σ)) (b : Nat) :
    (leaveAll S leaves l h).get b =
      if b ∈ l then (h.get b).map (leaveObj S leaves) else h.get b := by
  rw [Lib.Heap.get, cell_leaveAll, Lib.Heap.get]
  split
  · rw [Option.map_map, Option.map_map]
    rfl
  · rfl

theorem typed_leaveAll {h : Heap (Obj κ σ)} (l : List Nat) (ht : Typed h s) :
    Typed (leaveAll S leaves l h) s := by
  intro j
  obtain ⟨content, hget⟩ := ht j
  rw [get_leaveAll, hget]
  split
  · exact ⟨left S leaves content, rfl⟩
  · exact ⟨content, rfl⟩

theorem state_leaveAll {h : Heap (Obj κ σ)} (l : List Nat) (hget : h.get p = some (.state s)) :
    (leaveAll S leaves l h).get p = some (.state s) := by
  rw [get_leaveAll, hget]
  split <;> rfl

/-- The objects keep their kinds, whatever becomes of the variables. -/
theorem valid_found {i : Fin s.desc.desc.vars.length} (hvalid : Valid w)
    (hget : w.heap.get p = some (.state s)) (ht : Typed w.heap s) {w' : World κ σ} {result : NetResultCode}
    (hstep : updateFound C S leaves X w msg p s (some (s.vars i)) = .ok (w', result)) : Valid w' := by
  obtain ⟨var, hvar⟩ := ht i
  obtain ⟨refs, hc⟩ := Lib.Heap.get_eq_some.1 hvar
  cases hset : setText X S msg.now msg.value var with
  | error e =>
    rw [found_error hc hset] at hstep
    cases hstep
  | ok text =>
    obtain ⟨content, known⟩ := text
    intro entry hmem q hentry
    cases known with
    | false =>
      rw [found_refused hc hset] at hstep
      obtain ⟨rfl, -⟩ := Prod.mk.inj (Except.ok.inj hstep)
      obtain ⟨s', hq, ht'⟩ := shows_iff.1 (hvalid entry hmem q hentry)
      exact shows_iff.2 ⟨s', state_withVar hq hc, typed_withVar ht' hc⟩
    | true =>
      obtain ⟨blob, hresult⟩ := found_taken C leaves hget ht hc hset
      rw [hresult] at hstep
      obtain ⟨rfl, -⟩ := Prod.mk.inj (Except.ok.inj hstep)
      obtain ⟨s', hq, ht'⟩ := shows_iff.1 (hvalid entry hmem q hentry)
      exact shows_iff.2 ⟨s', state_leaveAll _ (state_withVar hq hc), typed_leaveAll _ (typed_withVar ht' hc)⟩

/-- What a request does keeps the states of `s_globalStates`. -/
theorem valid_update (hvalid : Valid w) {w' : World κ σ} {result : NetResultCode}
    (hstep : dmAuthUpdateGlobalSDL C S leaves X w msg = .ok (w', result)) : Valid w' := by
  cases hfind : w.find msg.ageFilename with
  | none =>
    rw [dmAuthUpdateGlobalSDL, hfind] at hstep
    obtain ⟨rfl, -⟩ := Prod.mk.inj (Except.ok.inj hstep)
    exact hvalid
  | some handle =>
    cases handle with
    | none =>
      rw [dmAuthUpdateGlobalSDL, hfind] at hstep
      cases hstep
    | some p =>
      obtain ⟨entry, hmem, hentry⟩ := find_mem hfind
      obtain ⟨s, hget, ht⟩ := shows_iff.1 (hvalid entry hmem p hentry)
      cases hnamed : named s.desc.desc msg.variableName with
      | none =>
        rw [update_missing hfind hget ht hnamed] at hstep
        obtain ⟨rfl, -⟩ := Prod.mk.inj (Except.ok.inj hstep)
        exact hvalid
      | some i =>
        rw [update_of_get hfind hget ht hnamed rfl] at hstep
        exact valid_found hvalid hget ht hstep

/-- What requests leave that are handled one after the other, until one is an error. -/
inductive Handled (C : Creatables κ) (S : Children σ) (leaves : σ → σ) (X : AgeSdl.Conversions) (w : World κ σ) :
    World κ σ → Prop
  | refl : Handled C S leaves X w w
  | step {w₁ w₂ : World κ σ} {msg : Request} {result : NetResultCode} (hrun : Handled C S leaves X w w₁)
      (hstep : dmAuthUpdateGlobalSDL C S leaves X w₁ msg = .ok (w₂, result)) : Handled C S leaves X w w₂

theorem valid_handled (hvalid : Valid w) {w' : World κ σ} (hrun : Handled C S leaves X w w') : Valid w' := by
  induction hrun with
  | refl => exact hvalid
  | step _ hstep ih => exact valid_update ih hstep

/-- A request is exact when it meets the condition, with any states that are written without
a change. -/
theorem exact_iff_meets (hnested : ∀ c, leaves c = c ↔ nested c) (hvalid : Valid w) :
    Exact S X w msg (dmAuthUpdateGlobalSDL C S leaves X w msg) ↔ Meets S nested w msg := by
  cases hfind : w.find msg.ageFilename with
  | none =>
    rw [dmAuthUpdateGlobalSDL, Meets, hfind]
    exact iff_of_true rfl trivial
  | some handle =>
    cases handle with
    | none =>
      rw [dmAuthUpdateGlobalSDL, Meets, hfind]
      exact Iff.rfl
    | some p =>
      obtain ⟨entry, hmem, hentry⟩ := find_mem hfind
      obtain ⟨s, hget, ht⟩ := shows_iff.1 (hvalid entry hmem p hentry)
      cases hnamed : named s.desc.desc msg.variableName with
      | none =>
        rw [update_missing hfind hget ht hnamed, Meets, hfind]
        refine iff_of_true rfl fun s' i var hget' hnamed' _ => ?_
        obtain rfl : s = s' := Obj.state.inj (Option.some.inj (hget.symm.trans hget'))
        rw [hnamed] at hnamed'
        cases hnamed'
      | some i =>
        obtain ⟨content, hvar⟩ := ht i
        obtain ⟨refs, hc⟩ := Lib.Heap.get_eq_some.1 hvar
        rw [update_of_get hfind hget ht hnamed rfl]
        exact exact_found hnested hfind hget ht hnamed hc

/-- A change that `AuthServer_ChangeGlobalSDL` says has failed is none. -/
theorem changeGlobal_refused (hnested : ∀ c, leaves c = c ↔ nested c) (hvalid : Valid w)
    (hmeets : Meets S nested w msg) {w' : World κ σ}
    (hchange : changeGlobalSDL C S leaves X w msg = .ok (w', false)) : w' = w := by
  obtain ⟨⟨w₁, result⟩, hupdate, hresult⟩ := Lib.bind_eq_ok.1 hchange
  obtain ⟨rfl, hrefused⟩ := Prod.mk.inj (Except.ok.inj hresult)
  have hexact : Exact S X w msg (dmAuthUpdateGlobalSDL C S leaves X w msg) :=
    (exact_iff_meets hnested hvalid).2 hmeets
  rw [hupdate] at hexact
  cases result with
  | success => simp at hrefused
  | _ => exact hexact

end Requests

/-- **When a request changes the variable that it names, or nothing.** -/
theorem updateGlobal_iff {κ : Type} {C : Creatables κ} {db : DescriptorDb} {n : Nat}
    {X : AgeSdl.Conversions} (w : World κ (Child κ n)) (msg : Request) (hvalid : Valid w) :
    Exact (children C db n) X w msg
        (dmAuthUpdateGlobalSDL C (children C db n) (childLeaves C db n) X w msg) ↔
      Meets (children C db n) (childSettled C db n) w msg :=
  exact_iff_meets (childLeaves_eq_iff C db n) hvalid

/-! ## A lamp -/

def lampPtr : DescriptorPtr where
  bucket := "lamp"
  version := 1
  desc := {
    name := "Lamp"
    version := 1
    vars := [{ type := .int, name := "n", size := 1 }, { type := .float, name := "x", size := 1 }]
    few := by decide }

def lampVar : (v : VarDescriptor) → Variable Empty (Child Empty 0) v
  | { type := .int, .. } => { elems := [5] }
  | { type := .float, .. } => { elems := [0], dirty := true }
  | { type := _, .. } => { elems := [] }

def lampRef : StateRef where
  desc := lampPtr
  vars j := j.val + 1

/-- The host of the lamp shares its global state. -/
def lampWorld : World Empty (Child Empty 0) where
  heap := [some ⟨.state lampRef, 2⟩,
    some ⟨.variable ⟨_, lampVar (lampPtr.desc.vars.get ⟨0, by decide⟩)⟩, 1⟩,
    some ⟨.variable ⟨_, lampVar (lampPtr.desc.vars.get ⟨1, by decide⟩)⟩, 1⟩]
  globalStates := [("lamp", some 0)]
  rows _ := none
  hosts := [{ ageFilename := "Lamp", localState := none, globalState := some 0, ageSdlHook := none }]

/-- A 9 for a variable of the lamp. -/
def lampNine (variableName : String) : Request where
  ageFilename := "Lamp"
  variableName := variableName
  value := "9"
  now := ⟨7, 0⟩
  updated := true

theorem lamp_typed : Typed lampWorld.heap lampRef := by
  rintro ⟨_ | _ | j, hj⟩
  · exact ⟨_, rfl⟩
  · exact ⟨_, rfl⟩
  · exact absurd hj (by show ¬j + 2 < 2; omega)

theorem lamp_valid : Valid lampWorld := by
  intro entry hentry p hp
  obtain rfl := List.mem_singleton.1 hentry
  obtain rfl := Option.some.inj hp
  exact shows_iff.2 ⟨lampRef, rfl, lamp_typed⟩

theorem lamp_find (variableName : String) :
    lampWorld.find (lampNine variableName).ageFilename = some (some 0) := by
  have hfind : lampWorld.find "Lamp" = some (some 0) := by decide
  exact hfind

theorem updateGlobal_lamp : Exact (children State.noCreatables [] 0) nine lampWorld (lampNine "n")
    (dmAuthUpdateGlobalSDL State.noCreatables (children State.noCreatables [] 0)
      (childLeaves State.noCreatables [] 0) nine lampWorld (lampNine "n")) := by
  refine (updateGlobal_iff lampWorld (lampNine "n") lamp_valid).2 ?_
  have hnamed : named lampRef.desc.desc "n" = some ⟨0, by decide⟩ := by decide
  refine (meets_found (s := lampRef) (lamp_find "n") rfl hnamed rfl).2 (.inr ⟨.inr ⟨rfl, List.cons_ne_nil _ _⟩, ?_⟩)
  have hwritten : writtenAt lampWorld.heap lampRef = [2] := by decide
  intro b hb _ var' hvar'
  rw [hwritten] at hb
  obtain rfl := List.mem_singleton.1 hb
  obtain rfl := Obj.variable.inj (Option.some.inj hvar')
  exact ⟨fun hdefault => absurd hdefault (by decide), fun c hc => absurd hc List.not_mem_nil⟩

/-- **A refused request that has changed the state.**  Its variable is of a type that has no
texts, and the host sees the time of the request in it. -/
theorem refused_lamp : ¬Exact (children State.noCreatables [] 0) nine lampWorld (lampNine "x")
    (dmAuthUpdateGlobalSDL State.noCreatables (children State.noCreatables [] 0)
      (childLeaves State.noCreatables [] 0) nine lampWorld (lampNine "x")) := by
  have hnamed : named lampRef.desc.desc "x" = some ⟨1, by decide⟩ := by decide
  rw [update_of_get (s := lampRef) (lamp_find "x") rfl lamp_typed hnamed rfl]
  have hc : lampWorld.heap.cell (lampRef.vars ⟨1, by decide⟩) =
      some ⟨.variable ⟨_, lampVar (lampPtr.desc.vars.get ⟨1, by decide⟩)⟩, 1⟩ := rfl
  refine mt (exact_refused hc (by decide) rfl).1 ?_
  rintro ⟨-, -, htime, -⟩
  exact absurd htime (by decide)

end Dirtsand.GlobalSdl
