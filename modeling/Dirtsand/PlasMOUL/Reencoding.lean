import Dirtsand.PlasMOUL.SafeForNet

/-!
# Messages that are written again

A game server reads messages and writes them to other clients.  What is lost on the way
is lost at single objects, which `Class.Fit` leaves out.

* `Class.Fit` — an object that is written as it was read: its strings are short, a brain
  has no messages, streams and lists are packed so that they can be unpacked.
* `kept_of_came` — **what was read comes back after it is written, if it is fit at every
  depth.**
* `reencoded` — so it is with what `Factory::ReadCreatable` has read.
* `came_calm` — what `makeSafeForNet` makes of a message could have been read as well.
-/

namespace Dirtsand.MOUL

open Lib (Codec)
open Streams
open Strings

/-! ## Fit objects -/

/-- A value that is no string, or a short one. -/
def Shape.Short : (s : Shape) → s.Val → Prop
  | .string, value => MOUL.Short .utf8 value
  | _, _ => True

/-- Names are read as Latin-1 and written as UTF-8. -/
structure SharedState.Fit (s : SharedState) : Prop where
  ascii : ∀ c ∈ s.1.toList, c.toNat < 128
  names : ∀ v ∈ s.2.2, Short .utf8 v.1
  values : ∀ v ∈ s.2.2, (Shape.of v.2.1).Short v.2.2

section

variable (D : Decoders) (Z : Zlib) {L : Level}

/-- What is written of the message fits into a stream. -/
def NetMsgGameMessage.Packed (m : NetMsgGameMessage L) : Prop :=
  ∀ memory bytes, (L.pointer .message).write memory m.message = .ok bytes →
    Packs Z (m.packed.1, bytes)

variable (L) in
/-- What an object needs, other than those inside of it, to be written as it was read. -/
def Class.Fit : (c : Class) → c.Own L → Prop
  | kiMessage, m => Short .utf8 (KIMessage.user m) ∧ Short .utf16 m.string
  | notifyMsg, (_, _, _, events) => ∀ e ∈ events, EventData.Short e
  | avBrainGeneric, b => (AvBrainGeneric.messages b).1 = none ∧ b.messages.2 = none
  | avBrainCoop, (b, _) => b.messages.1 = none ∧ b.messages.2 = none
  | linkingMgrMsg, (flags, _, args) => flags.get 1 = some true →
    (∀ m, ¬ CreatableList.Compresses (creatables L m m) args) ∧
      ∀ m, (CreatableList.writeRam (creatables L m m) args.items).length < 2 ^ 32
  | netMsgGameMessage, m => NetMsgGameMessage.Packed Z m
  | netMsgGameMessageDirected, m =>
    (NetMsgGameMessageDirected.toNetMsgGameMessage m).Packed Z
  | netMsgLoadClone, m => (NetMsgLoadClone.toNetMsgGameMessage m).Packed Z
  | netMsgTestAndSet, (_, (type, state), _) => SharedState.Fit state ∧
    ∀ memory bytes, (sharedState D).write memory state = .ok bytes → Packs Z (type, bytes)
  | netMsgSDLState, (_, s, _) => Packs Z s
  | netMsgSDLStateBCast, (_, s, _) => Packs Z s
  | _, _ => True

end

/-! ## One object -/

/-- Classes whose objects are written as they were read, whatever they are. -/
def Class.Leaf : Class → Bool
  | kiMessage | notifyMsg | netMsgTestAndSet | netMsgSDLState | netMsgSDLStateBCast
  | messageWithCallbacks | animCmdMsg | loadCloneMsg | loadAvatarMsg | avTaskMsg | avPopBrainMsg
  | avSeekMsg | avOneShotMsg | avPushBrainMsg | avCoopMsg | coopCoordinator | avTaskBrain
  | avBrainGeneric | avBrainCoop | linkingMgrMsg | netMsgGameMessage | netMsgGameMessageDirected
  | netMsgLoadClone => false
  | _ => true

section

variable {D : Decoders} {Z : Zlib} {L : Level}

theorem Class.plain_own {c : Class} (h : c.Leaf = true) : Codec.Plain (c.own D Z L) := by
  cases c <;> first
    | exact absurd h Bool.false_ne_true
    | (dsimp only [Class.own]; infer_instance)

theorem shape_kept {s : Shape} {value : s.Val} (h : (s.codec (utf8 D)).Came value)
    (hshort : s.Short value) : (s.codec (utf8 D)).Kept value := by
  cases s with
  | string => exact ⟨hshort, h⟩
  | _ => trivial

theorem sharedState_kept {s : SharedState} (h : (sharedState D).Came s) (hfit : s.Fit) :
    (sharedState D).Kept s := by
  obtain ⟨hname, hcount, hbool, hvars⟩ := h
  refine ⟨⟨hfit.ascii, hname.short⟩, hcount, trivial, fun v hv => ?_⟩
  exact ⟨⟨hfit.names v hv, (hvars v hv).1⟩, ⟨trivial, shape_kept (hvars v hv).2.2 (hfit.values v hv)⟩⟩

theorem pointer_kept {k : Kind} {p : Option (L.Of k)} (h : ∀ x ∈ pointee p, L.Kept x) :
    (L.pointer k).Kept p :=
  fun x hx => h _ (mem_pointee.2 ⟨x, hx, rfl⟩)

theorem behind_kept {k : Kind} {p : Option (L.Of k)} (h : ∀ x ∈ pointee p, L.Kept x) :
    (Codec.behind bool (L.pointer k)).Kept p :=
  ⟨trivial, fun _ => pointer_kept h⟩

theorem pointer_came {k : Kind} {p : Option (L.Of k)} (h : (L.pointer k).Came p) :
    ∀ x ∈ pointee p, L.Came x := by
  intro x hx
  obtain ⟨y, hy, rfl⟩ := mem_pointee.1 hx
  exact h y hy

theorem behind_came {k : Kind} {p : Option (L.Of k)}
    (h : (Codec.behind bool (L.pointer k)).Came p) : ∀ x ∈ pointee p, L.Came x := by
  cases p with
  | none => nofun
  | some y => exact pointer_came (h rfl)

theorem gameMessage_came {m : NetMsgGameMessage L} (h : (netMsgGameMessage Z L).Came m) :
    ∀ x ∈ pointee m.message, L.Came x :=
  pointer_came h.1.2

theorem gameMessage_kept {m : NetMsgGameMessage L} (hchildren : ∀ x ∈ pointee m.message, L.Kept x)
    (hpacked : m.Packed Z) : (netMsgGameMessage Z L).Kept m :=
  ⟨⟨pointer_kept hchildren, hpacked⟩, trivial, fun _ => trivial⟩

theorem callbacks_came {callbacks : MessageWithCallbacks L}
    (h : (messageWithCallbacks L).Came callbacks) : ∀ x ∈ callbacks.flatMap pointee, L.Came x := by
  intro x hx
  obtain ⟨p, hp, hx⟩ := List.mem_flatMap.1 hx
  exact pointer_came ((Codec.list_came.1 h).2 p hp) x hx

theorem callbacks_kept {callbacks : MessageWithCallbacks L}
    (h : (messageWithCallbacks L).Came callbacks)
    (hchildren : ∀ x ∈ callbacks.flatMap pointee, L.Kept x) :
    (messageWithCallbacks L).Kept callbacks :=
  Codec.list_kept.2 ⟨(Codec.list_came.1 h).1, fun p hp =>
    pointer_kept fun x hx => hchildren x (List.mem_flatMap.2 ⟨p, hp, hx⟩)⟩

theorem brain_came {b : AvBrainGeneric L} (h : (avBrainGeneric L).Came b) :
    ∀ x ∈ b.children, L.Came x := by
  obtain ⟨hstages, _, _, _, _, _, hmessages, _⟩ := h
  intro x hx
  obtain hx | hx := List.mem_append.1 hx
  · obtain ⟨s, hs, rfl⟩ := List.mem_map.1 hx
    exact ((Codec.list_came.1 hstages).2 s hs).1 _ rfl
  · exact (forall_pointees (P := L.Came)).2
      ⟨pointer_came hmessages.1, pointer_came hmessages.2⟩ x hx

theorem brain_kept {b : AvBrainGeneric L} (h : (avBrainGeneric L).Came b)
    (hfit : b.messages.1 = none ∧ b.messages.2 = none) (hchildren : ∀ x ∈ b.children, L.Kept x) :
    (avBrainGeneric L).Kept b := by
  obtain ⟨hstages, _, _, _, _, _, _, _, _, _, _, hrecipient⟩ := h
  refine ⟨Codec.list_kept.2 ⟨(Codec.list_came.1 hstages).1, fun s hs => ⟨?_, ?_⟩⟩, trivial, trivial,
    trivial, trivial, trivial, hfit, trivial, trivial, trivial, trivial,
    Codec.Plain.kept (c := key) _ hrecipient⟩
  · intro x hx
    obtain rfl := Option.some.inj hx
    exact hchildren _ (List.mem_append_left _ (List.mem_map.2 ⟨s, hs, rfl⟩))
  · exact Codec.Plain.kept (c := stageAux) _ ((Codec.list_came.1 hstages).2 s hs).2

theorem came_children {c : Class} {own : c.Own L} (h : (c.own D Z L).Came own) :
    ∀ x ∈ c.children own, L.Came x := by
  cases c
  case messageWithCallbacks => exact callbacks_came h
  case animCmdMsg => exact callbacks_came h.1
  case avTaskMsg => exact behind_came h
  case avPopBrainMsg => exact behind_came h
  case avSeekMsg => exact behind_came h.1
  case avOneShotMsg => exact behind_came h.1.1
  case avPushBrainMsg => exact forall_pointees.2 ⟨behind_came h.1, pointer_came h.2⟩
  case avTaskBrain => exact pointer_came h
  case avCoopMsg => exact behind_came h.1
  case loadCloneMsg => exact pointer_came h.2.2.2.2.2.2
  case loadAvatarMsg =>
    exact forall_pointees.2 ⟨pointer_came h.1.2.2.2.2.2.2, behind_came h.2.2.2.1⟩
  case coopCoordinator =>
    obtain ⟨_, _, hhost, hguest, _, _, haccept, _, _⟩ := h
    exact List.forall_mem_append.2
      ⟨pointer_came hhost, forall_pointees.2 ⟨pointer_came hguest, behind_came haccept⟩⟩
  case avBrainGeneric => exact brain_came h
  case avBrainCoop => exact brain_came h.1
  case netMsgGameMessage => exact gameMessage_came h
  case netMsgGameMessageDirected => exact gameMessage_came h.1
  case netMsgLoadClone => exact gameMessage_came h.1
  case linkingMgrMsg =>
    obtain ⟨flags, cmd, args⟩ := own
    have hargs : if flags.get 1 = some true then CameList L args
      else args = ⟨CreatableList.wantCompression, .empty⟩ := h.2.2
    intro x hx
    obtain ⟨p, hp, rfl⟩ := List.mem_map.1 hx
    split at hargs
    · exact hargs.items p hp
    · rw [hargs] at hp
      cases hp
  all_goals exact nofun

/-- What was read is kept if it is fit, and if the objects inside are kept. -/
theorem own_kept {c : Class} {own : c.Own L} (h : (c.own D Z L).Came own)
    (hfit : c.Fit D Z L own) (hchildren : ∀ x ∈ c.children own, L.Kept x) :
    (c.own D Z L).Kept own := by
  by_cases hleaf : c.Leaf = true
  · have hplain := Class.plain_own (D := D) (Z := Z) (L := L) hleaf
    exact Codec.Plain.kept own h
  cases c
  case kiMessage =>
    obtain ⟨_, huser, _, hstring, _⟩ := h
    exact ⟨trivial, ⟨hfit.1, huser⟩, trivial, ⟨hfit.2, hstring⟩, trivial, trivial, trivial⟩
  case notifyMsg =>
    obtain ⟨_, _, _, hevents⟩ := h
    exact ⟨trivial, trivial, trivial, Codec.list_kept.2 ⟨(Codec.list_came.1 hevents).1,
      fun e he => eventData_kept D ((Codec.list_came.1 hevents).2 e he) (hfit e he)⟩⟩
  case netMsgTestAndSet =>
    obtain ⟨hobject, ⟨_, hstate⟩, _⟩ := h
    exact ⟨hobject, ⟨sharedState_kept hstate hfit.1, hfit.2⟩, trivial⟩
  case netMsgSDLState => exact ⟨h.1, hfit, trivial, trivial, trivial⟩
  case netMsgSDLStateBCast => exact ⟨h.1, hfit, trivial, trivial, trivial⟩
  case messageWithCallbacks => exact callbacks_kept h hchildren
  case animCmdMsg =>
    exact ⟨callbacks_kept h.1 hchildren, Codec.Plain.kept (c := animCmd) _ h.2⟩
  case avTaskMsg => exact behind_kept hchildren
  case avPopBrainMsg => exact behind_kept hchildren
  case avSeekMsg =>
    exact ⟨behind_kept hchildren, Codec.Plain.kept (c := seekPoint.seq seek) _ h.2⟩
  case avOneShotMsg =>
    exact ⟨⟨behind_kept hchildren, Codec.Plain.kept (c := seekPoint.seq seek) _ h.1.2⟩,
      Codec.Plain.kept (c := oneShot) _ h.2⟩
  case avPushBrainMsg =>
    obtain ⟨htask, hbrain⟩ := forall_pointees.1 hchildren
    exact ⟨behind_kept htask, pointer_kept hbrain⟩
  case avTaskBrain => exact pointer_kept hchildren
  case avCoopMsg => exact ⟨behind_kept hchildren, trivial, trivial, trivial⟩
  case loadCloneMsg =>
    obtain ⟨hclone, hrequestor, _⟩ := h
    exact ⟨Codec.Plain.kept (c := key) _ hclone, Codec.Plain.kept (c := key) _ hrequestor, trivial,
      trivial, trivial, trivial, pointer_kept hchildren⟩
  case loadAvatarMsg =>
    obtain ⟨htrigger, htask⟩ := forall_pointees.1 hchildren
    obtain ⟨⟨hclone, hrequestor, _⟩, _, hspawn, _, huser⟩ := h
    exact ⟨⟨Codec.Plain.kept (c := key) _ hclone, Codec.Plain.kept (c := key) _ hrequestor,
      trivial, trivial, trivial, trivial, pointer_kept htrigger⟩, trivial,
      Codec.Plain.kept (c := key) _ hspawn, behind_kept htask, huser⟩
  case coopCoordinator =>
    obtain ⟨hhostBrain, hrest⟩ := List.forall_mem_append.1 hchildren
    obtain ⟨hguestBrain, hacceptMsg⟩ := forall_pointees.1 hrest
    obtain ⟨hhost, hguest, _, _, _, _, _, hbone, _⟩ := h
    exact ⟨Codec.Plain.kept (c := key) _ hhost, Codec.Plain.kept (c := key) _ hguest,
      pointer_kept hhostBrain, pointer_kept hguestBrain, trivial, trivial,
      behind_kept hacceptMsg, hbone, trivial⟩
  case avBrainGeneric => exact brain_kept h hfit hchildren
  case avBrainCoop =>
    exact ⟨brain_kept h.1 hfit hchildren, Codec.Plain.kept (c := coop) _ h.2⟩
  case netMsgGameMessage => exact gameMessage_kept hchildren hfit
  case netMsgGameMessageDirected =>
    exact ⟨gameMessage_kept hchildren hfit,
      Codec.Plain.kept (c := Codec.list (length 1) u32) _ h.2⟩
  case netMsgLoadClone => exact ⟨gameMessage_kept hchildren hfit, h.2.1, trivial, trivial, trivial⟩
  case linkingMgrMsg =>
    obtain ⟨flags, cmd, args⟩ := own
    obtain ⟨hflags, hcmd, hargs⟩ := h
    refine ⟨hflags, Codec.Plain.kept (c := Codec.when (flags.get 0 = some true) 0 u8) _ hcmd, ?_⟩
    show if flags.get 1 = some true then Loose L args
      else args = ⟨CreatableList.wantCompression, .empty⟩
    by_cases hlist : flags.get 1 = some true
    · have hcame : CameList L args := (if_pos hlist).mp hargs
      rw [if_pos hlist]
      exact ⟨fun p hp => hchildren _ (List.mem_map.2 ⟨p, hp, rfl⟩), (hfit hlist).1, hcame.count,
        (hfit hlist).2, hcame.flags⟩
    · rw [if_neg hlist]
      exact (if_neg hlist).mp hargs
  all_goals exact absurd rfl hleaf

theorem plain_base (b : Base) : Codec.Plain b.codec := by
  cases b <;> (dsimp only [Base.codec]; infer_instance)

/-- Flags and objects inside are changed, and it is still a message as it is read. -/
theorem own_came_calm {f : (c : Class) → L.Obj c → L.Obj c}
    (hf : ∀ x : L.Creatable, L.Came x → L.Came ⟨x.1, f x.1 x.2⟩) {c : Class} {own : c.Own L}
    (h : (c.own D Z L).Came own) : (c.own D Z L).Came (c.calm f own) := by
  have hpointer : ∀ {k : Kind} {p : Option (L.Of k)}, (L.pointer k).Came p →
      (L.pointer k).Came (mapPointer f p) := by
    intro k p hp x hx
    obtain ⟨y, hy, rfl⟩ := Option.mem_map.1 hx
    exact hf y.creatable (hp y hy)
  have hbehind : ∀ {k : Kind} {p : Option (L.Of k)}, (Codec.behind bool (L.pointer k)).Came p →
      (Codec.behind bool (L.pointer k)).Came (mapPointer f p) := by
    intro k p hp hsome
    cases p with
    | none => cases hsome
    | some x => exact hpointer (hp rfl)
  have hcallbacks : ∀ {callbacks : MessageWithCallbacks L}, (messageWithCallbacks L).Came callbacks →
      (messageWithCallbacks L).Came (callbacks.map (mapPointer f)) := by
    intro callbacks hc
    obtain ⟨hcount, hall⟩ := Codec.list_came.1 hc
    refine Codec.list_came.2 ⟨by rwa [List.length_map], fun p hp => ?_⟩
    obtain ⟨q, hq, rfl⟩ := List.mem_map.1 hp
    exact hpointer (hall q hq)
  cases c
  case messageWithCallbacks => exact hcallbacks h
  case animCmdMsg => exact ⟨hcallbacks h.1, h.2⟩
  case avTaskMsg => exact hbehind h
  case avPopBrainMsg => exact hbehind h
  case avTaskBrain => exact hpointer h
  case avSeekMsg => exact ⟨hbehind h.1, h.2⟩
  case avOneShotMsg => exact ⟨⟨hbehind h.1.1, h.1.2⟩, h.2⟩
  case avPushBrainMsg => exact ⟨hbehind h.1, hpointer h.2⟩
  case avCoopMsg => exact ⟨hbehind h.1, h.2⟩
  case loadCloneMsg =>
    obtain ⟨hclone, hrequestor, _, _, _, _, htrigger⟩ := h
    exact ⟨hclone, hrequestor, trivial, trivial, trivial, trivial, hpointer htrigger⟩
  case loadAvatarMsg =>
    obtain ⟨⟨hclone, hrequestor, _, _, _, _, htrigger⟩, _, hspawn, htask, huser⟩ := h
    exact ⟨⟨hclone, hrequestor, trivial, trivial, trivial, trivial, hpointer htrigger⟩, trivial,
      hspawn, hbehind htask, huser⟩
  case coopCoordinator =>
    obtain ⟨hhost, hguest, hhostBrain, hguestBrain, _, _, haccept, hbone, _⟩ := h
    exact ⟨hhost, hguest, hpointer hhostBrain, hpointer hguestBrain, trivial, trivial,
      hbehind haccept, hbone, trivial⟩
  all_goals exact h

end

/-! ## All objects -/

section

variable {D : Decoders} {Z : Zlib} {n : Nat} {c : Class} {obj : (level D Z n).Obj c}

/-- **What was read is kept if it is fit at every depth.** -/
theorem kept_of_came (h : (level D Z n).Came ⟨c, obj⟩)
    (hfit : Everywhere (fun L c => c.Fit D Z L) D Z n ⟨c, obj⟩) :
    (level D Z n).Kept ⟨c, obj⟩ := by
  induction n generalizing c with
  | zero => exact Empty.elim obj
  | succ n ih =>
    have hplain := plain_base c.base
    exact ⟨Codec.Plain.kept _ h.1, own_kept h.2 hfit.1 fun x hx =>
      ih (came_children h.2 x hx) (hfit.2 x hx)⟩

theorem came_calm (h : (level D Z n).Came ⟨c, obj⟩) :
    (level D Z n).Came ⟨c, calm D Z n c obj⟩ := by
  induction n generalizing c with
  | zero => exact Empty.elim obj
  | succ n ih => exact ⟨h.1, own_came_calm (fun x hx => ih hx) h.2⟩

/-- **An object that was read, and is fit at every depth, is written so that everybody reads the
same object**, whatever his memory holds. -/
theorem reencoded {m : Memory} {bytes rest : List UInt8} {x : (level D Z n).Creatable}
    (hread : (level D Z n).readCreatable m bytes = .ok (some x, rest))
    (hfit : Everywhere (fun L c => c.Fit D Z L) D Z n x) (m' : Memory) :
    ∃ out, (level D Z n).writeCreatable m' (some x) = .ok out ∧
      ∀ m'', Lib.Reader.Reads ((level D Z n).readCreatable m'') out (some x) := by
  have hcame : (level D Z n).Came x := (level D Z n).creatable.came m bytes _ _ hread x rfl
  refine (level D Z n).creatable.back m' (some x) fun y hy => ?_
  rw [← Option.some.inj hy]
  exact kept_of_came hcame hfit

/-- A brain with no messages, as a client sends it. -/
def brainBytes : List UInt8 :=
  [96, 3] ++ List.replicate 21 0 ++ [0, 0, 0, 0, 1, 0, 0, 0, 2, 0, 0, 0, 0, 0, 0, 0, 4, 1, 0, 0] ++
    List.replicate 11 0

def brain (n : Nat) : (level decoders .stored (n + 1)).Of .armatureBrain :=
  ⟨⟨.avBrainGeneric, rfl⟩, ((), (⟨[], 1, 2, 0, 4, true, (none, none), 0, 0, 0, 0, none⟩ :
    AvBrainGeneric (level decoders .stored n)))⟩

/-- A brain to push, with a task that has a brain of its own. -/
def pushBytes : List UInt8 :=
  [103, 3] ++ List.replicate 17 0 ++ [1, 112, 3] ++ brainBytes ++ brainBytes

def push : (level decoders .stored 3).Obj .avPushBrainMsg :=
  ((⟨none, [], 0, 0⟩ : Message), (⟨some ⟨⟨.avTaskBrain, rfl⟩, ((), some (brain 0))⟩,
    some (brain 1)⟩ : AvPushBrainMsg (level decoders .stored 2)))

set_option maxRecDepth 4000 in
theorem pushBytes_read : (level decoders .stored 3).readCreatable default pushBytes =
    .ok (some ⟨.avPushBrainMsg, push⟩, []) := rfl

theorem push_fit : Everywhere (fun L c => c.Fit decoders .stored L) decoders .stored 3
    ⟨.avPushBrainMsg, push⟩ := by
  have hbrain (n : Nat) : Everywhere (fun L c => c.Fit decoders .stored L) decoders .stored (n + 1)
      (brain n).creatable := ⟨⟨rfl, rfl⟩, nofun⟩
  refine ⟨trivial, List.forall_mem_cons.2 ⟨⟨trivial, ?_⟩, List.forall_mem_singleton.2 (hbrain 1)⟩⟩
  exact List.forall_mem_singleton.2 (hbrain 0)

theorem reencoded_push : ∃ out, (level decoders .stored 3).writeCreatable default
      (some ⟨.avPushBrainMsg, push⟩) = .ok out ∧
    ∀ m, Lib.Reader.Reads ((level decoders .stored 3).readCreatable m) out
      (some ⟨.avPushBrainMsg, push⟩) :=
  reencoded pushBytes_read push_fit default

end

end Dirtsand.MOUL
