import Dirtsand.Lib.Pointwise
import Dirtsand.PlasMOUL.Factory

/-!
# What makeSafeForNet lets through

`makeSafeForNet` of a message asks objects inside of it, and these ask others.  Here is
what it comes to, without a word of how it is done.

* `Class.children` — the objects that an object has pointers to, all of them.
* `Everywhere` — what is so of an object, of those inside of it, of those inside of these.
* `Class.Allowed` — what may be in a message, at any depth.
* `calm` — what is changed: the flag of an administrator, in each chat message.
* `makeSafeForNet_eq_ok` — **a message is let through if it is allowed everywhere, and then
  nothing but those flags is changed.**
* `makeSafeForNet_fixed` — what has been let through is let through again, as it is.
-/

namespace Dirtsand.MOUL

open Lib (Codec bind_eq_ok)
open Streams
open Strings

/-! ## The objects inside -/

section

variable {L : Level}

/-- The object of a pointer, if there is one. -/
def pointee {k : Kind} (p : Option (L.Of k)) : List L.Creatable :=
  (p.map Level.Of.creatable).toList

theorem mem_pointee {k : Kind} {p : Option (L.Of k)} {x : L.Creatable} :
    x ∈ pointee p ↔ ∃ y ∈ p, y.creatable = x := by
  rw [pointee, Option.mem_toList]
  exact Option.mem_map

def AvBrainGeneric.children (b : AvBrainGeneric L) : List L.Creatable :=
  b.stages.map (fun s => s.1.creatable) ++ (pointee b.messages.1 ++ pointee b.messages.2)

/-- All objects that an object has pointers to. -/
def Class.children : (c : Class) → c.Own L → List L.Creatable
  | messageWithCallbacks, callbacks => List.flatMap pointee callbacks
  | animCmdMsg, (callbacks, _) => List.flatMap pointee callbacks
  | loadCloneMsg, m => pointee (LoadCloneMsg.triggerMsg m)
  | loadAvatarMsg, m => pointee (LoadAvatarMsg.toLoadCloneMsg m).triggerMsg ++ pointee m.initTask
  | avTaskMsg, task => pointee task
  | avPopBrainMsg, task => pointee task
  | avSeekMsg, (task, _) => pointee task
  | avOneShotMsg, ((task, _), _) => pointee task
  | avPushBrainMsg, m => pointee (AvPushBrainMsg.task m) ++ pointee m.brain
  | avCoopMsg, m => pointee (AvCoopMsg.coordinator m)
  | coopCoordinator, c => pointee (CoopCoordinator.hostBrain c) ++
    (pointee c.guestBrain ++ pointee c.acceptMsg)
  | avTaskBrain, brain => pointee brain
  | avBrainGeneric, b => AvBrainGeneric.children b
  | avBrainCoop, (b, _) => b.children
  | linkingMgrMsg, (_, _, args) => args.items.entries.map Prod.snd
  | netMsgGameMessage, m => pointee (NetMsgGameMessage.message m)
  | netMsgGameMessageDirected, m =>
    pointee (NetMsgGameMessageDirected.toNetMsgGameMessage m).message
  | netMsgLoadClone, m => pointee (NetMsgLoadClone.toNetMsgGameMessage m).message
  | _, _ => []

end

/-- What is so of an object and of all objects inside of it, at every depth. -/
def Everywhere (P : ∀ L, (c : Class) → c.Own L → Prop) (D : Decoders) (Z : Zlib) :
    (n : Nat) → (level D Z n).Creatable → Prop
  | 0, _ => True
  | n + 1, ⟨c, obj⟩ => P (level D Z n) c obj.2 ∧
    ∀ x ∈ c.children obj.2, Everywhere P D Z n x

/-! ## What is allowed, and what is changed -/

section

variable {L : Level}

/-- What others may be sent, of the object alone. -/
def Class.Allowed (L : Level) : (c : Class) → c.Own L → Prop
  | backdoorMsg, _ | inputEventMsg, _ | controlEventMsg, _ | linkingMgrMsg, _ | warpMsg, _ => False
  | kiMessage, m => KIMessage.command m = KIMessage.chatMessage
  | messageWithCallbacks, callbacks => ∀ p ∈ callbacks, Option.isSome p = true
  | animCmdMsg, (callbacks, _) => ∀ p ∈ callbacks, Option.isSome p = true
  | avBrainGeneric, b => (AvBrainGeneric.messages b).1 = none ∧ b.messages.2 = none
  | avBrainCoop, (b, _) => b.messages.1 = none ∧ b.messages.2 = none
  | _, _ => True

/-- An allowed object that does not speak for an administrator. -/
def Class.Harmless (L : Level) : (c : Class) → c.Own L → Prop
  | kiMessage, m => KIMessage.command m = KIMessage.chatMessage ∧
    KIMessage.flags m &&& KIMessage.adminMsg = 0
  | c, own => c.Allowed L own

def mapPointer (f : (c : Class) → L.Obj c → L.Obj c) {k : Kind} (p : Option (L.Of k)) :
    Option (L.Of k) :=
  p.map fun x => ⟨x.1, f x.1.1 x.2⟩

/-- The flag of chat messages is cleared, and the objects inside are changed by `f`. -/
def Class.calm (f : (c : Class) → L.Obj c → L.Obj c) : (c : Class) → c.Own L → c.Own L
  | kiMessage, m =>
    { (m : KIMessage) with flags := KIMessage.flags m &&& ~~~KIMessage.adminMsg }
  | messageWithCallbacks, callbacks => List.map (mapPointer f) callbacks
  | animCmdMsg, (callbacks, cmd) => (List.map (mapPointer f) callbacks, cmd)
  | loadCloneMsg, m =>
    { (m : LoadCloneMsg L) with triggerMsg := mapPointer f (LoadCloneMsg.triggerMsg m) }
  | loadAvatarMsg, m =>
    { (m : LoadAvatarMsg L) with
      triggerMsg := mapPointer f (LoadAvatarMsg.toLoadCloneMsg m).triggerMsg
      initTask := mapPointer f (LoadAvatarMsg.initTask m) }
  | avTaskMsg, task => mapPointer f task
  | avPopBrainMsg, task => mapPointer f task
  | avSeekMsg, (task, seek) => (mapPointer f task, seek)
  | avOneShotMsg, ((task, seek), oneShot) => ((mapPointer f task, seek), oneShot)
  | avPushBrainMsg, m =>
    ⟨mapPointer f (AvPushBrainMsg.task m), mapPointer f (AvPushBrainMsg.brain m)⟩
  | avCoopMsg, m =>
    { (m : AvCoopMsg L) with coordinator := mapPointer f (AvCoopMsg.coordinator m) }
  | coopCoordinator, c =>
    { (c : CoopCoordinator L) with
      hostBrain := mapPointer f (CoopCoordinator.hostBrain c)
      guestBrain := mapPointer f (CoopCoordinator.guestBrain c)
      acceptMsg := mapPointer f (CoopCoordinator.acceptMsg c) }
  | avTaskBrain, brain => mapPointer f brain
  | _, own => own

end

/-- A message whose chat messages are those of no administrator. -/
def calm (D : Decoders) (Z : Zlib) :
    (n : Nat) → (c : Class) → (level D Z n).Obj c → (level D Z n).Obj c
  | 0, _, obj => obj
  | n + 1, c, obj => (obj.1, c.calm (calm D Z n) obj.2)

/-! ## One object -/

section

variable {L : Level} {P : L.Creatable → Prop} {f : (c : Class) → L.Obj c → L.Obj c}

/-- The objects that are asked of a level: those with `P` are let through, changed by `f`. -/
def Passes (L : Level) (P : L.Creatable → Prop) (f : (c : Class) → L.Obj c → L.Obj c) : Prop :=
  ∀ c obj obj', c.base ≠ .netMessage →
    (L.makeSafeForNet c obj = .ok obj' ↔ P ⟨c, obj⟩ ∧ obj' = f c obj)

/-- The classes that have `makeSafeForNet`. -/
def Kind.Guarded (k : Kind) : Prop := ∀ c, k.has c = true → c.base ≠ .netMessage

theorem guarded_base {b : Base} (h : b ≠ .netMessage) : (Kind.base b).Guarded := by
  intro c hc
  rw [of_decide_eq_true hc]
  exact h

theorem guarded_exactly {c : Class} (h : c.base ≠ .netMessage) : (Kind.exactly c).Guarded := by
  intro c' hc
  rw [of_decide_eq_true hc]
  exact h

theorem safePointer_eq_ok (h : Passes L P f) {k : Kind} (hk : k.Guarded) {p p' : Option (L.Of k)} :
    L.safePointer p = .ok p' ↔ (∀ x ∈ pointee p, P x) ∧ p' = mapPointer f p := by
  cases p with
  | none =>
    constructor
    · intro hp
      exact ⟨nofun, (Except.ok.inj hp).symm⟩
    · rintro ⟨-, rfl⟩
      rfl
  | some x =>
    have hchild : (∀ y ∈ pointee (some x), P y) ↔ P x.creatable := by
      constructor
      · exact fun hall => hall _ (mem_pointee.2 ⟨x, rfl, rfl⟩)
      · intro hx y hy
        obtain ⟨z, hz, rfl⟩ := mem_pointee.1 hy
        rw [← Option.some.inj hz]
        exact hx
    rw [hchild, Level.safePointer, bind_eq_ok]
    constructor
    · rintro ⟨obj, hobj, hp⟩
      obtain ⟨hx, rfl⟩ := (h _ _ _ (hk _ x.1.2)).1 hobj
      exact ⟨hx, (Except.ok.inj hp).symm⟩
    · rintro ⟨hx, rfl⟩
      exact ⟨_, (h _ _ _ (hk _ x.1.2)).2 ⟨hx, rfl⟩, rfl⟩

theorem makeSafe_cons (x : L.Of .message) (callbacks : MessageWithCallbacks L) :
    MessageWithCallbacks.makeSafe L (some x :: callbacks) = (do
      let p ← L.safePointer (some x)
      let callbacks ← MessageWithCallbacks.makeSafe L callbacks
      pure (p :: callbacks)) := by
  rw [MessageWithCallbacks.makeSafe, Level.safePointer]
  cases L.makeSafeForNet x.1.1 x.2 with
  | error e => rfl
  | ok obj => rfl

theorem callbacks_eq_ok (h : Passes L P f) {callbacks callbacks' : MessageWithCallbacks L} :
    callbacks.makeSafe L = .ok callbacks' ↔ ((∀ p ∈ callbacks, p.isSome = true) ∧
      ∀ x ∈ callbacks.flatMap pointee, P x) ∧ callbacks' = callbacks.map (mapPointer f) := by
  induction callbacks generalizing callbacks' with
  | nil =>
    constructor
    · intro hc
      exact ⟨⟨nofun, nofun⟩, (Except.ok.inj hc).symm⟩
    · rintro ⟨-, rfl⟩
      rfl
  | cons p callbacks ih =>
    cases p with
    | none =>
      refine iff_of_false nofun fun hall => ?_
      cases hall.1.1 none List.mem_cons_self
    | some x =>
      have hmessage : Kind.message.Guarded := guarded_base (by decide)
      rw [makeSafe_cons, bind_eq_ok, List.forall_mem_cons, List.flatMap_cons,
        List.forall_mem_append, List.map_cons]
      constructor
      · rintro ⟨p, hp, hrest⟩
        obtain ⟨callbacks'', hcallbacks, hc⟩ := bind_eq_ok.1 hrest
        obtain ⟨hx, rfl⟩ := (safePointer_eq_ok h hmessage).1 hp
        obtain ⟨⟨hsome, hall⟩, rfl⟩ := ih.1 hcallbacks
        exact ⟨⟨⟨rfl, hsome⟩, hx, hall⟩, (Except.ok.inj hc).symm⟩
      · rintro ⟨⟨⟨-, hsome⟩, hx, hall⟩, rfl⟩
        exact ⟨_, (safePointer_eq_ok h hmessage).2 ⟨hx, rfl⟩,
          bind_eq_ok.2 ⟨_, ih.2 ⟨⟨hsome, hall⟩, rfl⟩, rfl⟩⟩

theorem forall_pointees {k k' : Kind} {p : Option (L.Of k)} {q : Option (L.Of k')} :
    (∀ x ∈ pointee p ++ pointee q, P x) ↔ (∀ x ∈ pointee p, P x) ∧ ∀ x ∈ pointee q, P x :=
  List.forall_mem_append

theorem brain_eq_ok (hstage : ∀ obj, P ⟨.animStage, obj⟩) {b b' : AvBrainGeneric L} :
    b.makeSafe = .ok b' ↔ ((b.messages.1 = none ∧ b.messages.2 = none) ∧
      ∀ x ∈ b.children, P x) ∧ b' = b := by
  have hisNone : (b.messages.1.isNone = true ∧ b.messages.2.isNone = true) ↔
      b.messages.1 = none ∧ b.messages.2 = none :=
    and_congr Option.isNone_iff_eq_none Option.isNone_iff_eq_none
  rw [AvBrainGeneric.makeSafe]
  by_cases hnone : b.messages.1 = none ∧ b.messages.2 = none
  · rw [if_pos (hisNone.2 hnone)]
    constructor
    · intro h
      refine ⟨⟨hnone, fun x hx => ?_⟩, (Except.ok.inj h).symm⟩
      rw [AvBrainGeneric.children, hnone.1, hnone.2, List.mem_append, List.mem_map] at hx
      obtain ⟨⟨stage, aux⟩, -, rfl⟩ | hx := hx
      · obtain ⟨⟨c, hc⟩, obj⟩ := stage
        obtain rfl : c = .animStage := of_decide_eq_true hc
        exact hstage obj
      · cases hx
    · exact fun h => congrArg Except.ok h.2.symm
  · rw [if_neg (mt hisNone.1 hnone)]
    exact iff_of_false nofun fun h => hnone h.1.1

/-- A computation that gives only `a`, under a condition, and one that goes on with it. -/
theorem bind_only {α β : Type} {x : Except Refusal α} {Q : Prop} {a : α}
    (h : ∀ a', x = .ok a' ↔ Q ∧ a' = a) {k : α → Except Refusal β} {b : β} :
    (x >>= k) = .ok b ↔ Q ∧ k a = .ok b := by
  rw [bind_eq_ok]
  constructor
  · rintro ⟨a', hx, hk⟩
    obtain ⟨hQ, rfl⟩ := (h a').1 hx
    exact ⟨hQ, hk⟩
  · rintro ⟨hQ, hk⟩
    exact ⟨a, (h a).2 ⟨hQ, rfl⟩, hk⟩

theorem pure_eq_ok {α : Type} {a b : α} : (pure a : Except Refusal α) = .ok b ↔ b = a :=
  ⟨fun h => (Except.ok.inj h).symm, fun h => congrArg Except.ok h.symm⟩

theorem clone_eq_ok (h : Passes L P f) {m m' : LoadCloneMsg L} :
    m.makeSafe = .ok m' ↔ (∀ x ∈ pointee m.triggerMsg, P x) ∧
      m' = { m with triggerMsg := mapPointer f m.triggerMsg } :=
  (bind_only fun _ => safePointer_eq_ok h (guarded_base (by decide))).trans
    (and_congr_right' pure_eq_ok)

theorem avatar_eq_ok (h : Passes L P f) {m m' : LoadAvatarMsg L} :
    m.makeSafe = .ok m' ↔ (∀ x ∈ pointee m.triggerMsg ++ pointee m.initTask, P x) ∧
      m' = { m with
        triggerMsg := mapPointer f m.triggerMsg
        initTask := mapPointer f m.initTask } := by
  rw [forall_pointees, and_assoc]
  exact (bind_only fun _ => clone_eq_ok h).trans (and_congr_right'
    ((bind_only fun _ => safePointer_eq_ok h (guarded_base (by decide))).trans
      (and_congr_right' pure_eq_ok)))

theorem pushBrain_eq_ok (h : Passes L P f) {m m' : AvPushBrainMsg L} :
    m.makeSafe = .ok m' ↔ (∀ x ∈ pointee m.task ++ pointee m.brain, P x) ∧
      m' = ⟨mapPointer f m.task, mapPointer f m.brain⟩ := by
  rw [forall_pointees, and_assoc]
  exact (bind_only fun _ => safePointer_eq_ok h (guarded_base (by decide))).trans (and_congr_right'
    ((bind_only fun _ => safePointer_eq_ok h (guarded_base (by decide))).trans
      (and_congr_right' pure_eq_ok)))

theorem coordinator_eq_ok (h : Passes L P f) {c c' : CoopCoordinator L} :
    c.makeSafe = .ok c' ↔
      (∀ x ∈ pointee c.hostBrain ++ (pointee c.guestBrain ++ pointee c.acceptMsg), P x) ∧
      c' = { c with
        hostBrain := mapPointer f c.hostBrain
        guestBrain := mapPointer f c.guestBrain
        acceptMsg := mapPointer f c.acceptMsg } := by
  rw [List.forall_mem_append, forall_pointees, and_assoc, and_assoc]
  exact (bind_only fun _ => safePointer_eq_ok h (guarded_exactly (by decide))).trans
    (and_congr_right' ((bind_only fun _ => safePointer_eq_ok h (guarded_exactly (by decide))).trans
      (and_congr_right' ((bind_only fun _ => safePointer_eq_ok h (guarded_base (by decide))).trans
        (and_congr_right' pure_eq_ok)))))

theorem ki_eq_ok {m m' : KIMessage} : m.makeSafe = .ok m' ↔ m.command = KIMessage.chatMessage ∧
    m' = { m with flags := m.flags &&& ~~~KIMessage.adminMsg } := by
  rw [KIMessage.makeSafe]
  by_cases hchat : m.command = KIMessage.chatMessage
  · rw [if_neg (not_not.2 hchat)]
    exact ⟨fun h => ⟨hchat, (Except.ok.inj h).symm⟩, fun h => congrArg Except.ok h.2.symm⟩
  · rw [if_pos hchat]
    exact iff_of_false nofun fun h => hchat h.1

/-- A class that asks nothing of its own. -/
theorem asks_nothing {Q R : Prop} : (Q ∧ R) ↔ (True ∧ Q) ∧ R := by
  rw [true_and]

/-- What `makeSafeForNet` of each class asks, and what it changes. -/
theorem makeSafe_eq_ok (h : Passes L P f) (hstage : ∀ obj, P ⟨.animStage, obj⟩) {c : Class}
    (hc : c.base ≠ .netMessage) {own own' : c.Own L} :
    c.makeSafe own = .ok own' ↔
      (c.Allowed L own ∧ ∀ x ∈ c.children own, P x) ∧ own' = c.calm f own := by
  have htask : Kind.avTask.Guarded := guarded_base (by decide)
  have hbrain : Kind.armatureBrain.Guarded := guarded_base (by decide)
  have hcoordinator : (Kind.exactly .coopCoordinator).Guarded := guarded_exactly (by decide)
  cases c
  case kiMessage => exact ki_eq_ok.trans (and_congr_left' (and_iff_left nofun).symm)
  case messageWithCallbacks => exact callbacks_eq_ok h
  case animCmdMsg =>
    exact (bind_only fun _ => callbacks_eq_ok h).trans (and_congr_right' pure_eq_ok)
  case avTaskMsg => exact (safePointer_eq_ok h htask).trans asks_nothing
  case avPopBrainMsg => exact (safePointer_eq_ok h htask).trans asks_nothing
  case avTaskBrain => exact (safePointer_eq_ok h hbrain).trans asks_nothing
  case avSeekMsg =>
    refine Iff.trans ?_ asks_nothing
    exact (bind_only fun _ => safePointer_eq_ok h htask).trans (and_congr_right' pure_eq_ok)
  case avOneShotMsg =>
    refine Iff.trans ?_ asks_nothing
    exact (bind_only fun _ => safePointer_eq_ok h htask).trans (and_congr_right' pure_eq_ok)
  case avCoopMsg =>
    refine Iff.trans ?_ asks_nothing
    exact (bind_only fun _ => safePointer_eq_ok h hcoordinator).trans (and_congr_right' pure_eq_ok)
  case loadCloneMsg => exact (clone_eq_ok h).trans asks_nothing
  case loadAvatarMsg => exact (avatar_eq_ok h).trans asks_nothing
  case avPushBrainMsg => exact (pushBrain_eq_ok h).trans asks_nothing
  case coopCoordinator => exact (coordinator_eq_ok h).trans asks_nothing
  case avBrainGeneric => exact brain_eq_ok hstage
  case avBrainCoop =>
    exact (bind_only fun _ => brain_eq_ok hstage).trans (and_congr_right' pure_eq_ok)
  -- the other classes refuse, or let everything through, or are not asked
  all_goals first
    | exact absurd rfl hc
    | exact iff_of_false nofun fun h => h.1.1
    | exact ⟨fun h => ⟨⟨trivial, nofun⟩, (Except.ok.inj h).symm⟩,
        fun h => congrArg Except.ok h.2.symm⟩

/-! ## What comes out -/

theorem pointee_mapPointer {k : Kind} (p : Option (L.Of k)) :
    pointee (mapPointer f p) = (pointee p).map fun x => ⟨x.1, f x.1 x.2⟩ := by
  cases p with
  | none => rfl
  | some x => rfl

theorem mapPointer_eq_self {k : Kind} {p : Option (L.Of k)}
    (h : ∀ x ∈ pointee p, f x.1 x.2 = x.2) : mapPointer f p = p := by
  cases p with
  | none => rfl
  | some x =>
    obtain ⟨c, obj⟩ := x
    have hobj : f c.1 obj = obj := h _ (mem_pointee.2 ⟨_, rfl, rfl⟩)
    rw [mapPointer, Option.map_some, hobj]

theorem callbacks_eq_self {callbacks : MessageWithCallbacks L}
    (h : ∀ x ∈ callbacks.flatMap pointee, f x.1 x.2 = x.2) :
    callbacks.map (mapPointer f) = callbacks := by
  induction callbacks with
  | nil => rfl
  | cons p callbacks ih =>
    rw [List.flatMap_cons, List.forall_mem_append] at h
    rw [List.map_cons, mapPointer_eq_self h.1, ih h.2]

theorem flatMap_mapPointer (callbacks : MessageWithCallbacks L) :
    (callbacks.map (mapPointer f)).flatMap pointee =
      (callbacks.flatMap pointee).map fun x => ⟨x.1, f x.1 x.2⟩ := by
  rw [List.flatMap_map, List.map_flatMap]
  exact congrArg (List.flatMap · callbacks) (funext pointee_mapPointer)

/-- The objects inside are those that were there, each of them changed. -/
theorem children_calm (hstage : ∀ obj, f .animStage obj = obj) {c : Class}
    (hc : c.base ≠ .netMessage) {own : c.Own L} (h : c.Allowed L own) :
    c.children (c.calm f own) = (c.children own).map fun x => ⟨x.1, f x.1 x.2⟩ := by
  have hbrain : ∀ b : AvBrainGeneric L, b.messages.1 = none ∧ b.messages.2 = none →
      b.children = b.children.map fun x => ⟨x.1, f x.1 x.2⟩ := by
    intro b hb
    rw [AvBrainGeneric.children, hb.1, hb.2, List.map_append, List.map_map]
    refine congrArg₂ _ (List.map_congr_left fun s _ => ?_) rfl
    obtain ⟨⟨⟨c, hc⟩, obj⟩, aux⟩ := s
    obtain rfl : c = .animStage := of_decide_eq_true hc
    show (⟨_, obj⟩ : L.Creatable) = ⟨_, f .animStage obj⟩
    rw [hstage]
  cases c
  case messageWithCallbacks => exact flatMap_mapPointer own
  case animCmdMsg => exact flatMap_mapPointer own.1
  case avTaskMsg => exact pointee_mapPointer own
  case avPopBrainMsg => exact pointee_mapPointer own
  case avTaskBrain => exact pointee_mapPointer own
  case avSeekMsg => exact pointee_mapPointer own.1
  case avOneShotMsg => exact pointee_mapPointer own.1.1
  case avCoopMsg => exact pointee_mapPointer (AvCoopMsg.coordinator own)
  case loadCloneMsg => exact pointee_mapPointer (LoadCloneMsg.triggerMsg own)
  case loadAvatarMsg =>
    refine Eq.trans ?_ List.map_append.symm
    exact congrArg₂ _ (pointee_mapPointer _) (pointee_mapPointer _)
  case avPushBrainMsg =>
    refine Eq.trans ?_ List.map_append.symm
    exact congrArg₂ _ (pointee_mapPointer _) (pointee_mapPointer _)
  case coopCoordinator =>
    refine Eq.trans ?_ (List.map_append.trans (congrArg _ List.map_append)).symm
    exact congrArg₂ _ (pointee_mapPointer _) (congrArg₂ _ (pointee_mapPointer _)
      (pointee_mapPointer _))
  case avBrainGeneric => exact hbrain own h
  case avBrainCoop => exact hbrain own.1 h
  all_goals first
    | exact absurd rfl hc
    | exact absurd h id
    | rfl

theorem base_pointee {k : Kind} (hk : k.Guarded) {p : Option (L.Of k)} :
    ∀ x ∈ pointee p, x.1.base ≠ .netMessage := by
  intro x hx
  obtain ⟨y, -, rfl⟩ := mem_pointee.1 hx
  exact hk _ y.1.2

/-- No object inside of an allowed one is a net message. -/
theorem base_children {c : Class} (hc : c.base ≠ .netMessage) {own : c.Own L}
    (h : c.Allowed L own) : ∀ x ∈ c.children own, x.1.base ≠ .netMessage := by
  have hmessage : Kind.message.Guarded := guarded_base (by decide)
  have htask : Kind.avTask.Guarded := guarded_base (by decide)
  have hcallbacks : ∀ callbacks : MessageWithCallbacks L, ∀ x ∈ callbacks.flatMap pointee,
      x.1.base ≠ .netMessage := by
    intro callbacks x hx
    obtain ⟨p, -, hp⟩ := List.mem_flatMap.1 hx
    exact base_pointee hmessage x hp
  have hstages : ∀ b : AvBrainGeneric L, ∀ x ∈ b.children, x.1.base ≠ .netMessage := by
    intro b x hx
    obtain hx | hx := List.mem_append.1 hx
    · obtain ⟨s, -, rfl⟩ := List.mem_map.1 hx
      exact guarded_exactly (c := .animStage) (by decide) _ s.1.1.2
    · exact (forall_pointees (P := fun x => x.1.base ≠ .netMessage)).2
        ⟨base_pointee hmessage, base_pointee hmessage⟩ x hx
  cases c
  case messageWithCallbacks => exact hcallbacks own
  case animCmdMsg => exact hcallbacks own.1
  case avTaskMsg => exact base_pointee htask
  case avPopBrainMsg => exact base_pointee htask
  case avTaskBrain => exact base_pointee (guarded_base (by decide))
  case avSeekMsg => exact base_pointee htask
  case avOneShotMsg => exact base_pointee htask
  case avCoopMsg => exact base_pointee (guarded_exactly (by decide))
  case loadCloneMsg => exact base_pointee hmessage
  case loadAvatarMsg =>
    exact (forall_pointees (P := fun x => x.1.base ≠ .netMessage)).2
      ⟨base_pointee hmessage, base_pointee htask⟩
  case avPushBrainMsg =>
    exact (forall_pointees (P := fun x => x.1.base ≠ .netMessage)).2
      ⟨base_pointee htask, base_pointee (guarded_base (by decide))⟩
  case coopCoordinator =>
    refine List.forall_mem_append.2 ⟨base_pointee (guarded_exactly (by decide)), ?_⟩
    exact (forall_pointees (P := fun x => x.1.base ≠ .netMessage)).2
      ⟨base_pointee (guarded_exactly (by decide)), base_pointee hmessage⟩
  case avBrainGeneric => exact hstages own
  case avBrainCoop => exact hstages own.1
  all_goals first
    | exact absurd rfl hc
    | exact absurd h id
    | exact nofun

theorem flags_cleared (flags mask : UInt32) : flags &&& ~~~mask &&& mask = 0 := by
  rw [UInt32.and_assoc, UInt32.not_and_self, UInt32.and_zero]

theorem flags_kept {flags mask : UInt32} (h : flags &&& mask = 0) : flags &&& ~~~mask = flags := by
  rw [← UInt32.toBitVec_inj]
  ext i hi
  have hbit := congrArg (fun v : UInt32 => v.toBitVec[i]) h
  simp only [UInt32.toBitVec_and, BitVec.getElem_and] at hbit
  simp only [UInt32.toBitVec_and, UInt32.toBitVec_not, BitVec.getElem_and, BitVec.getElem_not]
  cases hmask : mask.toBitVec[i] <;> simp_all

theorem harmless_calm {c : Class} {own : c.Own L} (h : c.Allowed L own) :
    c.Harmless L (c.calm f own) := by
  have hsome : ∀ callbacks : MessageWithCallbacks L, (∀ p ∈ callbacks, p.isSome = true) →
      ∀ p ∈ callbacks.map (mapPointer f), p.isSome = true := by
    intro callbacks hall p hp
    obtain ⟨q, hq, rfl⟩ := List.mem_map.1 hp
    exact Option.isSome_map.trans (hall q hq)
  cases c
  case kiMessage => exact ⟨h, flags_cleared _ _⟩
  case messageWithCallbacks => exact hsome own h
  case animCmdMsg => exact hsome own.1 h
  all_goals exact h

theorem allowed_of_harmless {c : Class} {own : c.Own L} (h : c.Harmless L own) :
    c.Allowed L own := by
  cases c
  case kiMessage => exact h.1
  all_goals exact h

/-- A harmless object is not changed, if those inside are not. -/
theorem calm_eq_self {c : Class} {own : c.Own L} (h : c.Harmless L own)
    (hchildren : ∀ x ∈ c.children own, f x.1 x.2 = x.2) : c.calm f own = own := by
  cases c
  case kiMessage =>
    obtain ⟨command, user, playerId, string, flags, delay, value⟩ := own
    have hflags : flags &&& ~~~KIMessage.adminMsg = flags := flags_kept h.2
    show KIMessage.mk command user playerId string (flags &&& ~~~KIMessage.adminMsg) delay value = _
    rw [hflags]
  case messageWithCallbacks => exact callbacks_eq_self hchildren
  case animCmdMsg => exact Prod.ext (callbacks_eq_self hchildren) rfl
  case avTaskMsg => exact mapPointer_eq_self hchildren
  case avPopBrainMsg => exact mapPointer_eq_self hchildren
  case avTaskBrain => exact mapPointer_eq_self hchildren
  case avSeekMsg => exact Prod.ext (mapPointer_eq_self hchildren) rfl
  case avOneShotMsg => exact Prod.ext (Prod.ext (mapPointer_eq_self hchildren) rfl) rfl
  case avCoopMsg =>
    exact congrArg (fun p => { (own : AvCoopMsg L) with coordinator := p })
      (mapPointer_eq_self hchildren)
  case loadCloneMsg =>
    exact congrArg (fun p => { (own : LoadCloneMsg L) with triggerMsg := p })
      (mapPointer_eq_self hchildren)
  case loadAvatarMsg =>
    have h := forall_pointees.1 hchildren
    exact congrArg₂ (fun p q => { (own : LoadAvatarMsg L) with triggerMsg := p, initTask := q })
      (mapPointer_eq_self h.1) (mapPointer_eq_self h.2)
  case avPushBrainMsg =>
    have h := forall_pointees.1 hchildren
    exact congrArg₂ AvPushBrainMsg.mk (mapPointer_eq_self h.1) (mapPointer_eq_self h.2)
  case coopCoordinator =>
    obtain ⟨hostKey, guestKey, hostBrain, guestBrain, offer, stage, acceptMsg, bone, auto⟩ := own
    obtain ⟨hhost, hrest⟩ := List.forall_mem_append.1 hchildren
    have h := forall_pointees.1 hrest
    show CoopCoordinator.mk hostKey guestKey (mapPointer f hostBrain) (mapPointer f guestBrain)
      offer stage (mapPointer f acceptMsg) bone auto = _
    rw [mapPointer_eq_self hhost, mapPointer_eq_self h.1, mapPointer_eq_self h.2]
  all_goals rfl

end

/-! ## All objects -/

section

variable (D : Decoders) (Z : Zlib)

theorem everywhere_animStage (n : Nat) (obj : (level D Z n).Obj .animStage) :
    Everywhere Class.Allowed D Z n ⟨.animStage, obj⟩ := by
  cases n with
  | zero => trivial
  | succ n => exact ⟨trivial, nofun⟩

theorem passes (n : Nat) :
    Passes (level D Z n) (Everywhere Class.Allowed D Z n) (calm D Z n) := by
  induction n with
  | zero => exact fun _ obj => Empty.elim obj
  | succ n ih =>
    intro c obj obj' hc
    exact (bind_only fun _ => makeSafe_eq_ok ih (everywhere_animStage D Z n) hc).trans
      (and_congr_right' pure_eq_ok)

variable {D Z} {n : Nat} {c : Class} {obj obj' : (level D Z n).Obj c}

/-- **`makeSafeForNet` lets through what is allowed at every depth, and no more than calms it.** -/
theorem makeSafeForNet_eq_ok (hc : c.base ≠ .netMessage) :
    (level D Z n).makeSafeForNet c obj = .ok obj' ↔
      Everywhere Class.Allowed D Z n ⟨c, obj⟩ ∧ obj' = calm D Z n c obj :=
  passes D Z n c obj obj' hc

/-- A line of chat. -/
def chat (n : Nat) (flags : UInt32) : (level decoders .stored (n + 1)).Of .message :=
  ⟨⟨.kiMessage, rfl⟩, ((⟨none, [], 0, 0⟩ : Message),
    (⟨KIMessage.chatMessage, "", 1, "hi", flags, 0, 0⟩ : KIMessage))⟩

/-- A line of chat, and behind it a message with a line of its own. -/
def chats (flags : UInt32) : (level decoders .stored 3).Obj .messageWithCallbacks :=
  ((⟨none, [], 0, 0⟩ : Message), [some (chat 1 flags), some ⟨⟨.messageWithCallbacks, rfl⟩,
    ((⟨none, [], 0, 0⟩ : Message), [some (chat 0 flags)])⟩])

theorem chats_allowed (flags : UInt32) :
    Everywhere Class.Allowed decoders .stored 3 ⟨.messageWithCallbacks, chats flags⟩ := by
  have hchat (n : Nat) :
      Everywhere Class.Allowed decoders .stored (n + 1) (chat n flags).creatable := ⟨rfl, nofun⟩
  refine ⟨?_, List.forall_mem_cons.2 ⟨hchat 1, List.forall_mem_singleton.2 ⟨?_, ?_⟩⟩⟩
  · exact List.forall_mem_cons.2 ⟨rfl, List.forall_mem_singleton.2 rfl⟩
  · exact List.forall_mem_singleton.2 rfl
  · exact List.forall_mem_singleton.2 (hchat 0)

/-- Both lines are in the name of an administrator, and then neither is. -/
theorem makeSafeForNet_eq_ok_chat :
    (level decoders .stored 3).makeSafeForNet .messageWithCallbacks (chats 3) = .ok (chats 1) :=
  (makeSafeForNet_eq_ok (by decide)).2 ⟨chats_allowed 3, rfl⟩

theorem calm_animStage (n : Nat) (obj : (level D Z n).Obj .animStage) :
    calm D Z n .animStage obj = obj := by
  cases n with
  | zero => rfl
  | succ n => rfl

theorem everywhere_calm (hc : c.base ≠ .netMessage)
    (h : Everywhere Class.Allowed D Z n ⟨c, obj⟩) :
    Everywhere Class.Harmless D Z n ⟨c, calm D Z n c obj⟩ := by
  induction n generalizing c with
  | zero => trivial
  | succ n ih =>
    refine ⟨harmless_calm h.1, ?_⟩
    show ∀ x ∈ c.children (c.calm (calm D Z n) obj.2), _
    rw [children_calm (calm_animStage n) hc h.1]
    intro x hx
    obtain ⟨y, hy, rfl⟩ := List.mem_map.1 hx
    exact ih (base_children hc h.1 y hy) (h.2 y hy)

theorem calm_of_harmless (hc : c.base ≠ .netMessage)
    (h : Everywhere Class.Harmless D Z n ⟨c, obj⟩) :
    Everywhere Class.Allowed D Z n ⟨c, obj⟩ ∧ calm D Z n c obj = obj := by
  induction n generalizing c with
  | zero => exact Empty.elim obj
  | succ n ih =>
    have hallowed := allowed_of_harmless h.1
    have hchildren : ∀ x ∈ c.children obj.2, Everywhere Class.Allowed D Z n x ∧
        calm D Z n x.1 x.2 = x.2 := fun x hx => ih (base_children hc hallowed x hx) (h.2 x hx)
    exact ⟨⟨hallowed, fun x hx => (hchildren x hx).1⟩,
      Prod.ext rfl (calm_eq_self h.1 fun x hx => (hchildren x hx).2)⟩

/-- **What is let through is harmless at every depth**, and the harmless objects are those that are
let through as they are. -/
theorem makeSafeForNet_fixed (hc : c.base ≠ .netMessage) :
    ((level D Z n).makeSafeForNet c obj = .ok obj' →
      Everywhere Class.Harmless D Z n ⟨c, obj'⟩) ∧
    ((level D Z n).makeSafeForNet c obj = .ok obj ↔
      Everywhere Class.Harmless D Z n ⟨c, obj⟩) := by
  have hout : ∀ obj', (level D Z n).makeSafeForNet c obj = .ok obj' →
      Everywhere Class.Harmless D Z n ⟨c, obj'⟩ := by
    intro obj' hsafe
    obtain ⟨hall, rfl⟩ := (makeSafeForNet_eq_ok hc).1 hsafe
    exact everywhere_calm hc hall
  refine ⟨hout obj', hout obj, fun hall => ?_⟩
  obtain ⟨hallowed, hcalm⟩ := calm_of_harmless hc hall
  exact (makeSafeForNet_eq_ok hc).2 ⟨hallowed, hcalm.symm⟩

theorem chats_calmed :
    (level decoders .stored 3).makeSafeForNet .messageWithCallbacks (chats 3) = .ok (chats 1) := rfl

theorem makeSafeForNet_fixed_chat :
    Everywhere Class.Harmless decoders .stored 3 ⟨.messageWithCallbacks, chats 1⟩ ∧
      (level decoders .stored 3).makeSafeForNet .messageWithCallbacks (chats 1) =
        .ok (chats 1) := by
  have hharmless := (makeSafeForNet_fixed (by decide)).1 chats_calmed
  have hfixed : ((level decoders .stored 3).makeSafeForNet .messageWithCallbacks (chats 1) =
    .ok (chats 1) → _) ∧ _ := makeSafeForNet_fixed (by decide)
  exact ⟨hharmless, hfixed.2.2 hharmless⟩

end

end Dirtsand.MOUL
