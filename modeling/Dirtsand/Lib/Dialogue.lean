import Mathlib.Tactic.Common

/-!
# Programs that ask and reply

A program with a state that asks questions, whose answers come from outside,
and puts replies.  It may return, throw, or take the process down with it.  What
it asked, with the answers, is kept.

The rules below say when such a program replies **once**, counting the reply
that its caller puts where it throws.  They are read against a `Judge`: an entry
of the conversation is good or bad, and one that is excused makes the program
throw, so that nothing before it matters.

* `Sound` — no reply; the program ends the process exactly if an entry is bad.
* `Answers` — one reply exactly if every entry is good.
* `Exact` — no reply; apart from exceptions it returns a value with `P` if every
  entry is good, and one with `N` otherwise.
-/

namespace Dirtsand.Lib

inductive Exit (α : Type) where
  | ret (a : α)
  | throw
  | crash
deriving DecidableEq, Repr

structure Dialogue (σ Q A R : Type) where
  state : σ
  answers : Nat → A
  asked : List (Q × A) := []
  replies : List R := []

def Prog (σ Q A R α : Type) : Type := Dialogue σ Q A R → Exit α × Dialogue σ Q A R

namespace Prog

variable {σ Q A R α β : Type}

def andThen (out : Exit α × Dialogue σ Q A R) (f : α → Prog σ Q A R β) :
    Exit β × Dialogue σ Q A R :=
  match out with
  | (.ret a, w) => f a w
  | (.throw, w) => (.throw, w)
  | (.crash, w) => (.crash, w)

instance : Monad (Prog σ Q A R) where
  pure a := fun w => (.ret a, w)
  bind m f := fun w => andThen (m w) f

def get : Prog σ Q A R σ := fun w => (.ret w.state, w)

def modify (f : σ → σ) : Prog σ Q A R Unit := fun w => (.ret (), { w with state := f w.state })

def throw : Prog σ Q A R α := fun w => (.throw, w)

def crash : Prog σ Q A R α := fun w => (.crash, w)

/-- The next answer is the one at the length of the conversation. -/
def ask (q : Q) : Prog σ Q A R A := fun w =>
  (.ret (w.answers w.asked.length),
    { w with asked := w.asked ++ [(q, w.answers w.asked.length)] })

def reply (r : R) : Prog σ Q A R Unit := fun w => (.ret (), { w with replies := w.replies ++ [r] })

/-- `try m catch (...) { reply r; }`. -/
def catchReply (r : R) (m : Prog σ Q A R Unit) : Prog σ Q A R Unit := fun w =>
  match m w with
  | (.throw, w) => reply r w
  | out => out

/-- `for (x : l) f(x);`, with the values. -/
def collect (f : α → Prog σ Q A R β) : List α → Prog σ Q A R (List β)
  | [] => pure []
  | x :: xs => do
    let b ← f x
    let bs ← collect f xs
    pure (b :: bs)

/-! ## What a run says -/

/-- One reply, where the caller puts one for an exception. -/
def RepliedOnce (w : Dialogue σ Q A R) (out : Exit α × Dialogue σ Q A R) : Prop :=
  match out.1 with
  | .ret _ => out.2.replies.length = w.replies.length + 1
  | .throw => out.2.replies.length = w.replies.length
  | .crash => False

theorem catchReply_repliedOnce (r : R) (m : Prog σ Q A R Unit) (w : Dialogue σ Q A R) :
    RepliedOnce w (m w) ↔ (m.catchReply r w).1 = .ret () ∧
      (m.catchReply r w).2.replies.length = w.replies.length + 1 := by
  unfold catchReply RepliedOnce
  cases hm : m w with
  | mk exit w' => cases exit <;> simp [reply]

/-- What is good in a conversation, and what makes the program throw. -/
structure Judge (Q A : Type) where
  good : Q × A → Prop
  excused : Q × A → Prop

variable (J : Judge Q A)

/-- No reply, and the process ends exactly if something bad came back. -/
def Sound (P : α → Prop) (m : Prog σ Q A R α) : Prop :=
  ∀ w, ∃ new, (m w).2.asked = w.asked ++ new ∧ (m w).2.replies = w.replies ∧
    (∀ e ∈ new, ¬J.excused e) ∧ ((∀ e ∈ new, J.good e) ↔ (m w).1 ≠ .crash) ∧
    ∀ a, (m w).1 = .ret a → P a

/-- The process ends, or the program returns without a reply where `lost` allows
that. -/
def Fails (lost : Prop) (m : Prog σ Q A R α) : Prop :=
  ∀ w, (m w).2.asked = w.asked ∧ (m w).2.replies = w.replies ∧
    ((m w).1 = .crash ∨ lost ∧ ∃ a, (m w).1 = .ret a)

/-- One reply if all is good.  Otherwise the process ends, or the reply is lost. -/
def Answers (lost : Prop) (m : Prog σ Q A R α) : Prop :=
  ∀ w, ∃ new, (m w).2.asked = w.asked ++ new ∧ (∀ e ∈ new, ¬J.excused e) ∧
    ((∀ e ∈ new, J.good e) → RepliedOnce w (m w)) ∧
    ((∃ e ∈ new, ¬J.good e) → (m w).1 = .crash ∨
      lost ∧ (m w).2.replies = w.replies ∧ ∃ a, (m w).1 = .ret a)

/-- No reply.  The program throws exactly at an excused entry; otherwise it
returns a value with `P` if all is good, and else one with `N` unless the
process ends. -/
def Exact (P N : α → Prop) (m : Prog σ Q A R α) : Prop :=
  ∀ w, ∃ new, (m w).2.asked = w.asked ++ new ∧ (m w).2.replies = w.replies ∧
    ((∃ e ∈ new, J.excused e) ↔ (m w).1 = .throw) ∧
    ((m w).1 ≠ .throw → (∀ e ∈ new, J.good e) → ∃ a, (m w).1 = .ret a ∧ P a) ∧
    ((m w).1 ≠ .throw → (∃ e ∈ new, ¬J.good e) → (m w).1 = .crash ∨ ∃ a, (m w).1 = .ret a ∧ N a)

/-- One reply exactly if all is good, or something is excused. -/
def Fair (m : Prog σ Q A R α) : Prop :=
  ∀ w, ∃ new, (m w).2.asked = w.asked ++ new ∧
    (((∃ e ∈ new, J.excused e) ∨ ∀ e ∈ new, J.good e) ↔ RepliedOnce w (m w))

/-- Not one reply, whatever comes back. -/
def NeverOnce (m : Prog σ Q A R α) : Prop :=
  ∀ w, ∃ new, (m w).2.asked = w.asked ++ new ∧ (∀ e ∈ new, ¬J.excused e) ∧ ¬RepliedOnce w (m w)

/-- As `Exact`, where the value has `N` in any case. -/
def Spoilt (N : α → Prop) (m : Prog σ Q A R α) : Prop :=
  ∀ w, ∃ new, (m w).2.asked = w.asked ++ new ∧ (m w).2.replies = w.replies ∧
    ((∃ e ∈ new, J.excused e) ↔ (m w).1 = .throw) ∧
    ((m w).1 ≠ .throw → (m w).1 = .crash ∨ ∃ a, (m w).1 = .ret a ∧ N a)

variable {J}

section Runs

variable {m : Prog σ Q A R α} {f : α → Prog σ Q A R β} {w : Dialogue σ Q A R}

theorem bind_ret {a : α} (hm : (m w).1 = .ret a) : (m >>= f) w = f a (m w).2 := by
  show andThen (m w) f = _
  rw [← Prod.eta (m w), hm]
  rfl

theorem bind_throw (hm : (m w).1 = .throw) : (m >>= f) w = (.throw, (m w).2) := by
  show andThen (m w) f = _
  rw [← Prod.eta (m w), hm]
  rfl

theorem bind_crash (hm : (m w).1 = .crash) : (m >>= f) w = (.crash, (m w).2) := by
  show andThen (m w) f = _
  rw [← Prod.eta (m w), hm]
  rfl

theorem bind_bind {γ : Type} (m : Prog σ Q A R α) (f : α → Prog σ Q A R β)
    (g : β → Prog σ Q A R γ) : (m >>= f) >>= g = m >>= fun a => f a >>= g := by
  funext w
  show andThen (andThen (m w) f) g = andThen (m w) fun a => f a >>= g
  cases hm : m w with
  | mk exit w' => cases exit <;> rfl

theorem pure_bind (a : α) (f : α → Prog σ Q A R β) : (pure a : Prog σ Q A R α) >>= f = f a := rfl

end Runs

/-! ## No reply -/

private theorem exists_mem_append_right {p : Q × A → Prop} {l l' : List (Q × A)}
    (h : ¬∃ e ∈ l, p e) : (∃ e ∈ l ++ l', p e) ↔ ∃ e ∈ l', p e := by
  constructor
  · rintro ⟨e, he, hp⟩
    obtain he | he := List.mem_append.1 he
    · exact absurd ⟨e, he, hp⟩ h
    · exact ⟨e, he, hp⟩
  · rintro ⟨e, he, hp⟩
    exact ⟨e, List.mem_append_right _ he, hp⟩

section Sound

variable {P : α → Prop} {P' : β → Prop} {m : Prog σ Q A R α} {f : α → Prog σ Q A R β}

theorem Sound.mono {P₁ : α → Prop} (h : Sound J P m) (hle : ∀ a, P a → P₁ a) : Sound J P₁ m := by
  intro w
  obtain ⟨new, hasked, hreplies, hexcused, hgood, hret⟩ := h w
  exact ⟨new, hasked, hreplies, hexcused, hgood, fun a ha => hle a (hret a ha)⟩

theorem sound_pure {a : α} (h : P a) : Sound J P (pure a : Prog σ Q A R α) := fun w =>
  ⟨[], (List.append_nil _).symm, rfl, by simp, by simp [pure], fun b hb => by
    cases hb
    exact h⟩

theorem sound_throw : Sound J P (throw : Prog σ Q A R α) := fun w =>
  ⟨[], (List.append_nil _).symm, rfl, by simp, by simp [throw], fun b hb => by cases hb⟩

theorem sound_get : Sound J (fun _ => True) (get : Prog σ Q A R σ) := fun w =>
  ⟨[], (List.append_nil _).symm, rfl, by simp, by simp [get], fun _ _ => trivial⟩

theorem sound_modify (g : σ → σ) : Sound J (fun _ => True) (modify g : Prog σ Q A R Unit) :=
  fun w => ⟨[], (List.append_nil _).symm, rfl, by simp, by simp [modify], fun _ _ => trivial⟩

theorem Sound.bind (hm : Sound J P m) (hf : ∀ a, P a → Sound J P' (f a)) :
    Sound J P' (m >>= f) := by
  intro w
  obtain ⟨new, hasked, hreplies, hexcused, hgood, hret⟩ := hm w
  cases hexit : (m w).1 with
  | ret a =>
    obtain ⟨new', hasked', hreplies', hexcused', hgood', hret'⟩ := hf a (hret a hexit) (m w).2
    rw [bind_ret hexit]
    have hall : ∀ e ∈ new, J.good e := hgood.2 (by simp [hexit])
    refine ⟨new ++ new', ?_, hreplies'.trans hreplies, ?_, ?_, hret'⟩
    · rw [hasked', hasked, List.append_assoc]
    · intro e he
      exact (List.mem_append.1 he).elim (hexcused e) (hexcused' e)
    · rw [← hgood']
      exact ⟨fun h e he => h e (List.mem_append_right _ he),
        fun h e he => (List.mem_append.1 he).elim (hall e) (h e)⟩
  | throw =>
    rw [bind_throw hexit]
    exact ⟨new, hasked, hreplies, hexcused, by simpa [hexit] using hgood, fun b hb => by cases hb⟩
  | crash =>
    rw [bind_crash hexit]
    exact ⟨new, hasked, hreplies, hexcused, by simpa [hexit] using hgood, fun b hb => by cases hb⟩

theorem Sound.discard (hm : Sound J P m) : Sound J (fun _ => True) (discard m) :=
  hm.bind fun _ _ => sound_pure trivial

theorem Sound.collect {T : β → Prop} {l : List α} (h : ∀ a ∈ l, Sound J T (f a)) :
    Sound J (fun _ => True) (collect f l) := by
  induction l with
  | nil => exact sound_pure trivial
  | cons x xs ih =>
    refine (h x (List.mem_cons_self ..)).bind fun b _ => ?_
    refine (ih fun a ha => h a (List.mem_cons_of_mem _ ha)).bind fun bs _ => ?_
    exact sound_pure trivial

end Sound

/-! ## No way on -/

section Fails

variable {L : Prop} {m : Prog σ Q A R α} {f : α → Prog σ Q A R β}

theorem fails_crash : Fails L (crash : Prog σ Q A R α) := fun _ => ⟨rfl, rfl, .inl rfl⟩

theorem fails_pure (h : L) (a : α) : Fails L (pure a : Prog σ Q A R α) :=
  fun _ => ⟨rfl, rfl, .inr ⟨h, a, rfl⟩⟩

theorem Fails.bind (hm : Fails False m) : Fails L (m >>= f) := by
  intro w
  obtain ⟨hasked, hreplies, hcrash | ⟨hf, -⟩⟩ := hm w
  · rw [bind_crash hcrash]
    exact ⟨hasked, hreplies, .inl rfl⟩
  · exact hf.elim

end Fails

/-! ## One reply -/

section Answers

variable {L : Prop} {P : α → Prop} {m : Prog σ Q A R α} {f : α → Prog σ Q A R β}

theorem answers_reply (r : R) : Answers J L (reply r : Prog σ Q A R Unit) := fun w =>
  ⟨[], (List.append_nil _).symm, by simp, fun _ => by simp [RepliedOnce, reply], by simp⟩

theorem Sound.answers (hm : Sound J P m) (hf : ∀ a, P a → Answers J L (f a)) :
    Answers J L (m >>= f) := by
  intro w
  obtain ⟨new, hasked, hreplies, hexcused, hgood, hret⟩ := hm w
  cases hexit : (m w).1 with
  | ret a =>
    obtain ⟨new', hasked', hexcused', honce, hlost⟩ := hf a (hret a hexit) (m w).2
    rw [bind_ret hexit]
    have hall : ∀ e ∈ new, J.good e := hgood.2 (by simp [hexit])
    refine ⟨new ++ new', ?_, ?_, fun h => ?_, fun ⟨e, he, hbad⟩ => ?_⟩
    · rw [hasked', hasked, List.append_assoc]
    · intro e he
      exact (List.mem_append.1 he).elim (hexcused e) (hexcused' e)
    · have := honce fun e he => h e (List.mem_append_right _ he)
      rwa [RepliedOnce, hreplies] at this
    · obtain he | he := List.mem_append.1 he
      · exact absurd (hall e he) hbad
      · rw [← hreplies]
        exact hlost ⟨e, he, hbad⟩
  | throw =>
    rw [bind_throw hexit]
    refine ⟨new, hasked, hexcused, fun _ => ?_, fun ⟨e, he, hbad⟩ => ?_⟩
    · exact congrArg List.length hreplies
    · exact absurd (hgood.2 (by simp [hexit]) e he) hbad
  | crash =>
    rw [bind_crash hexit]
    refine ⟨new, hasked, hexcused, fun h => ?_, fun _ => .inl rfl⟩
    exact absurd hexit (hgood.1 h)

theorem answers_throw : Answers J L (throw : Prog σ Q A R α) := fun _ =>
  ⟨[], (List.append_nil _).symm, by simp, fun _ => rfl, by simp⟩

theorem answers_get {f : σ → Prog σ Q A R β} (hf : ∀ s, Answers J L (f s)) :
    Answers J L (get >>= f) :=
  fun w => hf w.state w

theorem answers_ask {q : Q} {f : A → Prog σ Q A R β} (hexcused : ∀ a, ¬J.excused (q, a))
    (hgood : ∀ a, J.good (q, a) → Answers J L (f a))
    (hbad : ∀ a, ¬J.good (q, a) → Fails L (f a)) : Answers J L (ask q >>= f) := by
  intro w
  show ∃ new, (f (w.answers w.asked.length) (ask q w).2).2.asked = _ ∧ _
  by_cases hq : J.good (q, w.answers w.asked.length)
  · obtain ⟨new, hasked, hex, honce, hlost⟩ := hgood _ hq (ask q w).2
    refine ⟨_ :: new, hasked.trans (List.append_assoc ..), ?_, fun h => ?_, fun ⟨e, he, hbad⟩ => ?_⟩
    · intro e he
      obtain rfl | he := List.mem_cons.1 he
      · exact hexcused _
      · exact hex e he
    · exact honce fun e he => h e (List.mem_cons_of_mem _ he)
    · obtain rfl | he := List.mem_cons.1 he
      · exact absurd hq hbad
      · exact hlost ⟨e, he, hbad⟩
  · obtain ⟨hasked, hreplies, hend⟩ := hbad _ hq (ask q w).2
    refine ⟨[_], hasked, by simpa using hexcused _, fun h => ?_, fun _ => ?_⟩
    · exact absurd (h _ (List.mem_singleton_self _)) hq
    · exact hend.imp id fun ⟨hl, hret⟩ => ⟨hl, hreplies, hret⟩

/-- With nothing excused in it, a conversation is good exactly if the reply
comes. -/
theorem Answers.repliedOnce (h : Answers J L m) (w : Dialogue σ Q A R) :
    ∃ new, (m w).2.asked = w.asked ++ new ∧ (∀ e ∈ new, ¬J.excused e) ∧
      ((∀ e ∈ new, J.good e) ↔ RepliedOnce w (m w)) := by
  obtain ⟨new, hasked, hexcused, honce, hlost⟩ := h w
  refine ⟨new, hasked, hexcused, honce, fun hrep e he => ?_⟩
  by_contra hbad
  obtain hcrash | ⟨-, hreplies, a, ha⟩ := hlost ⟨e, he, hbad⟩
  · simp [RepliedOnce, hcrash] at hrep
  · simp [RepliedOnce, ha, hreplies] at hrep

theorem Answers.fair (h : Answers J L m) : Fair J m := by
  intro w
  obtain ⟨new, hasked, hexcused, honce⟩ := h.repliedOnce w
  refine ⟨new, hasked, ?_⟩
  rw [← honce]
  exact or_iff_right fun ⟨e, he, hx⟩ => hexcused e he hx

/-- A reply before the reply. -/
theorem Answers.neverOnce (h : Answers J False m) (r : R) :
    NeverOnce J (reply r >>= fun _ => m) := by
  intro w
  obtain ⟨new, hasked, hexcused, honce, hlost⟩ := h (reply r w).2
  refine ⟨new, hasked, hexcused, fun hrep => ?_⟩
  have hrun : (reply r >>= fun _ => m) w = m (reply r w).2 := rfl
  have hlen : (reply r w).2.replies.length = w.replies.length + 1 := by simp [reply]
  rw [hrun] at hrep
  by_cases hall : ∀ e ∈ new, J.good e
  · have hrep' := honce hall
    unfold RepliedOnce at hrep hrep'
    cases hexit : (m (reply r w).2).1 with
    | crash =>
      rw [hexit] at hrep
      exact hrep
    | throw | ret _ =>
      rw [hexit] at hrep hrep'
      dsimp only at hrep hrep'
      omega
  · obtain hcrash | ⟨hf, -⟩ := hlost (by simpa using hall)
    · simp [RepliedOnce, hcrash] at hrep
    · exact hf

theorem Sound.fair (hm : Sound J P m) (hf : ∀ a, P a → Fair J (f a)) : Fair J (m >>= f) := by
  intro w
  obtain ⟨new, hasked, hreplies, hexcused, hgood, hret⟩ := hm w
  cases hexit : (m w).1 with
  | ret a =>
    obtain ⟨new', hasked', honce⟩ := hf a (hret a hexit) (m w).2
    rw [bind_ret hexit]
    have hall : ∀ e ∈ new, J.good e := hgood.2 (by simp [hexit])
    refine ⟨new ++ new', by rw [hasked', hasked, List.append_assoc], ?_⟩
    rw [RepliedOnce, hreplies] at honce
    rw [RepliedOnce, ← honce, exists_mem_append_right fun ⟨e, he, hx⟩ => hexcused e he hx]
    rw [List.forall_mem_append, and_iff_right hall]
  | throw =>
    rw [bind_throw hexit]
    refine ⟨new, hasked, iff_of_true (.inr (hgood.2 (by simp [hexit]))) ?_⟩
    exact congrArg List.length hreplies
  | crash =>
    rw [bind_crash hexit]
    refine ⟨new, hasked, iff_of_false ?_ id⟩
    rintro (⟨e, he, hx⟩ | h)
    · exact hexcused e he hx
    · exact hgood.1 h hexit

end Answers

theorem sound_ask {P : β → Prop} {q : Q} {f : A → Prog σ Q A R β}
    (hexcused : ∀ a, ¬J.excused (q, a)) (hgood : ∀ a, J.good (q, a) → Sound J P (f a))
    (hbad : ∀ a, ¬J.good (q, a) → Fails False (f a)) : Sound J P (ask q >>= f) := by
  intro w
  show ∃ new, (f (w.answers w.asked.length) (ask q w).2).2.asked = _ ∧ _
  by_cases hq : J.good (q, w.answers w.asked.length)
  · obtain ⟨new, hasked, hreplies, hex, hall, hret⟩ := hgood _ hq (ask q w).2
    refine ⟨_ :: new, hasked.trans (List.append_assoc ..), hreplies, ?_, ?_, hret⟩
    · intro e he
      obtain rfl | he := List.mem_cons.1 he
      · exact hexcused _
      · exact hex e he
    · rw [List.forall_mem_cons]
      exact ⟨fun h => hall.1 h.2, fun h => ⟨hq, hall.2 h⟩⟩
  · obtain ⟨hasked, hreplies, hcrash | ⟨hf, -⟩⟩ := hbad _ hq (ask q w).2
    · refine ⟨[_], hasked, hreplies, by simpa using hexcused _, ?_, fun b hb => ?_⟩
      · exact ⟨fun h => absurd (h _ (List.mem_singleton_self _)) hq, fun h => absurd hcrash h⟩
      · exact absurd (hcrash.symm.trans hb) (by simp)
    · exact hf.elim

/-! ## Success or failure -/

/-- The program throws, without a question or a reply. -/
def Raises (m : Prog σ Q A R α) : Prop :=
  ∀ w, (m w).1 = .throw ∧ (m w).2.asked = w.asked ∧ (m w).2.replies = w.replies

theorem raises_throw : Raises (throw : Prog σ Q A R α) := fun _ => ⟨rfl, rfl, rfl⟩

theorem Raises.bind {m : Prog σ Q A R α} {f : α → Prog σ Q A R β} (h : Raises m) :
    Raises (m >>= f) := by
  intro w
  obtain ⟨hexit, hasked, hreplies⟩ := h w
  rw [bind_throw hexit]
  exact ⟨rfl, hasked, hreplies⟩

section Exact

variable {P N : α → Prop} {P' N' : β → Prop} {m : Prog σ Q A R α} {f : α → Prog σ Q A R β}

theorem spoilt_pure {a : α} (h : N a) : Spoilt J N (pure a : Prog σ Q A R α) := fun _ =>
  ⟨[], (List.append_nil _).symm, rfl, by simp [pure], fun _ => .inr ⟨a, rfl, h⟩⟩

theorem spoilt_crash : Spoilt J N (crash : Prog σ Q A R α) := fun _ =>
  ⟨[], (List.append_nil _).symm, rfl, by simp [crash], fun _ => .inl rfl⟩

theorem exact_pure {a : α} (h : P a) : Exact J P N (pure a : Prog σ Q A R α) := fun _ =>
  ⟨[], (List.append_nil _).symm, rfl, by simp [pure], fun _ _ => ⟨a, rfl, h⟩, by simp⟩

theorem exact_get {f : σ → Prog σ Q A R β} (hf : ∀ s, Exact J P' N' (f s)) :
    Exact J P' N' (get >>= f) :=
  fun w => hf w.state w

theorem Exact.bind (hm : Exact J P N m) (hP : ∀ a, P a → Exact J P' N' (f a))
    (hN : ∀ a, N a → Spoilt J N' (f a)) : Exact J P' N' (m >>= f) := by
  intro w
  obtain ⟨new, hasked, hreplies, hthrow, hgood, hbad⟩ := hm w
  cases hexit : (m w).1 with
  | throw =>
    rw [bind_throw hexit]
    exact ⟨new, hasked, hreplies, by simpa [hexit] using hthrow, by simp, by simp⟩
  | crash =>
    rw [bind_crash hexit]
    refine ⟨new, hasked, hreplies, by simpa [hexit] using hthrow, fun _ h => ?_, fun _ _ => .inl rfl⟩
    obtain ⟨a, ha, -⟩ := hgood (by simp [hexit]) h
    exact absurd (hexit.symm.trans ha) (by simp)
  | ret a =>
    rw [bind_ret hexit]
    have hno : ¬∃ e ∈ new, J.excused e := by simp [hthrow, hexit]
    by_cases hall : ∀ e ∈ new, J.good e
    · obtain ⟨b, hb, hPb⟩ := hgood (by simp [hexit]) hall
      obtain rfl : a = b := by simpa using hexit.symm.trans hb
      obtain ⟨new', hasked', hreplies', hthrow', hgood', hbad'⟩ := hP a hPb (m w).2
      refine ⟨new ++ new', ?_, hreplies'.trans hreplies, ?_, fun ht h => ?_, fun ht h => ?_⟩
      · rw [hasked', hasked, List.append_assoc]
      · rw [exists_mem_append_right hno, hthrow']
      · exact hgood' ht fun e he => h e (List.mem_append_right _ he)
      · obtain ⟨e, he, hb⟩ := h
        obtain he | he := List.mem_append.1 he
        · exact absurd (hall e he) hb
        · exact hbad' ht ⟨e, he, hb⟩
    · have hsome : ∃ e ∈ new, ¬J.good e := by simpa using hall
      obtain hc | ⟨b, hb, hNb⟩ := hbad (by simp [hexit]) hsome
      · exact absurd (hexit.symm.trans hc) (by simp)
      obtain rfl : a = b := by simpa using hexit.symm.trans hb
      obtain ⟨new', hasked', hreplies', hthrow', hend⟩ := hN a hNb (m w).2
      refine ⟨new ++ new', ?_, hreplies'.trans hreplies, ?_, fun ht h => ?_, fun ht _ => hend ht⟩
      · rw [hasked', hasked, List.append_assoc]
      · rw [exists_mem_append_right hno, hthrow']
      · exact absurd (fun e he => h e (List.mem_append_left _ he)) hall

/-- What follows a success or a failure, where the failure has one reply too
many. -/
theorem Exact.fair {L : Prop} (hm : Exact J P N m) (hP : ∀ a, P a → Answers J L (f a))
    (hN : ∀ a, N a → NeverOnce J (f a)) : Fair J (m >>= f) := by
  intro w
  obtain ⟨new, hasked, hreplies, hthrow, hgood, hbad⟩ := hm w
  cases hexit : (m w).1 with
  | throw =>
    rw [bind_throw hexit]
    exact ⟨new, hasked, iff_of_true (.inl (hthrow.2 hexit)) (congrArg List.length hreplies)⟩
  | crash =>
    rw [bind_crash hexit]
    refine ⟨new, hasked, iff_of_false ?_ id⟩
    rintro (hx | h)
    · exact absurd (hexit.symm.trans (hthrow.1 hx)) (by simp)
    · obtain ⟨a, ha, -⟩ := hgood (by simp [hexit]) h
      exact absurd (hexit.symm.trans ha) (by simp)
  | ret a =>
    rw [bind_ret hexit]
    have hno : ¬∃ e ∈ new, J.excused e := by simp [hthrow, hexit]
    by_cases hall : ∀ e ∈ new, J.good e
    · obtain ⟨b, hb, hPb⟩ := hgood (by simp [hexit]) hall
      obtain rfl : a = b := by simpa using hexit.symm.trans hb
      obtain ⟨new', hasked', honce⟩ := (hP a hPb).fair (m w).2
      refine ⟨new ++ new', by rw [hasked', hasked, List.append_assoc], ?_⟩
      rw [RepliedOnce, hreplies] at honce
      rw [RepliedOnce, ← honce, exists_mem_append_right hno]
      rw [List.forall_mem_append, and_iff_right hall]
    · obtain hc | ⟨b, hb, hNb⟩ := hbad (by simp [hexit]) (by simpa using hall)
      · exact absurd (hexit.symm.trans hc) (by simp)
      obtain rfl : a = b := by simpa using hexit.symm.trans hb
      obtain ⟨new', hasked', hexcused', hnever⟩ := hN a hNb (m w).2
      rw [RepliedOnce, hreplies] at hnever
      refine ⟨new ++ new', by rw [hasked', hasked, List.append_assoc], iff_of_false ?_ hnever⟩
      rw [exists_mem_append_right hno]
      rintro (⟨e, he, hx⟩ | h)
      · exact hexcused' e he hx
      · exact hall fun e he => h e (List.mem_append_left _ he)

theorem spoilt_ask {q : Q} {f : A → Prog σ Q A R β}
    (hexcused : ∀ a, J.excused (q, a) → Raises (f a))
    (hf : ∀ a, ¬J.excused (q, a) → Spoilt J N' (f a)) : Spoilt J N' (ask q >>= f) := by
  intro w
  show ∃ new, (f (w.answers w.asked.length) (ask q w).2).2.asked = _ ∧ _
  by_cases hx : J.excused (q, w.answers w.asked.length)
  · obtain ⟨hexit, hasked, hreplies⟩ := hexcused _ hx (ask q w).2
    exact ⟨[_], hasked, hreplies, iff_of_true ⟨_, List.mem_singleton_self _, hx⟩ hexit,
      fun h => absurd hexit h⟩
  · obtain ⟨new, hasked, hreplies, hthrow, hend⟩ := hf _ hx (ask q w).2
    refine ⟨[_] ++ new, hasked.trans (List.append_assoc ..), hreplies, ?_, hend⟩
    rw [exists_mem_append_right (by simpa using hx)]
    exact hthrow

theorem exact_ask {q : Q} {f : A → Prog σ Q A R β}
    (hexcused : ∀ a, J.excused (q, a) → Raises (f a))
    (hgood : ∀ a, ¬J.excused (q, a) → J.good (q, a) → Exact J P' N' (f a))
    (hbad : ∀ a, ¬J.excused (q, a) → ¬J.good (q, a) → Spoilt J N' (f a)) :
    Exact J P' N' (ask q >>= f) := by
  intro w
  show ∃ new, (f (w.answers w.asked.length) (ask q w).2).2.asked = _ ∧ _
  by_cases hx : J.excused (q, w.answers w.asked.length)
  · obtain ⟨hexit, hasked, hreplies⟩ := hexcused _ hx (ask q w).2
    exact ⟨[_], hasked, hreplies, iff_of_true ⟨_, List.mem_singleton_self _, hx⟩ hexit,
      fun h => absurd hexit h, fun h => absurd hexit h⟩
  have hnone : ¬∃ e ∈ [(q, w.answers w.asked.length)], J.excused e := by simpa using hx
  by_cases hq : J.good (q, w.answers w.asked.length)
  · obtain ⟨new, hasked, hreplies, hthrow, hok, hno⟩ := hgood _ hx hq (ask q w).2
    refine ⟨[_] ++ new, hasked.trans (List.append_assoc ..), hreplies, ?_, fun ht h => ?_,
      fun ht h => ?_⟩
    · rw [exists_mem_append_right hnone]
      exact hthrow
    · exact hok ht fun e he => h e (List.mem_append_right _ he)
    · exact hno ht ((exists_mem_append_right (by simpa using hq)).1 h)
  · obtain ⟨new, hasked, hreplies, hthrow, hend⟩ := hbad _ hx hq (ask q w).2
    refine ⟨[_] ++ new, hasked.trans (List.append_assoc ..), hreplies, ?_, fun _ h => ?_,
      fun ht _ => hend ht⟩
    · rw [exists_mem_append_right hnone]
      exact hthrow
    · exact absurd (h _ (List.mem_append_left _ (List.mem_singleton_self _))) hq

end Exact

end Prog

end Dirtsand.Lib
