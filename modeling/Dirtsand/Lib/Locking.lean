import Mathlib.Data.List.Basic

/-!
# Threads that take mutexes and throw

A `Code` is what one thread does with what it shares with others: it locks and
unlocks, reads and writes, asks for what comes from outside, and ends with a
value or with an exception.  A lock can be taken by hand, or by a guard that
gives it back at both ends (`guarded`).

* `Keeps.handle`, `Keeps.guarded`, `Keeps.forEach` — the rules for what a thread
  holds at its two ends.
* `Keeps.step` — what is so of the code of a thread is so after each step, as
  long as its calls are made where they may be.
* `Thread.step_call` — a call that fails leaves the thread with what it held.
-/

namespace Dirtsand.Lib.Locking

/-- The code of a thread over mutexes `μ`, shared state `σ`, answers `A` and exceptions `ε`.
`call ok f e k` is a call with a precondition: it has the effect `f`, and throws `e` where `ok`
does not hold.  At `halt` the process is gone. -/
inductive Code (μ σ A ε α : Type) : Type where
  | ret (a : α)
  | exc (e : ε)
  | halt
  | lock (m : μ) (k : Code μ σ A ε α)
  | unlock (m : μ) (k : Code μ σ A ε α)
  | read (k : σ → Code μ σ A ε α)
  | write (f : σ → σ) (k : Code μ σ A ε α)
  | call (ok : σ → Bool) (f : σ → σ) (e : ε) (k : Code μ σ A ε α)
  | ask (k : A → Code μ σ A ε α)

namespace Code

variable {μ σ A ε α β γ : Type}

/-- Goes on with `k` after a return, with `h` after an exception. -/
def handle (k : α → Code μ σ A ε β) (h : ε → Code μ σ A ε β) :
    Code μ σ A ε α → Code μ σ A ε β
  | ret a => k a
  | exc e => h e
  | halt => halt
  | lock m c => lock m (handle k h c)
  | unlock m c => unlock m (handle k h c)
  | read c => read fun s => handle k h (c s)
  | write f c => write f (handle k h c)
  | call ok f e c => call ok f e (handle k h c)
  | ask c => ask fun a => handle k h (c a)

instance : Monad (Code μ σ A ε) where
  pure := ret
  bind c k := c.handle k exc

/-- A call that can only be left at its end. -/
def ended : Code μ σ A ε α → Bool
  | ret _ => true
  | exc _ => true
  | _ => false

/-- The next thing that the code does is a call with a precondition. -/
def isCall : Code μ σ A ε α → Bool
  | call .. => true
  | _ => false

end Code

section Parts

variable {μ σ A ε α β : Type}

def lock (m : μ) : Code μ σ A ε Unit := .lock m (.ret ())

def unlock (m : μ) : Code μ σ A ε Unit := .unlock m (.ret ())

def state : Code μ σ A ε σ := .read .ret

def update (f : σ → σ) : Code μ σ A ε Unit := .write f (.ret ())

def answer : Code μ σ A ε A := .ask .ret

/-- A lock guard: `m` is held in `c`, and given back where `c` ends. -/
def guarded (m : μ) (c : Code μ σ A ε α) : Code μ σ A ε α :=
  .lock m (c.handle (fun a => .unlock m (.ret a)) fun e => .unlock m (.exc e))

def catching (c : Code μ σ A ε α) (h : ε → Code μ σ A ε α) : Code μ σ A ε α :=
  c.handle .ret h

def onlyIf (p : Prop) [Decidable p] (c : Code μ σ A ε Unit) : Code μ σ A ε Unit :=
  if p then c else .ret ()

def forEach (f : β → Code μ σ A ε Unit) : List β → Code μ σ A ε Unit
  | [] => .ret ()
  | b :: bs => do
    f b
    forEach f bs

end Parts

/-! ## Threads -/

/-- A thread in the middle of its code, with what it has locked. -/
structure Thread (μ σ A ε α : Type) where
  code : Code μ σ A ε α
  held : List μ := []

section Threads

variable {μ σ A ε α : Type} [DecidableEq μ]

/-- One step of a thread, if it can go on: nobody may hold what it locks, itself included. -/
def Thread.step (free : μ → Bool) (s : σ) (a : A) (t : Thread μ σ A ε α) :
    Option (σ × Thread μ σ A ε α) :=
  match t.code with
  | .ret _ => none
  | .exc _ => none
  | .halt => none
  | .lock m c => if free m then some (s, ⟨c, m :: t.held⟩) else none
  | .unlock m c => some (s, ⟨c, t.held.erase m⟩)
  | .read c => some (s, ⟨c s, t.held⟩)
  | .write f c => some (f s, ⟨c, t.held⟩)
  | .call ok f e c => some (f s, ⟨if ok s then c else .exc e, t.held⟩)
  | .ask c => some (s, ⟨c a, t.held⟩)

/-- A call that fails leaves the thread at its end, with what it held. -/
theorem Thread.step_call {free : μ → Bool} {s : σ} {a : A} {ok : σ → Bool} {f : σ → σ} {e : ε}
    {c : Code μ σ A ε α} {held : List μ} (h : ok s = false) :
    (⟨.call ok f e c, held⟩ : Thread μ σ A ε α).step free s a = some (f s, ⟨.exc e, held⟩) := by
  simp [Thread.step, h]

end Threads

/-! ## What is held at the end -/

/-- The calls that there are and what is held at them, where they may be made, and what is to be
so of the shared state all the time. -/
structure Rules (μ σ : Type) where
  call : List μ → (σ → Bool) → (σ → σ) → Prop
  mayCall : σ → Prop
  good : σ → Prop
  safe : ∀ {held ok f s}, call held ok f → mayCall s → ok s = true ∧ (good s → good (f s))

section Keeping

variable {μ σ A ε α β : Type} [DecidableEq μ] (R : Rules μ σ)

/-- The code starts with some mutexes locked, and ends with `atRet` or `atExc` locked.  What it
writes is good, and it has no other calls than there are to be. -/
def Keeps (atRet atExc : List μ) : List μ → Code μ σ A ε α → Prop
  | held, .ret _ => held = atRet
  | held, .exc _ => held = atExc
  | _, .halt => True
  | held, .lock m c => Keeps atRet atExc (m :: held) c
  | held, .unlock m c => Keeps atRet atExc (held.erase m) c
  | held, .read c => ∀ s, Keeps atRet atExc held (c s)
  | held, .write f c => (∀ s, R.good s → R.good (f s)) ∧ Keeps atRet atExc held c
  | held, .call ok f _ c => R.call held ok f ∧ Keeps atRet atExc held c
  | held, .ask c => ∀ a, Keeps atRet atExc held (c a)

/-- Whatever was locked before is locked at both ends, and nothing else. -/
def Balanced (c : Code μ σ A ε α) : Prop :=
  ∀ held, Keeps R held held held c

variable {R}

theorem Keeps.handle {atRet atExc atRet' atExc' : List μ} {k : α → Code μ σ A ε β}
    {h : ε → Code μ σ A ε β} (hk : ∀ a, Keeps R atRet' atExc' atRet (k a))
    (hh : ∀ e, Keeps R atRet' atExc' atExc (h e)) {c : Code μ σ A ε α} {held : List μ}
    (hc : Keeps R atRet atExc held c) : Keeps R atRet' atExc' held (c.handle k h) := by
  induction c generalizing held with
  | ret a =>
    obtain rfl : held = atRet := hc
    exact hk a
  | exc e =>
    obtain rfl : held = atExc := hc
    exact hh e
  | halt => trivial
  | lock m c ih => exact ih hc
  | unlock m c ih => exact ih hc
  | read c ih => exact fun s => ih s (hc s)
  | write f c ih => exact ⟨hc.1, ih hc.2⟩
  | call ok f e c ih => exact ⟨hc.1, ih hc.2⟩
  | ask c ih => exact fun a => ih a (hc a)

/-- Code and what comes after it. -/
theorem Keeps.bind {atRet atRet' atExc held : List μ} {c : Code μ σ A ε α}
    {k : α → Code μ σ A ε β} (hc : Keeps R atRet atExc held c)
    (hk : ∀ a, Keeps R atRet' atExc atRet (k a)) : Keeps R atRet' atExc held (c >>= k) := by
  refine Keeps.handle hk (fun e => ?_) hc
  exact (rfl : atExc = atExc)

theorem balanced_ret (a : α) : Balanced R (.ret a : Code μ σ A ε α) := fun _ => rfl

theorem balanced_exc (e : ε) : Balanced R (.exc e : Code μ σ A ε α) := fun _ => rfl

theorem balanced_halt : Balanced R (.halt : Code μ σ A ε α) := fun _ => trivial

theorem balanced_state : Balanced R (state : Code μ σ A ε σ) := fun _ _ => rfl

theorem balanced_answer : Balanced R (answer : Code μ σ A ε A) := fun _ _ => rfl

theorem balanced_update {f : σ → σ} (h : ∀ s, R.good s → R.good (f s)) :
    Balanced R (update f : Code μ σ A ε Unit) := fun _ => ⟨h, rfl⟩

theorem Balanced.bind {c : Code μ σ A ε α} {k : α → Code μ σ A ε β} (hc : Balanced R c)
    (hk : ∀ a, Balanced R (k a)) : Balanced R (c >>= k) :=
  fun held => (hc held).bind fun a => hk a held

theorem Balanced.ite {p : Prop} [Decidable p] {c d : Code μ σ A ε α} (hc : Balanced R c)
    (hd : Balanced R d) : Balanced R (if p then c else d) := by
  split
  · exact hc
  · exact hd

theorem Balanced.onlyIf {p : Prop} [Decidable p] {c : Code μ σ A ε Unit} (hc : Balanced R c) :
    Balanced R (onlyIf p c) :=
  hc.ite (balanced_ret ())

theorem Balanced.catching {c : Code μ σ A ε α} {h : ε → Code μ σ A ε α} (hc : Balanced R c)
    (hh : ∀ e, Balanced R (h e)) : Balanced R (catching c h) := by
  intro held
  refine Keeps.handle (fun a => ?_) (fun e => hh e held) (hc held)
  exact (rfl : held = held)

/-- **A guard gives back what it locks**, at a return and at an exception. -/
theorem Balanced.guarded {c : Code μ σ A ε α} (hc : Balanced R c) (m : μ) :
    Balanced R (guarded m c) := by
  intro held
  have herase : (m :: held).erase m = held := List.erase_cons_head m held
  refine Keeps.handle (fun a => ?_) (fun e => ?_) (hc (m :: held))
  · exact herase
  · exact herase

theorem balanced_forEach {f : β → Code μ σ A ε Unit} (hf : ∀ b, Balanced R (f b)) (bs : List β) :
    Balanced R (forEach f bs) := by
  induction bs with
  | nil => exact balanced_ret ()
  | cons b bs ih => exact (hf b).bind fun _ => ih

/-- A mutex that is locked and unlocked by hand, around code that does not throw.  It may throw
where it holds the mutex no longer, or does not hold it yet. -/
theorem balanced_section {m : μ} {c : Code μ σ A ε α} {k : α → Code μ σ A ε β}
    (hc : ∀ held, Keeps R (m :: held) held (m :: held) c) (hk : ∀ a, Balanced R (k a)) :
    Balanced R (do lock m; let a ← c; unlock m; k a) := by
  intro held
  have herase : (m :: held).erase m = held := List.erase_cons_head m held
  have hlock : Keeps R (m :: held) held held (lock m : Code μ σ A ε Unit) := rfl
  have hunlock : Keeps R held held (m :: held) (unlock m : Code μ σ A ε Unit) := herase
  refine hlock.bind fun _ => (hc held).bind fun a => hunlock.bind fun _ => ?_
  exact hk a held

/-- **What one step keeps.** -/
theorem Keeps.step {free : μ → Bool} {s s' : σ} {a : A} {t t' : Thread μ σ A ε α}
    {atRet atExc : List μ} (h : Keeps R atRet atExc t.held t.code) (hs : R.good s)
    (hcall : t.code.isCall = true → R.mayCall s) (hstep : t.step free s a = some (s', t')) :
    Keeps R atRet atExc t'.held t'.code ∧ R.good s' := by
  obtain ⟨code, held⟩ := t
  cases code with
  | ret a => cases hstep
  | exc e => cases hstep
  | halt => cases hstep
  | lock m c =>
    change (if free m = true then some (s, ⟨c, m :: held⟩) else none) = some (s', t') at hstep
    by_cases hfree : free m = true
    · rw [if_pos hfree] at hstep
      cases hstep
      exact ⟨h, hs⟩
    · rw [if_neg hfree] at hstep
      cases hstep
  | unlock m c =>
    cases hstep
    exact ⟨h, hs⟩
  | read c =>
    cases hstep
    exact ⟨h s, hs⟩
  | write f c =>
    cases hstep
    exact ⟨h.2, h.1 s hs⟩
  | call ok f e c =>
    obtain ⟨hok, hgood⟩ := R.safe h.1 (hcall rfl)
    cases hstep
    rw [if_pos hok]
    exact ⟨h.2, hgood hs⟩
  | ask c =>
    cases hstep
    exact ⟨h a, hs⟩

/-- At a call the code holds what is to be held there. -/
theorem Keeps.call_of_isCall {atRet atExc held : List μ} {c : Code μ σ A ε α}
    (h : Keeps R atRet atExc held c) (hcall : c.isCall = true) :
    ∃ ok f e k, c = .call ok f e k ∧ R.call held ok f := by
  cases c with
  | call ok f e k => exact ⟨ok, f, e, k, rfl, h.1⟩
  | _ => cases hcall

/-- At its end the code holds what it is said to hold there. -/
theorem Keeps.held_of_ended {both held : List μ} {c : Code μ σ A ε α}
    (h : Keeps R both both held c) (hend : c.ended = true) : held = both := by
  cases c with
  | ret a => exact h
  | exc e => exact h
  | _ => cases hend

end Keeping

end Dirtsand.Lib.Locking
