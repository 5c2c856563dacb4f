import Mathlib.Data.List.Basic
import Mathlib.Tactic

/-!
# Readers of bytes

A `Reader` takes bytes off the front of a list, or fails.  Three judgements about
readers are carried through binds and loops.

* `Reads r bytes a` — `r` reads `a` off `bytes`, whatever follows them.  This is
  what a writer has to meet.
* `Yields r P` — whatever `r` is given, what it returns has `P`.
* `Throws r P` — whatever `r` is given, what it fails with has `P`.

Numbers are little endian.
-/

namespace Dirtsand.Lib

def Reader (ε α : Type) := List UInt8 → Except ε (α × List UInt8)

namespace Reader

variable {ε α β : Type}

protected def pure (a : α) : Reader ε α := fun bytes => .ok (a, bytes)

protected def bind (r : Reader ε α) (f : α → Reader ε β) : Reader ε β := fun bytes =>
  match r bytes with
  | .ok (a, rest) => f a rest
  | .error e => .error e

instance : Monad (Reader ε) where
  pure := Reader.pure
  bind := Reader.bind

def fail (e : ε) : Reader ε α := fun _ => .error e

/-- A computation that reads nothing. -/
def ofExcept : Except ε α → Reader ε α
  | .ok a => pure a
  | .error e => fail e

/-- The bytes that are left. -/
def left : Reader ε (List UInt8) := fun bytes => .ok (bytes, bytes)

theorem pure_apply (a : α) (bytes : List UInt8) : (pure a : Reader ε α) bytes = .ok (a, bytes) := rfl

theorem bind_eq_ok {r : Reader ε α} {f : α → Reader ε β} {bytes : List UInt8}
    {x : β × List UInt8} :
    (r >>= f) bytes = .ok x ↔ ∃ a mid, r bytes = .ok (a, mid) ∧ f a mid = .ok x := by
  show Reader.bind r f bytes = .ok x ↔ _
  rw [Reader.bind]
  constructor
  · intro h
    split at h
    · rename_i a mid hr
      exact ⟨a, mid, hr, h⟩
    · cases h
  · rintro ⟨a, mid, hr, h⟩
    rw [hr]
    exact h

theorem bind_of_ok {r : Reader ε α} {f : α → Reader ε β} {bytes rest : List UInt8} {a : α}
    (h : r bytes = .ok (a, rest)) : (r >>= f) bytes = f a rest := by
  show Reader.bind r f bytes = f a rest
  rw [Reader.bind, h]

theorem bind_of_error {r : Reader ε α} {f : α → Reader ε β} {bytes : List UInt8} {e : ε}
    (h : r bytes = .error e) : (r >>= f) bytes = .error e := by
  show Reader.bind r f bytes = .error e
  rw [Reader.bind, h]

/-! ## What is read of what was written -/

def Reads (r : Reader ε α) (bytes : List UInt8) (a : α) : Prop :=
  ∀ rest, r (bytes ++ rest) = .ok (a, rest)

theorem Reads.pure (a : α) : Reads (pure a : Reader ε α) [] a := fun _ => rfl

theorem Reads.bind {r : Reader ε α} {f : α → Reader ε β} {bytes bytes' : List UInt8} {a : α} {b : β}
    (hr : Reads r bytes a) (hf : Reads (f a) bytes' b) : Reads (r >>= f) (bytes ++ bytes') b := by
  intro rest
  rw [bind_eq_ok]
  refine ⟨a, bytes' ++ rest, ?_, hf rest⟩
  rw [List.append_assoc]
  exact hr (bytes' ++ rest)

/-- A bind whose first half reads nothing. -/
theorem Reads.after {r : Reader ε α} {f : α → Reader ε β} {bytes : List UInt8} {a : α} {b : β}
    (hr : Reads r [] a) (hf : Reads (f a) bytes b) : Reads (r >>= f) bytes b :=
  hr.bind hf

/-- A bind whose second half reads nothing. -/
theorem Reads.andThen {r : Reader ε α} {f : α → Reader ε β} {bytes : List UInt8} {a : α} {b : β}
    (hr : Reads r bytes a) (hf : Reads (f a) [] b) : Reads (r >>= f) bytes b := by
  have h := hr.bind hf
  rwa [List.append_nil] at h

theorem Reads.run {r : Reader ε α} {bytes : List UInt8} {a : α} (hr : Reads r bytes a)
    (f : α → Reader ε β) (rest : List UInt8) : (r >>= f) (bytes ++ rest) = f a rest := by
  show Reader.bind r f (bytes ++ rest) = f a rest
  rw [Reader.bind, hr rest]

/-- A look at what is left that changes nothing. -/
theorem Reads.left {f : List UInt8 → Reader ε β} {r : Reader ε β} {bytes : List UInt8} {b : β}
    (hf : ∀ rest, f rest = r) (hr : Reads r bytes b) : Reads (Reader.left >>= f) bytes b := by
  intro rest
  rw [bind_eq_ok]
  refine ⟨bytes ++ rest, bytes ++ rest, rfl, ?_⟩
  rw [hf]
  exact hr rest

theorem Reads.ofExcept {x : Except ε α} {a : α} (h : x = .ok a) : Reads (ofExcept x) [] a := by
  subst h
  exact .pure a

/-! ## What is always so of what is read -/

def Yields (r : Reader ε α) (P : α → Prop) : Prop :=
  ∀ bytes a rest, r bytes = .ok (a, rest) → P a

theorem Yields.pure {P : α → Prop} {a : α} (h : P a) : Yields (pure a : Reader ε α) P := by
  intro bytes b rest heq
  cases heq
  exact h

theorem Yields.fail {P : α → Prop} {e : ε} : Yields (fail e : Reader ε α) P := by
  intro bytes a rest heq
  cases heq

theorem Yields.bind {r : Reader ε α} {f : α → Reader ε β} {P : α → Prop} {Q : β → Prop}
    (hr : Yields r P) (hf : ∀ a, P a → Yields (f a) Q) : Yields (r >>= f) Q := by
  intro bytes b rest heq
  obtain ⟨a, mid, ha, hb⟩ := bind_eq_ok.1 heq
  exact hf a (hr bytes a mid ha) mid b rest hb

theorem Yields.any (r : Reader ε α) : Yields r fun _ => True := fun _ _ _ _ => trivial

theorem Yields.mono {r : Reader ε α} {P Q : α → Prop} (h : Yields r P) (hle : ∀ a, P a → Q a) :
    Yields r Q :=
  fun bytes a rest heq => hle a (h bytes a rest heq)

theorem Yields.ofExcept {x : Except ε α} {P : α → Prop} (h : ∀ a, x = .ok a → P a) :
    Yields (ofExcept x) P := by
  cases x with
  | ok a => exact .pure (h a rfl)
  | error e => exact .fail

/-! ## What readers fail with -/

def Throws (r : Reader ε α) (P : ε → Prop) : Prop := ∀ bytes e, r bytes = .error e → P e

theorem Throws.pure {P : ε → Prop} (a : α) : Throws (pure a : Reader ε α) P := by
  intro bytes e heq
  cases heq

theorem Throws.bind {r : Reader ε α} {f : α → Reader ε β} {P : ε → Prop} (hr : Throws r P)
    (hf : ∀ a, Throws (f a) P) : Throws (r >>= f) P := by
  intro bytes e heq
  cases hread : r bytes with
  | error e' =>
    rw [bind_of_error hread] at heq
    cases heq
    exact hr bytes e hread
  | ok x =>
    rw [bind_of_ok hread] at heq
    exact hf x.1 x.2 e heq

/-! ## Bytes and numbers -/
/-- The next `n` bytes. -/
def take (e : ε) (n : Nat) : Reader ε (List UInt8) := fun bytes =>
  if n ≤ bytes.length then .ok (bytes.take n, bytes.drop n) else .error e

theorem reads_take (e : ε) {bytes : List UInt8} {n : Nat} (hn : bytes.length = n) :
    Reads (take e n) bytes bytes := by
  intro rest
  subst hn
  simp [take]

theorem yields_take (e : ε) (n : Nat) : Yields (take e n) fun bytes => bytes.length = n := by
  intro bytes a rest heq
  unfold take at heq
  split at heq
  · rename_i hn
    cases heq
    rw [List.length_take, min_eq_left hn]
  · cases heq

def leBytes : Nat → Nat → List UInt8
  | 0, _ => []
  | n + 1, v => UInt8.ofNat v :: leBytes n (v / 256)

def leValue : List UInt8 → Nat
  | [] => 0
  | b :: bytes => b.toNat + 256 * leValue bytes

theorem length_leBytes (n v : Nat) : (leBytes n v).length = n := by
  induction n generalizing v with
  | zero => rfl
  | succ n ih => rw [leBytes, List.length_cons, ih]

theorem leValue_leBytes {n v : Nat} (hv : v < 256 ^ n) : leValue (leBytes n v) = v := by
  induction n generalizing v with
  | zero =>
    rw [pow_zero] at hv
    show 0 = v
    omega
  | succ n ih =>
    rw [pow_succ] at hv
    have hbyte : (UInt8.ofNat v).toNat = v % 256 := rfl
    rw [leBytes, leValue, ih (by omega), hbyte]
    omega

theorem leValue_lt (bytes : List UInt8) : leValue bytes < 256 ^ bytes.length := by
  induction bytes with
  | nil => exact Nat.one_pos
  | cons b bytes ih =>
    have hb : b.toNat < 256 := b.toNat_lt
    rw [leValue, List.length_cons, pow_succ]
    omega

theorem leBytes_leValue (bytes : List UInt8) : leBytes bytes.length (leValue bytes) = bytes := by
  induction bytes with
  | nil => rfl
  | cons b bytes ih =>
    have hb : b.toNat < 256 := b.toNat_lt
    have hlow : UInt8.ofNat (b.toNat + 256 * leValue bytes) = b := by
      rw [← UInt8.toNat_inj, UInt8.toNat_ofNat']
      omega
    have hhigh : (b.toNat + 256 * leValue bytes) / 256 = leValue bytes := by omega
    rw [leValue, List.length_cons, leBytes, hlow, hhigh, ih]

/-- A number of `n` bytes. -/
def nat (e : ε) (n : Nat) : Reader ε Nat := do
  let bytes ← take e n
  pure (leValue bytes)

theorem nat_of_le (e : ε) {n : Nat} {bytes : List UInt8} (h : n ≤ bytes.length) :
    nat e n bytes = .ok (leValue (bytes.take n), bytes.drop n) :=
  bind_of_ok (if_pos h)

theorem nat_of_lt (e : ε) {n : Nat} {bytes : List UInt8} (h : bytes.length < n) :
    nat e n bytes = .error e :=
  bind_of_error (if_neg (not_le.2 h))

theorem reads_nat (e : ε) {n v : Nat} (hv : v < 256 ^ n) : Reads (nat e n) (leBytes n v) v := by
  refine (reads_take e (length_leBytes n v)).andThen ?_
  rw [leValue_leBytes hv]
  exact .pure v

theorem throws_nat {P : ε → Prop} {e : ε} (he : P e) (n : Nat) : Throws (nat e n) P := by
  refine Throws.bind (fun bytes e' heq => ?_) fun bytes => .pure _
  unfold take at heq
  split at heq
  · cases heq
  · cases heq
    exact he

/-! ## Fields that may be absent -/

/-- A field that is there under a condition. -/
def given (c : Prop) [Decidable c] (r : Reader ε α) (d : α) : Reader ε α :=
  if c then r else pure d

theorem reads_given {c : Prop} [Decidable c] {r : Reader ε α} {d a : α} {bytes : List UInt8}
    (h : c → Reads r bytes a) (hd : ¬ c → a = d) :
    Reads (given c r d) (if c then bytes else []) a := by
  by_cases hc : c
  · rw [given, if_pos hc, if_pos hc]
    exact h hc
  · rw [given, if_neg hc, if_neg hc, hd hc]
    exact .pure d

theorem yields_given {c : Prop} [Decidable c] {r : Reader ε α} {d : α} {P : α → Prop}
    (h : c → Yields r P) (hd : ¬ c → P d) : Yields (given c r d) P := by
  by_cases hc : c
  · rw [given, if_pos hc]
    exact h hc
  · rw [given, if_neg hc]
    exact .pure (hd hc)

/-! ## Lists -/

/-- One thing for each member of a list. -/
def each (f : α → Reader ε β) : List α → Reader ε (List β)
  | [] => pure []
  | a :: as => do
    let b ← f a
    let bs ← each f as
    pure (b :: bs)

theorem reads_each {γ : Type} {f : α → Reader ε β} {w : γ → List UInt8} {R : γ → β → Prop}
    {as : List α} {cs : List γ}
    (h : List.Forall₂ (fun a c => ∃ b, Reads (f a) (w c) b ∧ R c b) as cs) :
    ∃ bs, Reads (each f as) (cs.flatMap w) bs ∧ List.Forall₂ R cs bs := by
  induction h with
  | nil => exact ⟨[], Reads.pure [], .nil⟩
  | @cons a c as cs h _ ih =>
    obtain ⟨b, hb, hR⟩ := h
    obtain ⟨bs, hbs, hRs⟩ := ih
    exact ⟨b :: bs, hb.bind (hbs.andThen (Reads.pure (b :: bs))), .cons hR hRs⟩

theorem yields_each {f : α → Reader ε β} {P : β → Prop} {as : List α}
    (h : ∀ a ∈ as, Yields (f a) P) :
    Yields (each f as) fun bs => bs.length = as.length ∧ ∀ b ∈ bs, P b := by
  induction as with
  | nil => exact .pure ⟨rfl, fun b hb => absurd hb List.not_mem_nil⟩
  | cons a as ih =>
    refine (h a List.mem_cons_self).bind fun b hb => ?_
    refine (ih fun c hc => h c (List.mem_cons_of_mem a hc)).bind fun bs hbs => .pure ⟨?_, ?_⟩
    · rw [List.length_cons, List.length_cons, hbs.1]
    · intro c hc
      obtain rfl | hc := List.mem_cons.1 hc
      · exact hb
      · exact hbs.2 c hc

end Reader

end Dirtsand.Lib
