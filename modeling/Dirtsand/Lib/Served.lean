import Dirtsand.Lib.Dialogue

/-!
# Programs and the server that they ask

A program gets its answers from outside (`Lib.Dialogue`).  Here they come from a
server that has a state of its own: `serves d q a d'` says that in the state `d`
it may answer `q` with `a` and then be in `d'`.

* `Served` — a conversation is one with this server.
* `Prog.Ensures` — what is true after every run whose conversation is.
* `Prog.Yields` — a run whose conversation is, put together from its parts.
* `Prog.Steady` — a program that takes back nothing it has asked or replied, so that
  its conversation can be cut where the program is put together.
-/

namespace Dirtsand.Lib

/-- The conversation leads the server from `d` to `d'`. -/
inductive Served {D Q A : Type} (serves : D → Q → A → D → Prop) : D → List (Q × A) → D → Prop where
  | nil (d : D) : Served serves d [] d
  | cons {d d₁ d' : D} {q : Q} {a : A} {rest : List (Q × A)} (h : serves d q a d₁)
      (hrest : Served serves d₁ rest d') : Served serves d ((q, a) :: rest) d'

section Served

variable {D Q A : Type} {serves : D → Q → A → D → Prop}

theorem served_nil {d d' : D} : Served serves d [] d' ↔ d' = d := by
  constructor
  · intro h
    cases h
    rfl
  · rintro rfl
    exact .nil _

theorem served_cons {d d' : D} {q : Q} {a : A} {rest : List (Q × A)} :
    Served serves d ((q, a) :: rest) d' ↔ ∃ d₁, serves d q a d₁ ∧ Served serves d₁ rest d' := by
  constructor
  · intro h
    cases h with
    | cons h hrest => exact ⟨_, h, hrest⟩
  · rintro ⟨d₁, h, hrest⟩
    exact .cons h hrest

theorem served_append {d d' : D} {l l' : List (Q × A)} :
    Served serves d (l ++ l') d' ↔ ∃ d₁, Served serves d l d₁ ∧ Served serves d₁ l' d' := by
  induction l generalizing d with
  | nil =>
    constructor
    · intro h
      exact ⟨d, .nil d, h⟩
    · rintro ⟨d₁, h, h'⟩
      rwa [served_nil.1 h] at h'
  | cons e l ih =>
    obtain ⟨q, a⟩ := e
    rw [List.cons_append, served_cons]
    constructor
    · rintro ⟨d₁, h, hrest⟩
      obtain ⟨d₂, hl, hl'⟩ := ih.1 hrest
      exact ⟨d₂, .cons h hl, hl'⟩
    · rintro ⟨d₂, h, hl'⟩
      obtain ⟨d₁, h, hl⟩ := served_cons.1 h
      exact ⟨d₁, h, ih.2 ⟨d₂, hl, hl'⟩⟩

theorem Served.mono {serves' : D → Q → A → D → Prop}
    (hle : ∀ d q a d', serves d q a d' → serves' d q a d') {d d' : D} {l : List (Q × A)}
    (h : Served serves d l d') : Served serves' d l d' := by
  induction h with
  | nil d => exact .nil d
  | cons h _ ih => exact .cons (hle _ _ _ _ h) ih

end Served

namespace Prog

variable {σ Q A R D α β : Type}

/-! ## Steady programs -/

/-- What has been asked and replied stays.  A class, so that the instances below find
that a program is steady by the way it is put together. -/
class Steady (m : Prog σ Q A R α) : Prop where
  asked : ∀ w, w.asked <+: (m w).2.asked
  replies : ∀ w, w.replies <+: (m w).2.replies

section Steady

variable {m m' : Prog σ Q A R α} {f : α → Prog σ Q A R β}

instance (a : α) : Steady (pure a : Prog σ Q A R α) :=
  ⟨fun _ => List.prefix_refl _, fun _ => List.prefix_refl _⟩

instance : Steady (throw : Prog σ Q A R α) :=
  ⟨fun _ => List.prefix_refl _, fun _ => List.prefix_refl _⟩

instance : Steady (crash : Prog σ Q A R α) :=
  ⟨fun _ => List.prefix_refl _, fun _ => List.prefix_refl _⟩

instance : Steady (get : Prog σ Q A R σ) :=
  ⟨fun _ => List.prefix_refl _, fun _ => List.prefix_refl _⟩

instance (g : σ → σ) : Steady (modify g : Prog σ Q A R Unit) :=
  ⟨fun _ => List.prefix_refl _, fun _ => List.prefix_refl _⟩

instance (q : Q) : Steady (ask q : Prog σ Q A R A) :=
  ⟨fun _ => List.prefix_append _ _, fun _ => List.prefix_refl _⟩

instance (r : R) : Steady (reply r : Prog σ Q A R Unit) :=
  ⟨fun _ => List.prefix_refl _, fun _ => List.prefix_append _ _⟩

instance [hm : Steady m] [hf : ∀ a, Steady (f a)] : Steady (m >>= f) := by
  have hrun : ∀ w, w.asked <+: ((m >>= f) w).2.asked ∧ w.replies <+: ((m >>= f) w).2.replies := by
    intro w
    cases hexit : (m w).1 with
    | ret a =>
      rw [bind_ret hexit]
      exact ⟨(hm.asked w).trans ((hf a).asked _), (hm.replies w).trans ((hf a).replies _)⟩
    | throw =>
      rw [bind_throw hexit]
      exact ⟨hm.asked w, hm.replies w⟩
    | crash =>
      rw [bind_crash hexit]
      exact ⟨hm.asked w, hm.replies w⟩
  exact ⟨fun w => (hrun w).1, fun w => (hrun w).2⟩

instance [Steady m] : Steady (discard m) :=
  inferInstanceAs (Steady (m >>= fun _ => pure ()))

instance {c : Prop} [Decidable c] [hm : Steady m] [hm' : Steady m'] :
    Steady (if c then m else m') := by
  split
  · exact hm
  · exact hm'

instance {l : List α} [∀ a, Steady (f a)] : Steady (collect f l) := by
  induction l with
  | nil => exact inferInstanceAs (Steady (pure []))
  | cons a l ih =>
    unfold collect
    infer_instance

instance {r : R} {m : Prog σ Q A R Unit} [hm : Steady m] : Steady (catchReply r m) := by
  have hrun : ∀ w, w.asked <+: (catchReply r m w).2.asked ∧
      w.replies <+: (catchReply r m w).2.replies := by
    intro w
    have hasked := hm.asked w
    have hreplies := hm.replies w
    unfold catchReply
    cases hrun : m w with
    | mk exit w' =>
      rw [hrun] at hasked hreplies
      cases exit with
      | ret _ | crash => exact ⟨hasked, hreplies⟩
      | throw => exact ⟨hasked, hreplies.trans (List.prefix_append _ _)⟩
  exact ⟨fun w => (hrun w).1, fun w => (hrun w).2⟩

end Steady

/-! ## What a run ensures -/

variable (serves : D → Q → A → D → Prop)

/-- Every run from the state `s`, with a server that is in `d` and is in `d'` at its
end, ends as `post` says: with the exit, `d'`, the state and the new replies. -/
def Ensures (d : D) (s : σ) (m : Prog σ Q A R α)
    (post : Exit α → D → σ → List R → Prop) : Prop :=
  ∀ w new out d', w.state = s → (m w).2.asked = w.asked ++ new →
    (m w).2.replies = w.replies ++ out → Served serves d new d' →
    post (m w).1 d' (m w).2.state out

variable {serves} {d : D} {s : σ} {m : Prog σ Q A R α} {f : α → Prog σ Q A R β}

theorem Ensures.mono {post post' : Exit α → D → σ → List R → Prop}
    (h : Ensures serves d s m post) (hle : ∀ x d' s' out, post x d' s' out → post' x d' s' out) :
    Ensures serves d s m post' := by
  intro w new out d' hs hasked hreplies hserved
  exact hle _ _ _ _ (h w new out d' hs hasked hreplies hserved)

section Rules

/-- A program that only returns, throws or ends the process. -/
private theorem ensures_still {x : Exit α} {s' : σ} {post : Exit α → D → σ → List R → Prop}
    (hm : ∀ w : Dialogue σ Q A R, w.state = s → m w = (x, { w with state := s' }))
    (h : post x d s' []) : Ensures serves d s m post := by
  intro w new out d' hs hasked hreplies hserved
  rw [hm w hs] at hasked hreplies ⊢
  obtain rfl := List.self_eq_append_right.1 hasked
  obtain rfl := List.self_eq_append_right.1 hreplies
  rw [served_nil.1 hserved]
  exact h

variable {post : Exit α → D → σ → List R → Prop}

theorem ensures_pure {a : α} (h : post (.ret a) d s []) :
    Ensures serves d s (pure a : Prog σ Q A R α) post :=
  ensures_still (fun w hw => by subst hw; rfl) h

theorem ensures_throw (h : post .throw d s []) :
    Ensures serves d s (throw : Prog σ Q A R α) post :=
  ensures_still (fun w hw => by subst hw; rfl) h

theorem ensures_crash (h : post .crash d s []) :
    Ensures serves d s (crash : Prog σ Q A R α) post :=
  ensures_still (fun w hw => by subst hw; rfl) h

theorem ensures_get {post : Exit σ → D → σ → List R → Prop} (h : post (.ret s) d s []) :
    Ensures serves d s (get : Prog σ Q A R σ) post :=
  ensures_still (fun w hw => by subst hw; rfl) h

theorem ensures_reply {r : R} {post : Exit Unit → D → σ → List R → Prop}
    (h : post (.ret ()) d s [r]) : Ensures serves d s (reply r : Prog σ Q A R Unit) post := by
  intro w new out d' hs hasked hreplies hserved
  obtain rfl := List.self_eq_append_right.1 hasked
  obtain rfl := List.append_cancel_left hreplies
  rw [served_nil.1 hserved]
  subst hs
  exact h

theorem ensures_ask {q : Q} {post : Exit A → D → σ → List R → Prop}
    (h : ∀ a d', serves d q a d' → post (.ret a) d' s []) :
    Ensures serves d s (ask q : Prog σ Q A R A) post := by
  intro w new out d' hs hasked hreplies hserved
  obtain rfl := List.append_cancel_left hasked
  obtain rfl := List.self_eq_append_right.1 hreplies
  obtain ⟨d₁, hd, hnil⟩ := served_cons.1 hserved
  rw [served_nil.1 hnil]
  subst hs
  exact h _ _ hd

/-- **The rule of composition.** -/
theorem ensures_bind {post : Exit β → D → σ → List R → Prop} [hm : Steady m]
    [hf : ∀ a, Steady (f a)]
    (h : Ensures serves d s m fun x d₁ s₁ out₁ => match x with
      | .ret a => Ensures serves d₁ s₁ (f a) fun x' d' s' out => post x' d' s' (out₁ ++ out)
      | .throw => post .throw d₁ s₁ out₁
      | .crash => post .crash d₁ s₁ out₁) :
    Ensures serves d s (m >>= f) post := by
  intro w new out d' hs hasked hreplies hserved
  obtain ⟨new₁, hnew₁⟩ := hm.asked w
  obtain ⟨out₁, hout₁⟩ := hm.replies w
  cases hexit : (m w).1 with
  | ret a =>
    rw [bind_ret hexit] at hasked hreplies ⊢
    obtain ⟨new₂, hnew₂⟩ := (hf a).asked (m w).2
    obtain ⟨out₂, hout₂⟩ := (hf a).replies (m w).2
    rw [← hnew₂, ← hnew₁, List.append_assoc] at hasked
    rw [← hout₂, ← hout₁, List.append_assoc] at hreplies
    obtain rfl := List.append_cancel_left hasked
    obtain rfl := List.append_cancel_left hreplies
    obtain ⟨d₁, hd₁, hd'⟩ := served_append.1 hserved
    have hrun := h w new₁ out₁ d₁ hs hnew₁.symm hout₁.symm hd₁
    rw [hexit] at hrun
    exact hrun _ _ _ _ rfl hnew₂.symm hout₂.symm hd'
  | throw =>
    rw [bind_throw hexit] at hasked hreplies ⊢
    have hrun := h w new out d' hs hasked hreplies hserved
    rwa [hexit] at hrun
  | crash =>
    rw [bind_crash hexit] at hasked hreplies ⊢
    have hrun := h w new out d' hs hasked hreplies hserved
    rwa [hexit] at hrun

theorem ensures_catchReply {r : R} {m : Prog σ Q A R Unit}
    {post : Exit Unit → D → σ → List R → Prop} [hm : Steady m]
    (h : Ensures serves d s m fun x d' s' out => match x with
      | .ret a => post (.ret a) d' s' out
      | .throw => post (.ret ()) d' s' (out ++ [r])
      | .crash => post .crash d' s' out) :
    Ensures serves d s (catchReply r m) post := by
  intro w new out d' hs hasked hreplies hserved
  obtain ⟨out₁, hout₁⟩ := hm.replies w
  have hrun := fun hnew => h w new out₁ d' hs hnew hout₁.symm hserved
  unfold catchReply at hasked hreplies ⊢
  cases hm : m w with
  | mk exit w' =>
    rw [hm] at hasked hreplies hrun hout₁
    cases exit with
    | ret _ | crash =>
      obtain rfl := List.append_cancel_left (hout₁.trans hreplies)
      exact hrun hasked
    | throw =>
      have hreplies' : w'.replies ++ [r] = w.replies ++ out := hreplies
      rw [← hout₁, List.append_assoc] at hreplies'
      obtain rfl := List.append_cancel_left hreplies'
      exact hrun hasked

theorem ensures_ite {c : Prop} [Decidable c] {m' : Prog σ Q A R α}
    (h : c → Ensures serves d s m post) (h' : ¬c → Ensures serves d s m' post) :
    Ensures serves d s (if c then m else m') post := by
  split
  · exact h ‹_›
  · exact h' ‹_›

end Rules

/-! ## Runs -/

variable (serves) in
/-- A run: from `s`, with a server that goes from `d` to `d'`, the program can end with `x`
in `s'` and have replied `out`. -/
def Runs (d : D) (s : σ) (m : Prog σ Q A R α) (x : Exit α) (d' : D) (s' : σ) (out : List R) :
    Prop :=
  ∃ w new, w.state = s ∧ (m w).1 = x ∧ (m w).2.state = s' ∧ (m w).2.asked = w.asked ++ new ∧
    (m w).2.replies = w.replies ++ out ∧ Served serves d new d'

theorem ensures_iff {post : Exit α → D → σ → List R → Prop} : Ensures serves d s m post ↔
    ∀ x d' s' out, Runs serves d s m x d' s' out → post x d' s' out := by
  constructor
  · rintro h x d' s' out ⟨w, new, hs, rfl, rfl, hasked, hreplies, hserved⟩
    exact h w new out d' hs hasked hreplies hserved
  · intro h w new out d' hs hasked hreplies hserved
    exact h _ _ _ _ ⟨w, new, hs, rfl, rfl, hasked, hreplies, hserved⟩

theorem Runs.post {post : Exit α → D → σ → List R → Prop} {x : Exit α} {d' : D} {s' : σ}
    {out : List R} (h : Runs serves d s m x d' s' out) (hm : Ensures serves d s m post) :
    post x d' s' out :=
  ensures_iff.1 hm x d' s' out h

variable (serves) in
/-- A run that some answers lead to, whatever was asked and replied before.  Such runs can be
put together, where a run as such cannot: nothing says of a program that it takes no answer
but the next. -/
def Yields (d : D) (s : σ) (m : Prog σ Q A R α) (x : Exit α) (d' : D) (s' : σ) (out : List R) :
    Prop :=
  ∃ new : List (Q × A), Served serves d new d' ∧ ∀ w : Dialogue σ Q A R, w.state = s →
    (∀ i e, new[i]? = some e → w.answers (w.asked.length + i) = e.2) →
    m w = (x, { w with state := s', asked := w.asked ++ new, replies := w.replies ++ out })

section Yields

variable {x : Exit α} {d₁ d' : D} {s₁ s' : σ} {out out₁ : List R}

theorem Yields.runs [Inhabited A] (h : Yields serves d s m x d' s' out) :
    Runs serves d s m x d' s' out := by
  obtain ⟨new, hserved, hrun⟩ := h
  let w : Dialogue σ Q A R := { state := s, answers := fun i => (new[i]?.map (·.2)).getD default }
  have hm := hrun w rfl fun i e he => by
    show (new[0 + i]?.map (·.2)).getD default = e.2
    rw [Nat.zero_add, he]
    rfl
  refine ⟨w, new, rfl, ?_, ?_, ?_, ?_, hserved⟩
  all_goals rw [hm]

private theorem yields_still (hm : ∀ w : Dialogue σ Q A R, w.state = s →
    m w = (x, { w with state := s', replies := w.replies ++ out })) :
    Yields serves d s m x d s' out := by
  refine ⟨[], .nil d, fun w hw _ => ?_⟩
  rw [hm w hw, List.append_nil]

theorem yields_pure (a : α) : Yields serves d s (pure a : Prog σ Q A R α) (.ret a) d s [] :=
  yields_still fun w hw => by
    subst hw
    rw [List.append_nil]
    rfl

theorem yields_get : Yields serves d s (get : Prog σ Q A R σ) (.ret s) d s [] :=
  yields_still fun w hw => by
    subst hw
    rw [List.append_nil]
    rfl

theorem yields_reply (r : R) :
    Yields serves d s (reply r : Prog σ Q A R Unit) (.ret ()) d s [r] :=
  yields_still fun w hw => by
    subst hw
    rfl

theorem yields_ask {q : Q} {a : A} (h : serves d q a d') :
    Yields serves d s (ask q : Prog σ Q A R A) (.ret a) d' s [] := by
  refine ⟨[(q, a)], .cons h (.nil d'), fun w hw hanswers => ?_⟩
  have ha : w.answers w.asked.length = a := hanswers 0 _ rfl
  subst hw
  rw [ask, ha, List.append_nil]

theorem Yields.bind {a : α} {x' : Exit β} (hm : Yields serves d s m (.ret a) d₁ s₁ out₁)
    (hf : Yields serves d₁ s₁ (f a) x' d' s' out) :
    Yields serves d s (m >>= f) x' d' s' (out₁ ++ out) := by
  obtain ⟨new, hserved, hrun⟩ := hm
  obtain ⟨new', hserved', hrun'⟩ := hf
  refine ⟨new ++ new', served_append.2 ⟨d₁, hserved, hserved'⟩, fun w hw hanswers => ?_⟩
  have hfirst := hrun w hw fun i e he => hanswers i e <| by
    rw [List.getElem?_append_left (List.getElem?_eq_some_iff.1 he).1]
    exact he
  have hexit : (m w).1 = .ret a := by rw [hfirst]
  rw [bind_ret hexit, hfirst]
  rw [hrun' _ rfl fun i e he => ?_]
  · rw [List.append_assoc, List.append_assoc]
  · have hi := hanswers (new.length + i) e <| by
      rw [List.getElem?_append_right (Nat.le_add_right _ _), Nat.add_sub_cancel_left]
      exact he
    rw [← hi]
    show w.answers ((w.asked ++ new).length + i) = _
    rw [List.length_append, Nat.add_assoc]

theorem Yields.catchReply {r : R} {m : Prog σ Q A R Unit} {a : Unit}
    (hm : Yields serves d s m (.ret a) d' s' out) :
    Yields serves d s (catchReply r m) (.ret a) d' s' out := by
  obtain ⟨new, hserved, hrun⟩ := hm
  refine ⟨new, hserved, fun w hw hanswers => ?_⟩
  unfold Prog.catchReply
  rw [hrun w hw hanswers]

end Yields

end Prog

end Dirtsand.Lib
