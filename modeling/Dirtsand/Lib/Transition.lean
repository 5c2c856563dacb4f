/-!
# Runs of a machine

A `Machine` is a set of start states and a partial step function.  Its runs are
taken under a condition on each step, `ok`, so that one notion serves both
"every reachable state" and "every state of a run whose steps all meet the
condition".

* `ReachableWith.invariant` — what the start states have and the steps of such
  a run preserve, every state of it has.
* `Machine.run_reachable` — a run computed from a list of events is one.
* `Machine.withHistory` — the machine that remembers its steps, for what is said
  about the past of a state.
* `RunOf.invariant` — the invariant rule where a step is a relation.
-/

namespace Dirtsand.Lib

structure Machine (σ ε : Type) where
  start : σ → Prop
  step : σ → ε → Option σ

namespace Machine

variable {σ ε : Type} (M : Machine σ ε)

/-- `s` is reached from a start state by steps that all meet `ok`. -/
inductive ReachableWith (ok : σ → ε → Prop) : σ → Prop where
  | start {s : σ} (h : M.start s) : ReachableWith ok s
  | step {s s' : σ} {e : ε} (h : ReachableWith ok s) (hok : ok s e)
      (hstep : M.step s e = some s') : ReachableWith ok s'

def Reachable : σ → Prop :=
  M.ReachableWith fun _ _ => True

variable {M}

/-- **The invariant rule.** -/
theorem ReachableWith.invariant {ok : σ → ε → Prop} {I : σ → Prop}
    (hstart : ∀ s, M.start s → I s)
    (hstep : ∀ s e s', I s → ok s e → M.step s e = some s' → I s')
    {s : σ} (h : M.ReachableWith ok s) : I s := by
  induction h with
  | start h => exact hstart _ h
  | step _ hok hs ih => exact hstep _ _ _ ih hok hs

theorem ReachableWith.mono {ok ok' : σ → ε → Prop} (hle : ∀ s e, ok s e → ok' s e) {s : σ}
    (h : M.ReachableWith ok s) : M.ReachableWith ok' s := by
  induction h with
  | start h => exact .start h
  | step _ hok hs ih => exact .step ih (hle _ _ hok) hs

theorem ReachableWith.reachable {ok : σ → ε → Prop} {s : σ} (h : M.ReachableWith ok s) :
    M.Reachable s :=
  h.mono fun _ _ _ => trivial

variable (M)

/-- The state after a list of events, where each of them can happen. -/
def run (s : σ) : List ε → Option σ
  | [] => some s
  | e :: es => (M.step s e).bind fun s' => run s' es

variable {M}

theorem run_append {s : σ} {es es' : List ε} :
    M.run s (es ++ es') = (M.run s es).bind fun s' => M.run s' es' := by
  induction es generalizing s with
  | nil => rfl
  | cons e es ih =>
    rw [List.cons_append, run, run, Option.bind_assoc]
    exact congrArg _ (funext fun s' => ih)

theorem run_reachable {s s' : σ} {es : List ε} (hs : M.Reachable s)
    (h : M.run s es = some s') : M.Reachable s' := by
  induction es generalizing s with
  | nil =>
    cases h
    exact hs
  | cons e es ih =>
    obtain ⟨s₁, h₁, h₂⟩ := Option.bind_eq_some_iff.1 h
    exact ih (hs.step trivial h₁) h₂

variable (M)

/-- Each event of a list can happen when its turn comes, and meets `ok` then. -/
def OkRun (ok : σ → ε → Prop) (s : σ) : List ε → Prop
  | [] => True
  | e :: es => ok s e ∧ match M.step s e with
    | some s' => OkRun ok s' es
    | none => False

/-- As `OkRun`, with a test that can be computed. -/
def allRun (p : σ → ε → Bool) (s : σ) : List ε → Bool
  | [] => true
  | e :: es => p s e && match M.step s e with
    | some s' => allRun p s' es
    | none => false

variable {M}

theorem okRun_of_allRun {p : σ → ε → Bool} {ok : σ → ε → Prop} (hp : ∀ s e, p s e = true → ok s e)
    {s : σ} {es : List ε} (h : M.allRun p s es = true) : M.OkRun ok s es := by
  induction es generalizing s with
  | nil => trivial
  | cons e es ih =>
    rw [allRun, Bool.and_eq_true] at h
    obtain ⟨hpe, hrest⟩ := h
    refine ⟨hp s e hpe, ?_⟩
    split at hrest
    · exact ih hrest
    · cases hrest

theorem ReachableWith.run {ok : σ → ε → Prop} {s : σ} {es : List ε} (hs : M.ReachableWith ok s)
    (h : M.OkRun ok s es) : ∃ s', M.run s es = some s' ∧ M.ReachableWith ok s' := by
  induction es generalizing s with
  | nil => exact ⟨s, rfl, hs⟩
  | cons e es ih =>
    obtain ⟨hok, hrest⟩ := h
    split at hrest
    · rename_i s₁ h₁
      obtain ⟨s', hrun, hs'⟩ := ih (hs.step hok h₁) hrest
      refine ⟨s', ?_, hs'⟩
      rw [Machine.run, h₁]
      exact hrun
    · exact hrest.elim

/-! ## Histories -/

variable (M)

/-- The machine with its history: the steps so far, each as the state before it
and the event, latest first. -/
def withHistory : Machine (σ × List (σ × ε)) ε where
  start p := M.start p.1 ∧ p.2 = []
  step p e := (M.step p.1 e).map fun s' => (s', (p.1, e) :: p.2)

variable {M}

/-- A state of a run has a past. -/
theorem ReachableWith.withHistory {ok : σ → ε → Prop} {s : σ} (h : M.ReachableWith ok s) :
    ∃ past, M.withHistory.ReachableWith (fun p e => ok p.1 e) (s, past) := by
  induction h with
  | start hs => exact ⟨[], .start ⟨hs, rfl⟩⟩
  | @step s s' e _ hok hs ih =>
    obtain ⟨past, hpast⟩ := ih
    exact ⟨(s, e) :: past, .step hpast hok (Option.map_eq_some_iff.2 ⟨s', hs, rfl⟩)⟩

/-- The invariant rule, for a state and its past. -/
theorem withHistory_invariant {ok : σ × List (σ × ε) → ε → Prop} {I : σ → List (σ × ε) → Prop}
    (hstart : ∀ s, M.start s → I s [])
    (hstep : ∀ s past e s', I s past → ok (s, past) e → M.step s e = some s' →
      I s' ((s, e) :: past))
    {p : σ × List (σ × ε)} (h : M.withHistory.ReachableWith ok p) : I p.1 p.2 := by
  refine h.invariant (I := fun p => I p.1 p.2) ?_ ?_
  · rintro ⟨s, past⟩ ⟨hs, rfl⟩
    exact hstart s hs
  · rintro ⟨s, past⟩ e p' hinv hok hs
    obtain ⟨s', hs', rfl⟩ := Option.map_eq_some_iff.1 hs
    exact hstep s past e s' hinv hok hs'

theorem OkRun.withHistory {ok : σ → ε → Prop} {s : σ} {es : List ε} (h : M.OkRun ok s es)
    (past : List (σ × ε)) : M.withHistory.OkRun (fun p e => ok p.1 e) (s, past) es := by
  induction es generalizing s past with
  | nil => trivial
  | cons e es ih =>
    obtain ⟨hok, hrest⟩ := h
    refine ⟨hok, ?_⟩
    split at hrest
    · rename_i s₁ h₁
      have hstep : M.withHistory.step (s, past) e = some (s₁, (s, e) :: past) :=
        Option.map_eq_some_iff.2 ⟨s₁, h₁, rfl⟩
      rw [hstep]
      exact ih hrest _
    · exact hrest.elim

end Machine

/-! ## Runs of a relation -/

/-- The events lead from one state to the other, where what an event may do is a relation. -/
inductive RunOf {σ ε : Type} (step : σ → ε → σ → Prop) : σ → List ε → σ → Prop where
  | nil (s : σ) : RunOf step s [] s
  | cons {s s₁ s' : σ} {e : ε} {es : List ε} (h : step s e s₁) (hrest : RunOf step s₁ es s') :
    RunOf step s (e :: es) s'

namespace RunOf

variable {σ ε : Type} {step : σ → ε → σ → Prop} {s s' : σ} {es : List ε}

/-- **The invariant rule.** -/
theorem invariant {I : σ → Prop} (hstep : ∀ s e s', I s → step s e s' → I s')
    (h : RunOf step s es s') (hs : I s) : I s' := by
  induction h with
  | nil s => exact hs
  | cons h _ ih => exact ih (hstep _ _ _ hs h)

theorem append {es' : List ε} (h : RunOf step s (es ++ es') s') :
    ∃ s₁, RunOf step s es s₁ ∧ RunOf step s₁ es' s' := by
  induction es generalizing s with
  | nil => exact ⟨s, .nil s, h⟩
  | cons e es ih =>
    cases h with
    | cons he hrest =>
      obtain ⟨s₁, hes, hes'⟩ := ih hrest
      exact ⟨s₁, .cons he hes, hes'⟩

/-- Each event of a run happens in a state that has what the steps preserve. -/
theorem mem_step {I : σ → Prop} (hstep : ∀ s e s', I s → step s e s' → I s')
    (h : RunOf step s es s') (hs : I s) {e : ε} (he : e ∈ es) : ∃ s₁ s₂, I s₁ ∧ step s₁ e s₂ := by
  induction h with
  | nil s => cases he
  | cons hfirst _ ih =>
    obtain rfl | he := List.mem_cons.1 he
    · exact ⟨_, _, hs, hfirst⟩
    · exact ih (hstep _ _ _ hs hfirst) he

end RunOf

end Dirtsand.Lib
