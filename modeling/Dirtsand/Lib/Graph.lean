import Mathlib.Logic.Relation
import Mathlib.Data.List.Perm.Basic
import Mathlib.Tactic.Common

/-!
# Finite directed graphs

A graph is the list of its edges, each with a source and a target; two edges may
have the same ends.

* `Acyclic.exists_rank` — an acyclic graph has a rank that every edge lowers and
  that is at most the number of edges.  It bounds the depth of every walk, so that
  a search without marks ends.
* `exists_rank_from` — so does what is reachable from where no cycle is.
* `not_below_of_descends`, `acyclic_of_rank` — where there is no cycle.
* `acyclic_append_singleton`, `Acyclic.extend` — what one more edge does, and what new
  vertices do whose edges go down.
-/

namespace Dirtsand.Lib.Graph

variable {α ε : Type} (src dst : ε → α)

/-- An edge from `a` to `b`. -/
def Arrow (edges : List ε) (a b : α) : Prop := ∃ e ∈ edges, src e = a ∧ dst e = b

/-- A way from `a` to `b`, of any length. -/
def Reaches (edges : List ε) : α → α → Prop := Relation.ReflTransGen (Arrow src dst edges)

/-- A way from `a` to `b` of one edge or more. -/
def Below (edges : List ε) : α → α → Prop := Relation.TransGen (Arrow src dst edges)

def Acyclic (edges : List ε) : Prop := ∀ a, ¬Below src dst edges a a

variable {src dst} {edges edges' : List ε} {e : ε} {a b c : α}

theorem arrow_of_mem (h : e ∈ edges) : Arrow src dst edges (src e) (dst e) := ⟨e, h, rfl, rfl⟩

theorem Arrow.mono (hsub : edges ⊆ edges') (h : Arrow src dst edges a b) :
    Arrow src dst edges' a b := by
  obtain ⟨e, he, hends⟩ := h
  exact ⟨e, hsub he, hends⟩

/-- The first edge of a way. -/
theorem below_iff : Below src dst edges a b ↔
    ∃ e ∈ edges, src e = a ∧ (dst e = b ∨ Below src dst edges (dst e) b) := by
  constructor
  · intro h
    obtain ⟨c, ⟨e, he, hsrc, hdst⟩, hrest⟩ := Relation.TransGen.head'_iff.1 h
    obtain rfl | hrest := Relation.reflTransGen_iff_eq_or_transGen.1 hrest
    · exact ⟨e, he, hsrc, .inl hdst⟩
    · exact ⟨e, he, hsrc, .inr (hdst ▸ hrest)⟩
  · rintro ⟨e, he, rfl, rfl | hrest⟩
    · exact .single (arrow_of_mem he)
    · exact .head (arrow_of_mem he) hrest

theorem reaches_iff : Reaches src dst edges a b ↔
    a = b ∨ ∃ e ∈ edges, src e = a ∧ Reaches src dst edges (dst e) b := by
  rw [Reaches, Relation.ReflTransGen.cases_head_iff]
  apply or_congr_right
  constructor
  · rintro ⟨c, ⟨e, he, hsrc, rfl⟩, hrest⟩
    exact ⟨e, he, hsrc, hrest⟩
  · rintro ⟨e, he, rfl, hrest⟩
    exact ⟨dst e, arrow_of_mem he, hrest⟩

/-! ## Ranks -/

section Rank

open Classical in
/-- The number of edges that can be passed from `a` on. -/
private noncomputable def passable (src dst : ε → α) (edges : List ε) (a : α) : Nat :=
  edges.countP fun e => Reaches src dst edges a (src e)

private theorem countP_lt {p q : ε → Bool} (hle : ∀ e ∈ edges, p e = true → q e = true)
    (he : e ∈ edges) (hp : p e = false) (hq : q e = true) : edges.countP p < edges.countP q := by
  obtain ⟨l, l', rfl⟩ := List.append_of_mem he
  have hl : l.countP p ≤ l.countP q :=
    List.countP_mono_left fun e he => hle e (List.mem_append_left _ he)
  have hl' : l'.countP p ≤ l'.countP q :=
    List.countP_mono_left fun e he => hle e (List.mem_append_right _ (List.mem_cons_of_mem _ he))
  rw [List.countP_append, List.countP_append, List.countP_cons_of_pos hq,
    List.countP_cons_of_neg (by simp [hp])]
  omega

theorem Acyclic.exists_rank (h : Acyclic src dst edges) :
    ∃ rank : α → Nat, (∀ e ∈ edges, rank (dst e) < rank (src e)) ∧
      ∀ a, rank a ≤ edges.length := by
  classical
  refine ⟨passable src dst edges, fun e he => ?_, fun a => List.countP_le_length⟩
  refine countP_lt (fun e' _ hreach => ?_) he ?_ ?_
  · rw [decide_eq_true_iff] at hreach ⊢
    exact .head (arrow_of_mem he) hreach
  · rw [decide_eq_false_iff_not]
    intro hback
    exact h (src e) (Relation.TransGen.head' (arrow_of_mem he) hback)
  · rw [decide_eq_true_iff]
    exact .refl

/-- Without a cycle that is reachable from `a`, there is a rank that every edge lowers which is. -/
theorem exists_rank_from (h : ∀ b, Reaches src dst edges a b → ¬Below src dst edges b b) :
    ∃ rank : α → Nat, ∀ e ∈ edges, Reaches src dst edges a (src e) → rank (dst e) < rank (src e) := by
  classical
  set near := edges.filter fun e => Reaches src dst edges a (src e) with hnear
  have hsub : near ⊆ edges := List.filter_subset_self _
  have hacyclic : Acyclic src dst near := by
    intro b hcycle
    obtain ⟨e, he, rfl, -⟩ := below_iff.1 hcycle
    have hreach := List.of_mem_filter he
    rw [decide_eq_true_iff] at hreach
    exact h (src e) hreach
      (Relation.TransGen.mono (fun _ _ harrow => Arrow.mono hsub harrow) _ _ hcycle)
  obtain ⟨rank, hrank, -⟩ := hacyclic.exists_rank
  refine ⟨rank, fun e he hreach => hrank e ?_⟩
  rw [hnear, List.mem_filter]
  exact ⟨he, decide_eq_true hreach⟩

/-- What gets smaller along every edge is on no cycle. -/
theorem not_below_of_descends {P : Nat → α → Prop}
    (hstep : ∀ n a b, P n a → Arrow src dst edges a b → ∃ m < n, P m b) {n : Nat} (h : P n a) :
    ¬Below src dst edges a a := by
  have hway : ∀ n b c, P n b → Below src dst edges b c → ∃ m < n, P m c := by
    intro n b c hb hbelow
    induction hbelow with
    | single harrow => exact hstep n b _ hb harrow
    | tail _ harrow ih =>
      obtain ⟨m, hm, hc⟩ := ih
      obtain ⟨k, hk, hd⟩ := hstep m _ _ hc harrow
      exact ⟨k, by omega, hd⟩
  induction n using Nat.strongRecOn generalizing a with
  | _ n ih =>
    intro hcycle
    obtain ⟨m, hm, ha⟩ := hway n a a h hcycle
    exact ih m hm ha hcycle

theorem acyclic_of_rank (rank : α → Nat) (h : ∀ e ∈ edges, rank (dst e) < rank (src e)) :
    Acyclic src dst edges := by
  have hlower : ∀ a b, Below src dst edges a b → rank b < rank a := by
    intro a b hab
    induction hab with
    | single harrow =>
      obtain ⟨e, he, rfl, rfl⟩ := harrow
      exact h e he
    | tail _ harrow ih =>
      obtain ⟨e, he, rfl, rfl⟩ := harrow
      exact Nat.lt_trans (h e he) ih
  intro a hcycle
  exact absurd (hlower a a hcycle) (Nat.lt_irrefl _)

end Rank

/-! ## More edges -/

theorem Below.mono (hsub : edges ⊆ edges') (h : Below src dst edges a b) :
    Below src dst edges' a b :=
  Relation.TransGen.mono (fun _ _ => Arrow.mono hsub) _ _ h

theorem Acyclic.mono (hsub : edges ⊆ edges') (h : Acyclic src dst edges') : Acyclic src dst edges :=
  fun a hcycle => h a (hcycle.mono hsub)

/-- **One more edge** closes a cycle exactly if its source can be reached from its target. -/
theorem acyclic_append_singleton : Acyclic src dst (edges ++ [e]) ↔
    Acyclic src dst edges ∧ ¬Reaches src dst edges (dst e) (src e) := by
  classical
  constructor
  · intro h
    refine ⟨h.mono (List.subset_append_left _ _), fun hback => ?_⟩
    have hback : Reaches src dst (edges ++ [e]) (dst e) (src e) :=
      Relation.ReflTransGen.mono (fun _ _ => Arrow.mono (List.subset_append_left _ _)) _ _ hback
    exact h (src e) (Relation.TransGen.head' (arrow_of_mem (by simp)) hback)
  · rintro ⟨hold, hback⟩
    obtain ⟨rank, hrank, hbound⟩ := hold.exists_rank
    -- What the source can be reached from is lifted above all the rest.
    refine acyclic_of_rank
      (fun a => if Reaches src dst edges a (src e) then rank a + (edges.length + 1) else rank a) ?_
    intro e' he'
    obtain he' | he' := List.mem_append.1 he'
    · have hlower := hrank e' he'
      by_cases hreach : Reaches src dst edges (dst e') (src e)
      · have hsrc : Reaches src dst edges (src e') (src e) := .head (arrow_of_mem he') hreach
        simp only [if_pos hreach, if_pos hsrc]
        omega
      · simp only [if_neg hreach]
        split <;> omega
    · obtain rfl := List.mem_singleton.1 he'
      have htarget := hbound (dst e')
      have hself : Reaches src dst edges (src e') (src e') := .refl
      simp only [if_neg hback, if_pos hself]
      omega

/-- **New vertices.**  The edges so far run between `Old` vertices; a new one goes into a `Sink`,
or from a new vertex to an old one or to a new one of a lower level. -/
theorem Acyclic.extend (h : Acyclic src dst edges) (Old Sink : α → Prop) (level : α → Nat)
    (hold : ∀ e ∈ edges, Old (src e) ∧ Old (dst e)) (hsink : ∀ a, Sink a → ¬Old a)
    (hnew : ∀ e ∈ edges', ¬Sink (src e) ∧ (Sink (dst e) ∨
      ¬Old (src e) ∧ (Old (dst e) ∨ level (dst e) < level (src e)))) :
    Acyclic src dst (edges ++ edges') := by
  classical
  obtain ⟨rank, hrank, hbound⟩ := h.exists_rank
  refine acyclic_of_rank (fun a => if Sink a then 0 else if Old a then rank a + 1
    else level a + (edges.length + 2)) ?_
  intro e he
  obtain he | he := List.mem_append.1 he
  · obtain ⟨hsrc, hdst⟩ := hold e he
    have hsrcSink : ¬Sink (src e) := fun hs => hsink _ hs hsrc
    have hdstSink : ¬Sink (dst e) := fun hs => hsink _ hs hdst
    have hlower := hrank e he
    simp only [if_neg hsrcSink, if_neg hdstSink, if_pos hsrc, if_pos hdst]
    omega
  · obtain ⟨hsrc, hend⟩ := hnew e he
    simp only [if_neg hsrc]
    obtain hdst | ⟨hsrcNew, hdst⟩ := hend
    · rw [if_pos hdst]
      split <;> omega
    · rw [if_neg hsrcNew]
      have htarget := hbound (dst e)
      split
      · omega
      · split
        · omega
        · rename_i hdstNew
          have hlower := hdst.resolve_left hdstNew
          omega

end Dirtsand.Lib.Graph
