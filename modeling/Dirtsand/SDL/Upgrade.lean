import Dirtsand.SDL.StateTree

/-!
# Upgraded states

What `State::update` makes of a state when a newer descriptor is there, and what is
left of it in a blob.

* `carry_clean` — no variable of the upgraded state is dirty, so that a blob holds
  none of them.
* `carried_iff` — when the upgraded state has only defaults.
* `upgrade_survives` — when the upgraded state is read back from its blob.
-/

namespace Dirtsand.SDL

open Lib.Reader (Reads)

variable {κ σ : Type}

/-! ## Elements that are carried over -/

namespace Elem

/-- What `Variable::copy` makes of an element. -/
def Taken (S : Children σ) : (t : VarType) → t.Elem κ σ → t.Elem κ σ → Prop
  | .stateDesc, c, c' => S.update c = .ok c'
  | _, e, e' => e' = e

theorem taken {S : Children σ} {t : VarType} {es new : List (t.Elem κ σ)}
    (h : Variable.copied S t es = .ok new) : List.Forall₂ (Taken S t) es new := by
  have hsame : Except.ok es = (Except.ok new : Except StreamError (List (t.Elem κ σ))) →
      (∀ e : t.Elem κ σ, Taken S t e e) → List.Forall₂ (Taken S t) es new := by
    intro heq htaken
    obtain rfl := Except.ok.inj heq
    exact List.forall₂_same.2 fun e _ => htaken e
  cases t with
  | stateDesc => exact Lib.mapM_eq_ok.1 h
  | invalid => exact nomatch h
  | _ => exact hsame h fun _ => rfl

/-- A nested state of a new variable. -/
def New (S : Children σ) (c : σ) : Prop :=
  ∃ name c', S.new name = .ok c' ∧ c = S.setDefault c'

/-- An element of a new variable. -/
def IsNew (S : Children σ) : (t : VarType) → t.Elem κ σ → Prop
  | .stateDesc, c => New S c
  | _, _ => True

/-- `D` says of a nested state what `R` says of it once it is updated. -/
def Foresees (S : Children σ) (D R : σ → σ → Prop) : Prop :=
  ∀ c c' x, New S x → S.update c = .ok c' → (R c' x ↔ D c x)

theorem same_taken {S : Children σ} {D R : σ → σ → Prop} (hD : Foresees S D R) {t : VarType}
    {e e' x : t.Elem κ σ} (htaken : Taken S t e e') (hx : IsNew S t x) :
    Same R t e' x ↔ Same D t e x := by
  cases t with
  | stateDesc => exact hD e e' x hx htaken
  | _ =>
    obtain rfl := htaken
    exact Iff.rfl

theorem forall₂_taken {S : Children σ} {D R : σ → σ → Prop} (hD : Foresees S D R) {t : VarType}
    {es new xs : List (t.Elem κ σ)} (htaken : List.Forall₂ (Taken S t) es new)
    (hx : ∀ x ∈ xs, IsNew S t x) :
    List.Forall₂ (Same R t) new xs ↔ List.Forall₂ (Same D t) es xs := by
  induction htaken generalizing xs with
  | nil => exact Iff.intro (fun h => by cases h; exact .nil) fun h => by cases h; exact .nil
  | @cons e e' es new he _ ih =>
    obtain _ | ⟨x, xs⟩ := xs
    · exact iff_of_false (fun h => nomatch h) fun h => nomatch h
    · rw [List.forall₂_cons, List.forall₂_cons, same_taken hD he (hx x List.mem_cons_self),
        ih fun y hy => hx y (List.mem_cons_of_mem x hy)]

theorem resize_length {S : Children σ} {typeName : String} {t : VarType} {n : Nat}
    {es : List (t.Elem κ σ)} (h : resize S typeName t n = .ok es) : es.length = n := by
  by_cases hnested : t = .stateDesc
  · subst hnested
    obtain _ | n := n
    · rw [← Except.ok.inj h]
      rfl
    · rw [resize] at h
      split at h
      · rw [← Except.ok.inj h]
        exact List.length_replicate
      · cases h
  · obtain ⟨es', hes', hlen, -⟩ := resize_simple (S := S) hnested typeName n
    rw [hes'] at h
    rw [← Except.ok.inj h]
    exact hlen

theorem isNew_resize {S : Children σ} {typeName : String} {t : VarType} {n : Nat}
    {es : List (t.Elem κ σ)} (d : Option t.Default) (h : resize S typeName t n = .ok es) :
    ∀ e ∈ es.map (setDefault S t d), IsNew S t e := by
  intro e he
  obtain ⟨e', he', rfl⟩ := List.mem_map.1 he
  cases t with
  | stateDesc =>
    obtain _ | n := n
    · rw [← Except.ok.inj h] at he'
      exact absurd he' List.not_mem_nil
    · rw [resize] at h
      split at h
      · rename_i child hchild
        rw [← Except.ok.inj h] at he'
        rw [List.eq_of_mem_replicate he']
        exact ⟨typeName, child, hchild, rfl⟩
      · cases h
  | _ => trivial

end Elem

/-! ## Variables that are carried over -/

namespace Variable

variable {S : Children σ} {v w : VarDescriptor}

/-- What a variable carries over is what the new variable has anyway: an array of any
length is empty, and in one of a fixed length every element that there is room for is
the default. -/
def CarriedDefault (D : σ → σ → Prop) (f : Variable κ σ v) (rhs : Variable κ σ w) : Prop :=
  ∀ h : w.type = v.type,
    if v.size = -1 then rhs.elems = []
    else List.Forall₂ (Elem.Same D v.type) ((h ▸ rhs.elems : List (v.type.Elem κ σ)).take f.elems.length)
      (f.elems.take rhs.elems.length)

theorem IsNew.elems_isNew {f : Variable κ σ v} (hf : IsNew S f) :
    ∀ e ∈ f.elems, Elem.IsNew S v.type e := by
  obtain ⟨es, hes, rfl⟩ := hf.elems
  exact Elem.isNew_resize v.default hes

theorem IsNew.clean {f : Variable κ σ v} (hf : IsNew S f) : f.dirty = false := by
  obtain ⟨es, -, rfl⟩ := hf.elems
  rfl

/-- What `copy` does. -/
theorem copy_eq_ok {f var : Variable κ σ v} {rhs : Variable κ σ w}
    (h : f.copy S rhs = .ok var) : ∃ (ht : w.type = v.type) (dest new : List (v.type.Elem κ σ)),
      (if v.size = -1 then Elem.resize S v.typeName v.type rhs.elems.length = .ok dest
        else dest = f.elems) ∧
      List.Forall₂ (Elem.Taken S v.type) ((ht ▸ rhs.elems : List (v.type.Elem κ σ)).take dest.length)
        new ∧
      var.elems = new ++ dest.drop new.length ∧ (var.dirty = true → f.dirty = true) := by
  unfold copy at h
  split at h
  · rename_i ht
    obtain ⟨dest, hdest, h⟩ := Lib.bind_eq_ok.1 h
    obtain ⟨new, hnew, h⟩ := Lib.bind_eq_ok.1 h
    obtain rfl := Except.ok.inj h
    refine ⟨ht, dest, new, ?_, Elem.taken hnew, rfl, ?_⟩
    · have hlen : (ht ▸ rhs.elems : List (v.type.Elem κ σ)).length = rhs.elems.length := by
        obtain ⟨t, typeName, name, size, default⟩ := v
        obtain rfl : w.type = t := ht
        rfl
      rw [hlen, resized] at hdest
      by_cases hsize : v.size = -1
      · rw [if_pos hsize] at hdest ⊢
        exact hdest
      · rw [if_neg hsize] at hdest ⊢
        exact (Except.ok.inj hdest).symm
    · dsimp only
      split
      · exact fun hf => nomatch hf
      · exact id
  · cases h

theorem copy_timestamp {f var : Variable κ σ v} {rhs : Variable κ σ w} (h : f.copy S rhs = .ok var) :
    var.timestamp = f.timestamp := by
  unfold copy at h
  split at h
  · obtain ⟨dest, -, h⟩ := Lib.bind_eq_ok.1 h
    obtain ⟨new, -, h⟩ := Lib.bind_eq_ok.1 h
    obtain rfl := Except.ok.inj h
    rfl
  · cases h

theorem copy_clean {f var : Variable κ σ v} {rhs : Variable κ σ w} (hf : IsNew S f)
    (h : f.copy S rhs = .ok var) : var.dirty = false := by
  obtain ⟨-, -, -, -, -, -, hdirty⟩ := copy_eq_ok h
  by_contra hvar
  rw [hf.clean] at hdirty
  exact Bool.false_ne_true (hdirty (Bool.not_eq_false _ ▸ hvar))

theorem IsNew.elems_variable {f : Variable κ σ v} (hf : IsNew S f) (hsize : v.size = -1) :
    f.elems = [] := by
  obtain ⟨es, hes, rfl⟩ := hf.elems
  have hlen := Elem.resize_length hes
  rw [hsize] at hlen
  rw [List.length_eq_zero_iff.1 hlen]
  rfl

/-- **When what a variable carries over is the default.** -/
theorem carried_iff {D R : σ → σ → Prop} (hR : ∀ c, R c c) (hD : Elem.Foresees S D R)
    {f var : Variable κ σ v} {rhs : Variable κ σ w} (hf : IsNew S f)
    (h : f.copy S rhs = .ok var) :
    List.Forall₂ (Elem.Same R v.type) var.elems f.elems ↔ CarriedDefault D f rhs := by
  obtain ⟨ht, dest, new, hdest, htaken, helems, -⟩ := copy_eq_ok h
  rw [helems, CarriedDefault, forall_prop_of_true ht]
  have hlen : (ht ▸ rhs.elems : List (v.type.Elem κ σ)).length = rhs.elems.length := by
    obtain ⟨t, typeName, name, size, default⟩ := v
    obtain rfl : w.type = t := ht
    rfl
  have hnew := htaken.length_eq
  rw [List.length_take, hlen] at hnew
  by_cases hsize : v.size = -1
  · rw [if_pos hsize] at hdest ⊢
    have hd := Elem.resize_length hdest
    rw [hf.elems_variable hsize, List.drop_eq_nil_of_le (by omega), List.append_nil,
      List.forall₂_nil_right_iff, ← List.length_eq_zero_iff, ← List.length_eq_zero_iff, ← hnew]
    omega
  · rw [if_neg hsize] at hdest ⊢
    subst hdest
    have hk : new.length ≤ f.elems.length := by omega
    have htake : f.elems.take new.length = f.elems.take rhs.elems.length := by
      by_cases hle : rhs.elems.length ≤ f.elems.length
      · rw [← hnew, min_eq_right hle]
      · rw [List.take_of_length_le (by omega), List.take_of_length_le (by omega)]
    have hsplit : List.Forall₂ (Elem.Same R v.type) (new ++ f.elems.drop new.length) f.elems ↔
        List.Forall₂ (Elem.Same R v.type) new (f.elems.take new.length) := by
      have happ : List.Forall₂ (Elem.Same R v.type) (new ++ f.elems.drop new.length)
          (f.elems.take new.length ++ f.elems.drop new.length) ↔ _ ∧ _ :=
        Lib.forall₂_append (List.length_take_of_le hk).symm
      rw [List.take_append_drop] at happ
      rw [happ]
      exact and_iff_left (List.forall₂_same.2 fun e _ => Elem.Same.refl hR _ e)
    rw [hsplit, htake]
    exact Elem.forall₂_taken hD htaken fun x hx => hf.elems_isNew x (List.mem_of_mem_take hx)

end Variable

namespace StateData

variable {S : Children σ} {d d' : StateDescriptor}

/-- All that a state carries over to the variables of the same names is their default. -/
def CarriedDefault (D : σ → σ → Prop) (s : StateData κ σ d) (f : StateData κ σ d') : Prop :=
  ∀ i j, d.find (d'.vars.get i).name = some j → (f.vars i).CarriedDefault D (s.vars j)

theorem carry_eq_ok {s : StateData κ σ d} {f s' : StateData κ σ d'} (h : s.carry S f = .ok s') :
    s'.object = f.object ∧ s'.flags = f.flags ∧ ∀ i,
      (d.find (d'.vars.get i).name = none → s'.vars i = f.vars i) ∧
      ∀ j, d.find (d'.vars.get i).name = some j → (f.vars i).copy S (s.vars j) = .ok (s'.vars i) := by
  unfold carry at h
  split at h
  · rename_i vars hvars
    obtain rfl := Except.ok.inj h
    refine ⟨rfl, rfl, fun i => ?_⟩
    have hi := Lib.pointwise_eq_ok.1 hvars i
    constructor
    · intro hfind
      rw [hfind] at hi
      exact (Except.ok.inj hi).symm
    · intro j hfind
      rw [hfind] at hi
      exact hi
  · cases h

/-- **Nothing of an upgraded state is dirty.** -/
theorem carry_clean {s : StateData κ σ d} {f s' : StateData κ σ d'}
    (hf : StateData.new S d' = .ok f) (h : s.carry S f = .ok s') (i : Fin d'.vars.length) :
    (s'.vars i).dirty = false := by
  obtain ⟨-, -, hvars⟩ := carry_eq_ok h
  cases hfind : d.find (d'.vars.get i).name with
  | none =>
    rw [(hvars i).1 hfind]
    exact (isNew hf i).clean
  | some j => exact Variable.copy_clean (isNew hf i) ((hvars i).2 j hfind)

/-- **When an upgraded state has only defaults.** -/
theorem carried_iff {D R : σ → σ → Prop} (hR : ∀ c, R c c) (hD : Elem.Foresees S D R)
    {s : StateData κ σ d} {f s' : StateData κ σ d'} (hf : StateData.new S d' = .ok f)
    (h : s.carry S f = .ok s') : s'.SameElems R f ↔ s.CarriedDefault D f := by
  obtain ⟨-, -, hvars⟩ := carry_eq_ok h
  refine forall_congr' fun i => ?_
  cases hfind : d.find (d'.vars.get i).name with
  | none =>
    rw [(hvars i).1 hfind]
    refine iff_of_true ?_ fun j hj => nomatch hj
    exact List.forall₂_same.2 fun e _ => Elem.Same.refl hR _ e
  | some j =>
    rw [Variable.carried_iff hR hD (isNew hf i) ((hvars i).2 j hfind)]
    constructor
    · intro hdefault j' hj'
      obtain rfl := Option.some.inj hj'
      exact hdefault
    · exact fun hall => hall j rfl

/-- Of a state in which nothing is dirty, a blob holds no value. -/
theorem reads_clean {C : Creatables κ} {f x : StateData κ σ d} (now : Clock)
    (hclean : ∀ i, (x.vars i).dirty = false) (object : MOUL.Uoid) : ∃ t named,
      Reads (StateData.read C S now { f with object }) (x.write C S) (t, named) ∧
        t.vars = f.vars := by
  refine ⟨{ f with object, flags := x.flags }, [] ++ [], ?_, rfl⟩
  refine (Streams.reads_u16 _).bind ?_
  refine (Streams.reads_u8 _).bind ?_
  rw [if_neg (not_not.2 rfl)]
  refine (reads_noVars now f.vars true fun i _ => hclean i).bind ?_
  exact (reads_noVars now f.vars false fun i _ => hclean i).andThen (Reads.pure _)

end StateData

/-! ## Nested states that are updated -/

/-- The update of a nested state comes to the values of a new one. -/
def Foreseen (db : DescriptorDb) : (n : Nat) → Child κ n → Child κ n → Prop
  | 0, _, _ => True
  | _ + 1, none, none => True
  | n + 1, some c, some x =>
    match db.findLatestDescriptor c.desc.desc.name with
    | none => False
    | some p =>
      if p = c.desc then State.SameElems (SameValues n) c x
      else p.desc = x.desc.desc ∧ c.data.CarriedDefault (Foreseen db n) x.data
  | _ + 1, _, _ => False

/-- What `update` does. -/
theorem State.update_eq_ok {S : Children σ} {db : DescriptorDb} {s s' : State κ σ} {b : Bool}
    (h : s.update S db = .ok (s', b)) : ∃ p, db.findLatestDescriptor s.desc.desc.name = some p ∧
      ((p = s.desc ∧ s' = s ∧ b = false) ∨
        (p ≠ s.desc ∧ b = true ∧ ∃ (f data : StateData κ σ p.desc), StateData.new S p.desc = .ok f ∧
          s.data.carry S f = .ok data ∧ s' = ⟨p, data⟩)) := by
  unfold State.update at h
  split at h
  · cases h
  · rename_i p hlatest
    refine ⟨p, hlatest, ?_⟩
    split at h
    · rename_i hp
      obtain ⟨rfl, rfl⟩ := Prod.mk.inj (Except.ok.inj h)
      exact .inl ⟨hp, rfl, rfl⟩
    · rename_i hp
      split at h
      · cases h
      · rename_i f hf
        split at h
        · cases h
        · rename_i data hdata
          obtain ⟨rfl, rfl⟩ := Prod.mk.inj (Except.ok.inj h)
          exact .inr ⟨hp, rfl, f, data, hf, hdata, rfl⟩

theorem State.updated_eq_ok {S : Children σ} {db : DescriptorDb} {s : State κ σ}
    {st : Option (State κ σ)} (h : State.updated S db (some s) = .ok st) :
    ∃ s' b, s.update S db = .ok (s', b) ∧ st = some s' := by
  rw [State.updated] at h
  split at h
  · rename_i s' b hs'
    exact ⟨s', b, hs', (Except.ok.inj h).symm⟩
  · cases h

/-- **What the update of a nested state comes to.** -/
theorem children_foresees (C : Creatables κ) (db : DescriptorDb) : (n : Nat) →
    Elem.Foresees (children C db n) (Foreseen db n) (SameValues n)
  | 0, c, _, _, _, _ => nomatch c
  | n + 1, c, c', x, hx, hup => by
    obtain ⟨name, x₀, hx₀, rfl⟩ := hx
    obtain _ | c := c
    · obtain rfl := Except.ok.inj hup
      cases x₀ <;> exact Iff.rfl
    · obtain ⟨c'', b, hupdate, rfl⟩ := State.updated_eq_ok hup
      obtain _ | x := x₀
      · exact Iff.rfl
      · obtain ⟨p, hlatest, hcases⟩ := State.update_eq_ok hupdate
        have hnew := State.new_eq_ok hx₀
        -- Setting the default of a new state changes nothing.
        have hdefault : (children C db (n + 1)).setDefault (some x) = some x := by
          have hdata := StateData.setDefault_new (children_setDefault_idem C db n) hnew
          show some (State.mk x.desc (x.data.setDefault _)) = some x
          rw [hdata]
        rw [hdefault]
        show State.SameElems (SameValues n) c'' x ↔ match db.findLatestDescriptor c.desc.desc.name with
          | none => False
          | some p => if p = c.desc then State.SameElems (SameValues n) c x
            else p.desc = x.desc.desc ∧ c.data.CarriedDefault (Foreseen db n) x.data
        rw [hlatest]
        dsimp only
        obtain ⟨hp, rfl, -⟩ | ⟨hp, -, f, data, hf, hcarry, rfl⟩ := hcases
        · rw [if_pos hp]
        · rw [if_neg hp]
          obtain ⟨⟨bucket, version, d⟩, y⟩ := x
          obtain ⟨bucket', version', d'⟩ := p
          constructor
          · rintro ⟨hd, hsame⟩
            obtain rfl : d = d' := hd
            obtain rfl : f = y := Except.ok.inj (hf.symm.trans hnew)
            refine ⟨rfl, ?_⟩
            exact (StateData.carried_iff (SameValues.refl n) (children_foresees C db n) hf hcarry).1 hsame
          · rintro ⟨hd, hcarried⟩
            obtain rfl : d' = d := hd
            obtain rfl : f = y := Except.ok.inj (hf.symm.trans hnew)
            refine ⟨rfl, ?_⟩
            exact (StateData.carried_iff (SameValues.refl n) (children_foresees C db n) hf hcarry).2
              hcarried

/-! ## Upgraded states in blobs -/

namespace State

variable {C : Creatables κ} {S : Children σ} {db : DescriptorDb} {R : σ → σ → Prop}

variable (C S db R) in
/-- `FromBlob` of what `toBlob` writes has the same descriptor and the same values. -/
def Survives (now : Clock) (s : State κ σ) : Prop :=
  ∃ t rest, State.fromBlob C S db now (State.toBlob C S (some s)) = .ok (some t, rest) ∧
    State.SameElems R s t

theorem clean_run (now : Clock) {bucket bucket' : String} {version version' : Int}
    {d : StateDescriptor} {f x : StateData κ σ d} (hname : Streams.Safe d.name)
    (hobject : x.object = {}) (hnew : StateData.new S d = .ok f)
    (hclean : ∀ i, (x.vars i).dirty = false)
    (hfind : db.findDescriptor d.name (Streams.wrap16 d.version) = some ⟨bucket', version', d⟩) :
    ∃ t : StateData κ σ d,
      State.fromBlob C S db now (State.toBlob C S (some ⟨⟨bucket, version, d⟩, x⟩)) =
        .ok (some ⟨⟨bucket', version', d⟩, t⟩, []) ∧ t.vars = f.vars := by
  have hsafe : Streams.Safe x.object.name := by
    rw [hobject]
    exact Variable.safe_empty
  exact fromBlob_run bucket version hname hsafe hnew (StateData.reads_clean now hclean) hfind

/-- A state in which nothing is dirty survives if it has only defaults. -/
theorem survives_clean (now : Clock) {p : DescriptorPtr} {f x : StateData κ σ p.desc}
    (hname : Streams.Safe p.desc.name) (hobject : x.object = {}) (hnew : StateData.new S p.desc = .ok f)
    (hclean : ∀ i, (x.vars i).dirty = false) :
    Survives C S db R now ⟨p, x⟩ ↔ Found db p.desc ∧ x.SameElems R f := by
  obtain ⟨bucket, version, d⟩ := p
  constructor
  · rintro ⟨⟨⟨bucket', version', d'⟩, t⟩, rest, hfrom, hd, hsame⟩
    have hfind := fromBlob_desc hname hfrom
    obtain rfl : d' = d := hd
    refine ⟨⟨_, hfind, rfl⟩, ?_⟩
    obtain ⟨t', hfrom', hvars⟩ := clean_run now hname hobject hnew hclean hfind
    have heq := Except.ok.inj (hfrom.symm.trans hfrom')
    obtain ⟨⟨-, rfl⟩, -⟩ := Prod.mk.inj heq
    intro i
    rw [← hvars]
    exact hsame i
  · rintro ⟨⟨⟨bucket', version', d'⟩, hfind, hd⟩, hsame⟩
    obtain rfl : d' = d := hd
    obtain ⟨t', hfrom', hvars⟩ := clean_run now hname hobject hnew hclean hfind
    refine ⟨_, _, hfrom', rfl, fun i => ?_⟩
    show List.Forall₂ (Elem.Same R _) (x.vars i).elems (t'.vars i).elems
    rw [hvars]
    exact hsame i

/-- Where there is a newer version, the latest entry is another one. -/
theorem latest_ne (hdb : DescriptorDb.Loaded db) {p q r : DescriptorPtr}
    (hlatest : db.findLatestDescriptor q.desc.name = some p) (hq : q ∈ db) (hr : r ∈ db)
    (hbucket : r.bucket = q.bucket) (hnewer : q.desc.version < r.desc.version) : p ≠ q := by
  intro heq
  subst heq
  obtain ⟨-, -, hmax⟩ := DescriptorDb.findLatestDescriptor_mem hlatest
  obtain ⟨r', hr', hb', hv'⟩ := hdb.own r hr
  have hle := hmax r' hr' (by rw [hb', hbucket, hdb.bucket p hq])
  rw [hv', hdb.latest_version hlatest] at hle
  omega

/-- The name of the latest descriptor is as safe as the name that finds it. -/
theorem latest_safe (hdb : DescriptorDb.Loaded db) {name : String} {p : DescriptorPtr}
    (hlatest : db.findLatestDescriptor name = some p) (hname : Streams.Safe name) :
    Streams.Safe p.desc.name := by
  obtain ⟨hmem, hbucket, -⟩ := DescriptorDb.findLatestDescriptor_mem hlatest
  refine safe_of_bucket ?_ hname
  rw [← hbucket, hdb.bucket p hmem]

/-- An upgraded state survives if all that it carries over is the default. -/
theorem survives_iff (hdb : DescriptorDb.Loaded db) {n : Nat} (now now' : Clock)
    {blob rest : List UInt8} {s s' : State κ (Child κ n)} {b : Bool}
    (hread : State.fromBlob C (children C db n) db now blob = .ok (some s, rest))
    (hnewer : ∃ q ∈ db, q.bucket = s.desc.bucket ∧ s.desc.desc.version < q.desc.version)
    (hupdate : s.update (children C db n) db = .ok (s', b)) :
    Survives C (children C db n) db (SameValues n) now' s' ↔
      ∃ p f, db.findLatestDescriptor s.desc.desc.name = some p ∧
        StateData.new (children C db n) p.desc = .ok f ∧ Found db p.desc ∧
        s.data.CarriedDefault (Foreseen db n) f := by
  obtain ⟨hmem, hname⟩ := fromBlob_mem hdb hread
  obtain ⟨q, hq, hbucket, hversion⟩ := hnewer
  obtain ⟨p, hlatest, hcases⟩ := update_eq_ok hupdate
  have hp : p ≠ s.desc := latest_ne hdb hlatest hmem hq hbucket hversion
  obtain ⟨heq, -, -⟩ | ⟨-, -, f, data, hf, hcarry, rfl⟩ := hcases
  · exact absurd heq hp
  · obtain ⟨hobject, -, -⟩ := StateData.carry_eq_ok hcarry
    rw [survives_clean now' (latest_safe hdb hlatest hname) (hobject.trans (new_object hf)) hf
        (StateData.carry_clean hf hcarry),
      StateData.carried_iff (SameValues.refl n) (children_foresees C db n) hf hcarry]
    constructor
    · rintro ⟨hfound, hcarried⟩
      exact ⟨p, f, hlatest, hf, hfound, hcarried⟩
    · rintro ⟨p', f', hlatest', hf', hfound, hcarried⟩
      obtain rfl := Option.some.inj (hlatest.symm.trans hlatest')
      obtain rfl := Except.ok.inj (hf.symm.trans hf')
      exact ⟨hfound, hcarried⟩

/-- **When an upgrade survives.**  The state that `update` makes of one that was read,
where there is a newer version of its descriptor, is read back from its blob with the
same values if the latest version is found again and all that is carried over to it is
the default there, and not otherwise. -/
theorem upgrade_survives (C : Creatables κ) (descs : List StateDescriptor) (n : Nat)
    (now now' : Clock) {blob rest : List UInt8} {s s' : State κ (Child κ n)} {b : Bool}
    (hread : State.fromBlob C (children C (DescriptorDb.load descs) n) (DescriptorDb.load descs) now
      blob = .ok (some s, rest))
    (hnewer : ∃ q ∈ DescriptorDb.load descs,
      q.bucket = s.desc.bucket ∧ s.desc.desc.version < q.desc.version)
    (hupdate : s.update (children C (DescriptorDb.load descs) n) (DescriptorDb.load descs) =
      .ok (s', b)) :
    Survives C (children C (DescriptorDb.load descs) n) (DescriptorDb.load descs) (SameValues n) now'
        s' ↔
      ∃ p f, (DescriptorDb.load descs).findLatestDescriptor s.desc.desc.name = some p ∧
        StateData.new (children C (DescriptorDb.load descs) n) p.desc = .ok f ∧
        Found (DescriptorDb.load descs) p.desc ∧
        s.data.CarriedDefault (Foreseen (DescriptorDb.load descs) n) f :=
  survives_iff (DescriptorDb.loaded_load descs) now now' hread hnewer hupdate

/-! ## A door that is upgraded -/

/-- The integer of an element. -/
def intElem : (t : VarType) → t.Elem κ σ → Option UInt32
  | .int, e => some e
  | _, _ => none

/-- The integers of a state. -/
def ints (s : State κ σ) : List (List (Option UInt32)) :=
  (List.finRange s.desc.desc.vars.length).map fun i => (s.data.vars i).elems.map (intElem _)

theorem intElem_eq {t : VarType} {e e' : t.Elem κ σ} (h : Elem.Same R t e e') :
    intElem t e = intElem t e' := by
  cases t with
  | int => exact congrArg some h
  | _ => rfl

theorem ints_eq {s t : State κ σ} (h : State.SameElems R s t) : s.ints = t.ints := by
  obtain ⟨⟨bucket, version, d⟩, x⟩ := s
  obtain ⟨⟨bucket', version', d'⟩, y⟩ := t
  obtain ⟨hd, hsame⟩ := h
  obtain rfl : d' = d := hd
  refine List.map_congr_left fun i _ => ?_
  have hmap : List.Forall₂ Eq ((x.vars i).elems.map (intElem _)) ((y.vars i).elems.map (intElem _)) :=
    List.forall₂_map_left_iff.2 (List.forall₂_map_right_iff.2 ((hsame i).imp fun _ _ h => intElem_eq h))
  exact List.forall₂_eq_eq_eq ▸ hmap

/-- Integers that are equal are all there is to compare where each variable is an integer. -/
theorem sameElems_of_ints {s t : State κ σ} (hdesc : s.desc.desc = t.desc.desc)
    (hint : ∀ v ∈ s.desc.desc.vars, v.type = .int) (h : s.ints = t.ints) :
    State.SameElems R s t := by
  obtain ⟨⟨bucket, version, d⟩, x⟩ := s
  obtain ⟨⟨bucket', version', d'⟩, y⟩ := t
  obtain rfl : d = d' := hdesc
  refine ⟨rfl, fun i => ?_⟩
  have hi : (x.vars i).elems.map (intElem _) = (y.vars i).elems.map (intElem _) :=
    List.map_inj_left.1 h i (List.mem_finRange i)
  have htype : (d.vars.get i).type = .int := hint _ (List.get_mem d.vars i)
  have hsame : ∀ {type : VarType}, type = .int → ∀ {es es' : List (type.Elem κ σ)},
      es.map (intElem type) = es'.map (intElem type) → List.Forall₂ (Elem.Same R type) es es' := by
    rintro _ rfl es es' hes
    obtain rfl := List.map_injective_iff.2 (fun a b hab => Option.some.inj hab) hes
    exact List.forall₂_same.2 fun _ _ => rfl
  exact hsame htype hi

/-- What becomes of the integers of a blob when its state is upgraded, and when that is
written and read. -/
def upgradedInts (descs : List StateDescriptor) (blob : List UInt8) :
    Option (List (List (Option UInt32)) × List (List (Option UInt32))) :=
  let db := DescriptorDb.load descs
  let S := children noCreatables db 0
  match State.fromBlob noCreatables S db (fun _ => {}) blob with
  | .ok (some s, _) =>
    match s.update S db with
    | .ok (s', true) =>
      match State.fromBlob noCreatables S db (fun _ => {}) (State.toBlob noCreatables S (some s')) with
      | .ok (some t, _) =>
        if s.desc = ⟨"door", 1, oneVar intVar⟩ ∧ s'.desc.desc = t.desc.desc ∧
            ∀ v ∈ s'.desc.desc.vars, v.type = .int then some (s'.ints, t.ints) else none
      | _ => none
    | _ => none
  | _ => none

/-- A door of which the descriptor has a newer version. -/
theorem upgrade_run {descs : List StateDescriptor} {blob : List UInt8}
    {carried kept : List (List (Option UInt32))} (h : upgradedInts descs blob = some (carried, kept))
    (hnewer : ∃ q ∈ DescriptorDb.load descs, q.bucket = "door" ∧ 1 < q.desc.version) :
    ∃ s rest s',
      State.fromBlob noCreatables (children noCreatables (DescriptorDb.load descs) 0)
        (DescriptorDb.load descs) (fun _ => {}) blob = .ok (some s, rest) ∧
      (∃ q ∈ DescriptorDb.load descs,
        q.bucket = s.desc.bucket ∧ s.desc.desc.version < q.desc.version) ∧
      s.update (children noCreatables (DescriptorDb.load descs) 0) (DescriptorDb.load descs) =
        .ok (s', true) ∧
      s'.ints = carried ∧
      (Survives noCreatables (children noCreatables (DescriptorDb.load descs) 0)
        (DescriptorDb.load descs) (SameValues 0) (fun _ => {}) s' ↔ carried = kept) := by
  unfold upgradedInts at h
  dsimp only at h
  split at h
  · rename_i s rest hread
    split at h
    · rename_i s' hupdate
      split at h
      · rename_i t rest' hback
        split at h
        · rename_i hdescs
          obtain ⟨hdesc, hback', hint⟩ := hdescs
          obtain ⟨hs', ht⟩ := Prod.mk.inj (Option.some.inj h)
          refine ⟨s, rest, s', hread, ?_, hupdate, hs', fun hsurvives => ?_, fun heq => ?_⟩
          · rw [hdesc]
            exact hnewer
          · obtain ⟨t', rest'', hfrom, hsame⟩ := hsurvives
            obtain ⟨ht', -⟩ := Prod.mk.inj (Except.ok.inj (hback.symm.trans hfrom))
            obtain rfl := Option.some.inj ht'
            rw [← hs', ← ht]
            exact ints_eq hsame
          · refine ⟨t, rest', hback, sameElems_of_ints hback' hint ?_⟩
            rw [hs', ht, heq]
        · cases h
      · cases h
    · cases h
  · cases h

/-- Two versions of a descriptor with one variable. -/
def twoVersions : List StateDescriptor := [oneVar intVar, { oneVar intVar with version := 2 }]

/-- **An upgrade that does not survive.**  The variable is 5 before and after the
upgrade, and 0 once the state is written and read. -/
theorem upgrade_lost : ∃ s rest s',
    State.fromBlob noCreatables (children noCreatables (DescriptorDb.load twoVersions) 0)
      (DescriptorDb.load twoVersions) (fun _ => {}) intBlob = .ok (some s, rest) ∧
    (∃ q ∈ DescriptorDb.load twoVersions,
      q.bucket = s.desc.bucket ∧ s.desc.desc.version < q.desc.version) ∧
    s.update (children noCreatables (DescriptorDb.load twoVersions) 0)
      (DescriptorDb.load twoVersions) = .ok (s', true) ∧
    s'.ints = [[some 5]] ∧
    ¬ Survives noCreatables (children noCreatables (DescriptorDb.load twoVersions) 0)
      (DescriptorDb.load twoVersions) (SameValues 0) (fun _ => {}) s' := by
  have hints : upgradedInts twoVersions intBlob = some ([[some 5]], [[some 0]]) := by
    decide +kernel
  obtain ⟨s, rest, s', hread, hnewer, hupdate, hs', hsurvives⟩ := upgrade_run hints
    ⟨⟨"door", 2, { oneVar intVar with version := 2 }⟩, by decide +kernel, by decide, by decide⟩
  refine ⟨s, rest, s', hread, hnewer, hupdate, hs', fun h => ?_⟩
  exact absurd (hsurvives.1 h) (by decide)

/-- `VAR INT m[1] DEFAULT=7`. -/
def sevenVar : VarDescriptor := { type := .int, name := "m", size := 1, default := some 7 }

/-- A second version that has one more variable. -/
def moreVars : List StateDescriptor := [oneVar intVar, ⟨"Door", 2, [intVar, sevenVar], by decide⟩]

/-- An upgrade that survives: the variable was 0, its default, and the new one is 7. -/
theorem upgrade_survives_door : ∃ s rest s',
    State.fromBlob noCreatables (children noCreatables (DescriptorDb.load moreVars) 0)
      (DescriptorDb.load moreVars) (fun _ => {}) (oneVarHeader ++ [0, 0, 0, 0, 0, 0, 0]) =
        .ok (some s, rest) ∧
    s'.ints = [[some 0], [some 7]] ∧
    Survives noCreatables (children noCreatables (DescriptorDb.load moreVars) 0)
        (DescriptorDb.load moreVars) (SameValues 0) (fun _ => {}) s' ∧
      ∃ p f, (DescriptorDb.load moreVars).findLatestDescriptor s.desc.desc.name = some p ∧
        StateData.new (children noCreatables (DescriptorDb.load moreVars) 0) p.desc = .ok f ∧
        Found (DescriptorDb.load moreVars) p.desc ∧
        s.data.CarriedDefault (Foreseen (DescriptorDb.load moreVars) 0) f := by
  have hints : upgradedInts moreVars (oneVarHeader ++ [0, 0, 0, 0, 0, 0, 0]) =
      some ([[some 0], [some 7]], [[some 0], [some 7]]) := by
    decide +kernel
  obtain ⟨s, rest, s', hread, hnewer, hupdate, hs', hsurvives⟩ := upgrade_run hints
    ⟨⟨"door", 2, ⟨"Door", 2, [intVar, sevenVar], show 2 < 2 ^ 31 by decide⟩⟩,
      by decide +kernel, by decide, by decide⟩
  refine ⟨s, rest, s', hread, hs', hsurvives.2 rfl, ?_⟩
  exact (upgrade_survives noCreatables moreVars 0 (fun _ => {}) (fun _ => {}) hread hnewer
    hupdate).1 (hsurvives.2 rfl)

end State

end Dirtsand.SDL
