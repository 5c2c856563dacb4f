import Dirtsand.SDL.StateInfo

/-!
# The format of SDL variables

What reading puts into a variable of a new state, and what is read back of a
variable that was written.  All of it is about simple variables.

* `Variable.Kept` — what holds of a variable that was read into a new state.
* `Variable.reads` — such a variable is read as it was written, or left at its
  default.
* `Variable.same_iff` — the one difference that this makes.
-/

namespace Dirtsand.SDL

open Lib.Reader (Reads Yields given left ofExcept each leBytes)
open Streams (readU8 readU16 readU32 writeU8 writeU16 writeU32)

/-! ## Lengths -/

theorem reads_stupidLength {max n : Nat} (hmax : max < 2 ^ 32) (hn : n ≤ max) :
    Reads (stupidLengthRead max) (stupidLengthWrite max n) n := by
  unfold stupidLengthRead stupidLengthWrite
  split
  · exact Lib.Reader.reads_nat _ (by omega)
  · split
    · exact Lib.Reader.reads_nat _ (by omega)
    · exact Lib.Reader.reads_nat _ (by omega)

/-! ## Flags -/

theorem sameAsDefault_set (b : UInt8) : (b ||| sameAsDefault) &&& sameAsDefault ≠ 0 := by
  revert b
  refine Streams.forall_byte ?_
  decide +kernel

theorem hasTimeStamp_or (b : UInt8) :
    (b ||| sameAsDefault) &&& hasTimeStamp = b &&& hasTimeStamp := by
  revert b
  refine Streams.forall_byte ?_
  decide +kernel

theorem hasDirtyFlag_or (b : UInt8) :
    (b ||| sameAsDefault) &&& hasDirtyFlag = b &&& hasDirtyFlag := by
  revert b
  refine Streams.forall_byte ?_
  decide +kernel

theorem wantTimeStamp_or (b : UInt8) :
    (b ||| sameAsDefault) &&& wantTimeStamp = b &&& wantTimeStamp := by
  revert b
  refine Streams.forall_byte ?_
  decide +kernel

/-- The flags once the time is set. -/
theorem stamped_flags (b : UInt8) :
    ((b &&& ~~~wantTimeStamp) ||| hasTimeStamp) &&& wantTimeStamp = 0 ∧
    ((b &&& ~~~wantTimeStamp) ||| hasTimeStamp) &&& hasTimeStamp ≠ 0 ∧
    ((b &&& ~~~wantTimeStamp) ||| hasTimeStamp) &&& sameAsDefault = b &&& sameAsDefault := by
  revert b
  refine Streams.forall_byte ?_
  decide +kernel

namespace Variable

variable {κ σ : Type} {C : Creatables κ} {S : Children σ} {v : VarDescriptor}

/-! ## New variables -/

/-- A variable of a new state. -/
def IsNew (S : Children σ) (var : Variable κ σ v) : Prop :=
  ∃ w, Variable.new S v = .ok w ∧ var = w.setDefault S

theorem IsNew.unique {f g : Variable κ σ v} (hf : IsNew S f) (hg : IsNew S g) : f = g := by
  obtain ⟨w, hw, rfl⟩ := hf
  obtain ⟨w', hw', rfl⟩ := hg
  rw [hw] at hw'
  rw [Except.ok.inj hw']

theorem IsNew.elems {f : Variable κ σ v} (h : IsNew S f) : ∃ es,
    Elem.resize S v.typeName v.type v.size.toNat = .ok es ∧
    f = { elems := es.map (Elem.setDefault S v.type v.default), flags := sameAsDefault } := by
  obtain ⟨w, hw, rfl⟩ := h
  unfold Variable.new at hw
  split at hw
  · rename_i es hes
    obtain rfl := Except.ok.inj hw
    have hflags : (0 : UInt8) ||| sameAsDefault = sameAsDefault := by decide
    refine ⟨es, hes, ?_⟩
    rw [setDefault, hflags]
  · cases hw

theorem IsNew.flags {f : Variable κ σ v} (h : IsNew S f) : f.flags = sameAsDefault := by
  obtain ⟨es, -, rfl⟩ := h.elems
  rfl

theorem IsNew.timestamp {f : Variable κ σ v} (h : IsNew S f) : f.timestamp = {} := by
  obtain ⟨es, -, rfl⟩ := h.elems
  rfl

theorem IsNew.notificationHint {f : Variable κ σ v} (h : IsNew S f) : f.notificationHint = "" := by
  obtain ⟨es, -, rfl⟩ := h.elems
  rfl

theorem IsNew.length {f : Variable κ σ v} (h : IsNew S f) (hnested : v.type ≠ .stateDesc) :
    f.elems.length = v.size.toNat := by
  obtain ⟨es, hes, rfl⟩ := h.elems
  obtain ⟨es', hes', hlen, -⟩ := Elem.resize_simple (S := S) hnested v.typeName v.size.toNat
  rw [hes'] at hes
  obtain rfl := Except.ok.inj hes
  exact (List.length_map _).trans hlen

theorem IsNew.replaced {f : Variable κ σ v} (h : IsNew S f) :
    ∀ e ∈ f.elems, Elem.Replaced v.type e := by
  obtain ⟨es, -, rfl⟩ := h.elems
  intro e he
  obtain ⟨x, -, rfl⟩ := List.mem_map.1 he
  exact Elem.replaced_setDefault v.type v.default x

/-! ## Variables that were read -/

/-- What holds of a variable that was read into the new variable `f`, or is `f`. -/
structure Kept (f var : Variable κ σ v) : Prop where
  clean : var.dirty = false → var = f
  wanted : ¬ (var.flags &&& hasDirtyFlag ≠ 0 ∧ var.flags &&& wantTimeStamp ≠ 0)
  stamp : var.flags &&& hasTimeStamp = 0 → var.timestamp = {}
  same : var.flags &&& sameAsDefault ≠ 0 → var.elems = f.elems
  sound : var.flags &&& sameAsDefault = 0 → ∀ e ∈ var.elems, Elem.Sound v.type e
  fixed : v.size ≠ -1 → var.elems.length = f.elems.length
  short : v.size = -1 → var.elems.length < 10000
  hint : Streams.Safe var.notificationHint

theorem safe_empty : Streams.Safe "" :=
  ⟨by decide, fun _ hc => absurd hc List.not_mem_nil, fun _ hc => nomatch hc⟩

theorem IsNew.kept {f : Variable κ σ v} (h : IsNew S f) (hnested : v.type ≠ .stateDesc) :
    Kept f f := by
  have hlen := h.length hnested
  obtain ⟨es, -, rfl⟩ := h.elems
  have hwanted : ¬ (sameAsDefault &&& hasDirtyFlag ≠ 0 ∧ sameAsDefault &&& wantTimeStamp ≠ 0) := by
    decide
  have hsame : sameAsDefault &&& sameAsDefault ≠ 0 := by decide
  refine ⟨fun _ => rfl, hwanted, fun _ => rfl, fun _ => rfl, fun hflag => absurd hflag hsame,
    fun _ => rfl, fun hsize => ?_, safe_empty⟩
  · rw [hlen, hsize]
    decide

theorem readNested_simple (now : Clock) (typeName : String) (size : Int) {t : VarType}
    (hnested : t ≠ .stateDesc) (es : List (t.Elem κ σ)) :
    readNested S now typeName size t es = none := by
  cases t with
  | stateDesc => exact absurd rfl hnested
  | _ => rfl

theorem writeNested_simple {size : Int} {t : VarType} (hnested : t ≠ .stateDesc)
    (es : List (t.Elem κ σ)) : writeNested S size t es = none := by
  cases t with
  | stateDesc => exact absurd rfl hnested
  | _ => rfl

theorem yields_readCount (hnested : v.type ≠ .stateDesc) :
    Yields (readCount (κ := κ) S v) fun es => es.length < 10000 := by
  refine (Yields.any _).bind fun count _ => ?_
  split
  · exact .fail
  · rename_i hcount
    refine .ofExcept fun es hes => ?_
    obtain ⟨es', hes', hlen, -⟩ := Elem.resize_simple (S := S) hnested v.typeName count.toNat
    rw [hes'] at hes
    rw [← Except.ok.inj hes, hlen]
    exact not_le.1 hcount

/-- What the elements are that were read over `old`. -/
structure ReadOver (old es : List (v.type.Elem κ σ)) : Prop where
  sound : ∀ e ∈ es, Elem.Sound v.type e
  fixed : v.size ≠ -1 → es.length = old.length
  short : v.size = -1 → es.length < 10000

theorem yields_readElems (hnested : v.type ≠ .stateDesc) (old : List (v.type.Elem κ σ)) :
    Yields (readElems C S old) (ReadOver old) := by
  have hcount : Yields (given (v.size = -1) (readCount S v) old) fun es =>
      (v.size ≠ -1 → es = old) ∧ (v.size = -1 → es.length < 10000) := by
    refine Lib.Reader.yields_given (fun hsize => ?_) fun hsize => ?_
    · exact (yields_readCount hnested).mono fun es hes => ⟨fun h => absurd hsize h, fun _ => hes⟩
    · exact ⟨fun _ => rfl, fun h => absurd h hsize⟩
  refine hcount.bind fun es hes => ?_
  refine (Lib.Reader.yields_each fun e _ => Elem.yields_read C v.type e).mono fun es' hes' => ?_
  refine ⟨hes'.2, fun hsize => ?_, fun hsize => ?_⟩
  · rw [hes'.1, hes.1 hsize]
  · rw [hes'.1]
    exact hes.2 hsize

theorem yields_readSimple {f var : Variable κ σ v} (now : Clock) (hnested : v.type ≠ .stateDesc)
    (hf : Kept f f) (helems : var.elems = f.elems) (hstamp : var.timestamp = {})
    (hhint : Streams.Safe var.notificationHint) :
    Yields (readSimple C S now var) fun w => Kept f { w with dirty := true } := by
  have htail : ∀ (time : UnifiedTime) (flags : UInt8), ¬ (flags &&& hasDirtyFlag ≠ 0 ∧ flags &&& wantTimeStamp ≠ 0) →
      (flags &&& hasTimeStamp = 0 → time = {}) →
      Yields (do
        let elems ← given (flags &&& sameAsDefault = 0) (readElems C S var.elems) var.elems
        pure { var with elems, timestamp := time, flags })
        fun w => Kept f { w with dirty := true } := by
    intro time flags hwanted htime
    have helems' : Yields
        (given (flags &&& sameAsDefault = 0) (readElems C S var.elems) var.elems) fun es =>
          (flags &&& sameAsDefault ≠ 0 → es = f.elems) ∧
          (flags &&& sameAsDefault = 0 → ReadOver f.elems es) := by
      rw [helems]
      refine Lib.Reader.yields_given (fun hflag => ?_) fun hflag => ?_
      · exact (yields_readElems hnested f.elems).mono fun es hes =>
          ⟨fun h => absurd hflag h, fun _ => hes⟩
      · exact ⟨fun _ => rfl, fun h => absurd h hflag⟩
    refine helems'.bind fun es hes => .pure ?_
    obtain ⟨hsame, hover⟩ := hes
    refine ⟨fun h => Bool.noConfusion h, hwanted, htime, hsame, fun h => (hover h).sound,
      fun hsize => ?_, fun hsize => ?_, hhint⟩
    · by_cases hflag : flags &&& sameAsDefault = 0
      · exact (hover hflag).fixed hsize
      · exact congrArg List.length (hsame hflag)
    · by_cases hflag : flags &&& sameAsDefault = 0
      · exact (hover hflag).short hsize
      · exact (congrArg List.length (hsame hflag)).trans_lt (hf.short hsize)
  have htime : Yields (given (var.flags &&& hasTimeStamp ≠ 0) UnifiedTime.read var.timestamp)
      fun t => var.flags &&& hasTimeStamp = 0 → t = {} :=
    Lib.Reader.yields_given (fun hflag => (Yields.any _).mono fun _ _ h => absurd h hflag)
      fun _ _ => hstamp
  refine htime.bind fun t ht => ?_
  refine (Yields.any _).bind fun rest _ => ?_
  dsimp only
  by_cases hw : var.flags &&& hasDirtyFlag ≠ 0 ∧ var.flags &&& wantTimeStamp ≠ 0
  · obtain ⟨hcleared, hset, -⟩ := stamped_flags var.flags
    rw [if_pos hw, if_pos hw]
    exact htail _ _ (fun h => h.2 hcleared) fun h => absurd h hset
  · rw [if_neg hw, if_neg hw]
    exact htail _ _ hw ht

/-- **What is read into a new variable is kept.** -/
theorem yields_read {f : Variable κ σ v} (now : Clock) (hf : IsNew S f)
    (hnested : v.type ≠ .stateDesc) :
    Yields (read C S now f) fun var => Kept f var ∧ var.dirty = true := by
  have hkept : Kept f f := hf.kept hnested
  have hhint : Yields readHint Streams.Safe :=
    (Yields.any _).bind fun _ _ => Streams.yields_readSafeString
  refine (Yields.any _).bind fun contents _ => ?_
  refine (Lib.Reader.yields_given (fun _ => hhint) fun _ => hkept.hint).bind fun hint hsafe => ?_
  refine (Yields.any _).bind fun flags _ => ?_
  dsimp only
  rw [readNested_simple now v.typeName v.size hnested]
  have hsimple : Yields (readSimple C S now { f with notificationHint := hint, flags })
      fun w => Kept f { w with dirty := true } :=
    yields_readSimple now hnested hkept rfl hf.timestamp hsafe
  exact hsimple.bind fun var hvar => .pure ⟨hvar, rfl⟩

/-! ## Variables that are read back -/

theorem reads_elems {f : Variable κ σ v} {R : σ → σ → Prop} (hf : IsNew S f)
    (hnested : v.type ≠ .stateDesc) {es : List (v.type.Elem κ σ)}
    (hstore : ∀ e ∈ es, Elem.Storable C v.type e)
    (hfixed : v.size ≠ -1 → es.length = f.elems.length) (hshort : v.size = -1 → es.length < 10000) :
    ∃ es', Reads (readElems C S f.elems) (writeElems C es) es' ∧
      List.Forall₂ (Elem.Same R v.type) es es' := by
  have hread : ∀ old : List (v.type.Elem κ σ), old.length = es.length →
      (∀ e ∈ old, Elem.Replaced v.type e) → ∃ es',
        Reads (each (Elem.read C v.type) old) (es.flatMap (Elem.write C v.type)) es' ∧
          List.Forall₂ (Elem.Same R v.type) es es' := by
    intro old hlen hold
    refine Lib.Reader.reads_each (List.forall₂_iff_zip.2 ⟨hlen, fun {a b} hab => ?_⟩)
    obtain ⟨ha, hb⟩ := List.of_mem_zip hab
    exact Elem.reads (hold a ha) (hstore b hb)
  by_cases hsize : v.size = -1
  · have hcount : (UInt32.ofNat es.length).toNat = es.length :=
      UInt32.toNat_ofNat_of_lt' (lt_trans (hshort hsize) (by decide))
    obtain ⟨old, hold, hlen, hreplaced⟩ := Elem.resize_simple (κ := κ) (S := S) hnested v.typeName
      es.length
    obtain ⟨es', hreads, hsame⟩ := hread old hlen hreplaced
    refine ⟨es', ?_, hsame⟩
    rw [readElems, writeElems, given, if_pos hsize, if_pos hsize]
    refine Reads.bind ?_ hreads
    refine (Streams.reads_u32 _).andThen ?_
    rw [if_neg, hcount, hold]
    · exact .pure old
    · rw [UInt32.le_iff_toNat_le, hcount]
      exact not_le.2 (hshort hsize)
  · obtain ⟨es', hreads, hsame⟩ := hread f.elems (hfixed hsize).symm hf.replaced
    refine ⟨es', ?_, hsame⟩
    rw [readElems, writeElems, given, if_neg hsize, if_neg hsize, List.nil_append]
    exact (Reads.pure f.elems).after hreads

theorem written_flags (var : Variable κ σ v) :
    (var.written S).flags &&& hasTimeStamp = var.flags &&& hasTimeStamp ∧
    (var.written S).flags &&& hasDirtyFlag = var.flags &&& hasDirtyFlag ∧
    (var.written S).flags &&& wantTimeStamp = var.flags &&& wantTimeStamp ∧
    ((var.written S).flags &&& sameAsDefault = 0 →
      var.flags &&& sameAsDefault = 0 ∧ ¬ var.isDefault S = true) := by
  unfold written
  split
  · refine ⟨hasTimeStamp_or _, hasDirtyFlag_or _, wantTimeStamp_or _, fun h => ?_⟩
    exact absurd h (sameAsDefault_set _)
  · rename_i hdefault
    exact ⟨rfl, rfl, rfl, fun h => ⟨h, hdefault⟩⟩

/-- What is read back of a variable. -/
structure Back (S : Children σ) (R : σ → σ → Prop) (f var var' : Variable κ σ v) : Prop where
  dirty : var'.dirty = true
  timestamp : var'.timestamp = var.timestamp
  notificationHint : var'.notificationHint = var.notificationHint
  default : (var.written S).flags &&& sameAsDefault ≠ 0 → var'.elems = f.elems
  value : (var.written S).flags &&& sameAsDefault = 0 →
    List.Forall₂ (Elem.Same R v.type) var.elems var'.elems

/-- What comes before the time and the elements is read as it was written. -/
theorem read_write {f var w : Variable κ σ v} {now : Clock} (hf : IsNew S f)
    (hnested : v.type ≠ .stateDesc) (hhint : Streams.Safe var.notificationHint)
    {rest rest' : List UInt8} (hsimple : readSimple C S now
      { f with notificationHint := var.notificationHint, flags := (var.written S).flags }
      (writeSimple C (var.written S) ++ rest) = .ok (w, rest')) :
    read C S now f (var.write C S ++ rest) = .ok ({ w with dirty := true }, rest') := by
  have hnone : writeNested S v.size v.type (var.written S).elems = none := writeNested_simple hnested _
  have hwrite : var.write C S ++ rest = writeU8 (var.written S).contents ++
      ((if (var.written S).contents &&& hasNotificationInfo ≠ 0 then writeHint var.notificationHint
          else []) ++
        (writeU8 (var.written S).flags ++ (writeSimple C (var.written S) ++ rest))) := by
    show writeU8 _ ++ (_ ++ (writeU8 _ ++ (writeNested S v.size v.type (var.written S).elems).getD _)) ++
      rest = _
    rw [hnone, List.append_assoc, List.append_assoc, List.append_assoc]
    rfl
  have hreadHint : Reads (given ((var.written S).contents &&& hasNotificationInfo ≠ 0) readHint
      f.notificationHint) (if (var.written S).contents &&& hasNotificationInfo ≠ 0 then
        writeHint var.notificationHint else []) var.notificationHint := by
    refine Lib.Reader.reads_given (fun _ => ?_) fun hcontents => ?_
    · refine (Streams.reads_u8 _).bind ?_
      exact Streams.reads_safeString hhint
    · rw [hf.notificationHint]
      by_contra hne
      refine hcontents ?_
      have hset : (var.written S).contents = hasNotificationInfo := if_neg hne
      rw [hset]
      decide
  rw [hwrite, read, (Streams.reads_u8 _).run, hreadHint.run, (Streams.reads_u8 _).run]
  dsimp only
  rw [readNested_simple now v.typeName v.size hnested]
  exact Lib.Reader.bind_of_ok hsimple

/-- **A variable is read as it was written**, or left at its default. -/
theorem reads {f var : Variable κ σ v} {R : σ → σ → Prop} (now : Clock) (hf : IsNew S f)
    (hnested : v.type ≠ .stateDesc) (h : Kept f var)
    (hassumed : ∀ e ∈ var.elems, Elem.Assumed C v.type e) :
    ∃ var', Reads (read C S now f) (var.write C S) var' ∧ Back S R f var var' := by
  obtain ⟨hstampFlag, hdirtyFlag, hwantFlag, hsameFlag⟩ := written_flags (S := S) var
  have htime : f.timestamp = {} := hf.timestamp
  -- The elements, which are there unless the flags say that they are the default.
  obtain ⟨es, hes, hdefault, hvalue⟩ : ∃ es,
      Reads (given ((var.written S).flags &&& sameAsDefault = 0) (readElems C S f.elems) f.elems)
        (if (var.written S).flags &&& sameAsDefault = 0 then writeElems C var.elems else []) es ∧
      ((var.written S).flags &&& sameAsDefault ≠ 0 → es = f.elems) ∧
      ((var.written S).flags &&& sameAsDefault = 0 →
        List.Forall₂ (Elem.Same R v.type) var.elems es) := by
    by_cases hflag : (var.written S).flags &&& sameAsDefault = 0
    · obtain ⟨es, hreads, hsame⟩ := reads_elems (R := R) hf hnested
        (fun e he => Elem.storable (h.sound (hsameFlag hflag).1 e he) (hassumed e he)) h.fixed h.short
      refine ⟨es, ?_, fun hne => absurd hflag hne, fun _ => hsame⟩
      rw [given, if_pos hflag, if_pos hflag]
      exact hreads
    · refine ⟨f.elems, ?_, fun _ => rfl, fun heq => absurd heq hflag⟩
      rw [given, if_neg hflag, if_neg hflag]
      exact .pure f.elems
  have hsimple : ∀ g : Variable κ σ v, g.elems = f.elems → g.timestamp = f.timestamp →
      g.flags = (var.written S).flags →
      Reads (readSimple C S now g) (writeSimple C (var.written S))
        { g with elems := es, timestamp := var.timestamp } := by
    intro g helems hgtime hflags
    have hwanted : ¬ (g.flags &&& hasDirtyFlag ≠ 0 ∧ g.flags &&& wantTimeStamp ≠ 0) := by
      rw [hflags, hdirtyFlag, hwantFlag]
      exact h.wanted
    rw [writeSimple, ← hflags]
    refine Reads.bind (a := var.timestamp) ?_ ?_
    · refine Lib.Reader.reads_given (fun _ => UnifiedTime.reads _) fun hflag => ?_
      rw [hgtime, htime]
      refine h.stamp ?_
      rw [← hstampFlag, ← hflags]
      exact not_not.1 hflag
    · have hbody : Reads (do
          let elems ← given (g.flags &&& sameAsDefault = 0) (readElems C S g.elems) g.elems
          pure { g with elems, timestamp := var.timestamp })
          (if g.flags &&& sameAsDefault = 0 then writeElems C var.elems else [])
          { g with elems := es, timestamp := var.timestamp } := by
        rw [hflags, helems]
        exact hes.andThen (Reads.pure _)
      refine Reads.left (fun rest => ?_) hbody
      dsimp only
      rw [if_neg hwanted, if_neg hwanted]
  have hread := hsimple { f with
    notificationHint := var.notificationHint
    flags := (var.written S).flags } rfl rfl rfl
  exact ⟨_, fun rest => read_write hf hnested h.hint (hread rest), rfl, rfl, rfl, hdefault, hvalue⟩

theorem isDefault_cases {var : Variable κ σ v} (h : var.isDefault S = true) :
    v.size ≠ -1 ∧ ∃ d, v.default = some d ∧ ∀ e ∈ var.elems, Elem.isDefault S v.type d e = true := by
  simp only [isDefault, Bool.and_eq_true, decide_eq_true_eq, Option.any_eq_true,
    List.all_eq_true] at h
  exact h

/-- **A variable has its values back**, unless its keys are null without being the
key that a new variable has. -/
theorem same_iff {f var var' : Variable κ σ v} {R : σ → σ → Prop} (hR : ∀ s, R s s)
    (hf : IsNew S f) (hnested : v.type ≠ .stateDesc) (h : Kept f var) (hback : Back S R f var var') :
    List.Forall₂ (Elem.Same R v.type) var.elems var'.elems ↔
      (var.isDefault S = true → ∀ e ∈ var.elems, Elem.Blank v.type e) := by
  by_cases hflag : (var.written S).flags &&& sameAsDefault = 0
  · refine iff_of_true (hback.value hflag) fun hdefault => ?_
    exact absurd hdefault ((written_flags var).2.2.2 hflag).2
  · rw [hback.default hflag]
    by_cases hdefault : var.isDefault S = true
    · obtain ⟨hsize, d, hd, hall⟩ := isDefault_cases hdefault
      have hlen := h.fixed hsize
      obtain ⟨es, -, hfes⟩ := hf.elems
      rw [forall_prop_of_true hdefault]
      refine Lib.forall₂_const hlen fun e he e' he' => ?_
      rw [hfes] at he'
      obtain ⟨x, -, rfl⟩ := List.mem_map.1 he'
      by_cases hkey : v.type = .key
      · exact Elem.same_setDefault_key v.default x hkey
      · refine iff_of_true ?_ (Elem.blank_of_ne hkey e)
        rw [hd]
        exact Elem.same_of_isDefault x hkey hnested (hall e he)
    · have hsame : var.elems = f.elems := by
        refine h.same ?_
        rwa [written, if_neg hdefault] at hflag
      refine iff_of_true ?_ fun h' => absurd h' hdefault
      rw [hsame]
      exact List.forall₂_same.2 fun e _ => Elem.Same.refl hR v.type e

end Variable

end Dirtsand.SDL
