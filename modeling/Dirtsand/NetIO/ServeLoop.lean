import Dirtsand.NetIO.CryptSession

/-!
# One request after the other

The threads of the gate keeper and of the file server run a loop that receives a
request and answers it.  A `Protocol` says what the requests look like, and what
is sent for each; a round of such a loop implements it if it answers a whole
request, and stops at anything else.

* `Protocol.exists_requests` — what a client sends falls into requests, with
  something behind them that is none.
* `Protocol.Implements.says_serveLoop` — the loop sends what the protocol says.
-/

namespace Dirtsand.NetIO

/-- Requests of a type `ρ`, for a server with a state of type `σ`. -/
structure Protocol (σ ρ : Type) where
  encode : ρ → List UInt8
  Valid : ρ → Prop
  /-- What is sent for a request, and what comes of it. -/
  serve : σ → ρ → List UInt8 × Except Stop σ
  /-- How the loop ends where no whole request comes. -/
  stopAt : Bool → List UInt8 → Stop

/-- `for ( ;; )`, with the state that a round leaves. -/
def serveLoop {κ σ : Type} (round : σ → Conn κ σ) : Nat → σ → Conn κ Unit
  | 0, _ => throw .outOfFuel
  | fuel + 1, st => do
    let st ← round st
    serveLoop round fuel st

namespace Protocol

variable {κ σ ρ : Type} (P : Protocol σ ρ)

/-- No whole request comes first. -/
def Cut (clear : List UInt8) : Prop :=
  ∀ (r : ρ) (rest : List UInt8), P.Valid r → clear ≠ P.encode r ++ rest

/-- What is sent for some requests, up to the first that ends the session. -/
def serveAll : σ → List ρ → List UInt8 × Except Stop σ
  | st, [] => ([], .ok st)
  | st, r :: rs =>
    match P.serve st r with
    | (bytes, .ok st) => (bytes ++ (serveAll st rs).1, (serveAll st rs).2)
    | (bytes, .error stop) => (bytes, .error stop)

/-- How the session ends. -/
def ends (hup : Bool) (tail : List UInt8) : Except Stop σ → Stop
  | .ok _ => P.stopAt hup tail
  | .error stop => stop

variable (g : Lib.Keystream κ)

/-- What a round makes of a request. -/
def after (peer : Peer κ) (served : List UInt8 × Except Stop σ) : Except Stop (σ × Peer κ) :=
  served.2.map fun st => (st, peer.got g served.1.length)

/-- A round answers a whole request, and nothing else. -/
structure Implements (round : σ → Conn κ σ) : Prop where
  pos : ∀ r, 0 < (P.encode r).length
  request : ∀ (st : σ) (r : ρ) (rest : List UInt8) (hup : Bool) (w : Option κ), P.Valid r →
    Says g (round st) ⟨P.encode r ++ rest, hup, w⟩
      ((⟨rest, hup, w⟩ : Peer κ).sealed g (P.serve st r).1) (after g ⟨rest, hup, w⟩ (P.serve st r))
  cut : ∀ (st : σ) (clear : List UInt8) (hup : Bool) (w : Option κ), P.Cut clear →
    Says g (round st) ⟨clear, hup, w⟩ [] (.error (P.stopAt hup clear))

variable {P} {g}

theorem exists_requests (hpos : ∀ r, 0 < (P.encode r).length) (clear : List UInt8) :
    ∃ (rs : List ρ) (tail : List UInt8), (∀ r ∈ rs, P.Valid r) ∧ P.Cut tail ∧
      clear = rs.flatMap P.encode ++ tail := by
  induction hn : clear.length using Nat.strong_induction_on generalizing clear with
  | _ n ih =>
    by_cases hcut : P.Cut clear
    · exact ⟨[], clear, fun r hr => absurd hr List.not_mem_nil, hcut, rfl⟩
    · simp only [Cut, not_forall, not_not] at hcut
      obtain ⟨r, rest, hr, rfl⟩ := hcut
      have hfirst := hpos r
      obtain ⟨rs, tail, hrs, htail, rfl⟩ := ih rest.length
        (by rw [← hn, List.length_append]; omega) rest rfl
      refine ⟨r :: rs, tail, ?_, htail, ?_⟩
      · intro r' hr'
        obtain rfl | hr' := List.mem_cons.1 hr'
        · exact hr
        · exact hrs r' hr'
      · rw [List.flatMap_cons, List.append_assoc]

theorem length_requests (hpos : ∀ r, 0 < (P.encode r).length) (rs : List ρ) :
    rs.length ≤ (rs.flatMap P.encode).length := by
  induction rs with
  | nil => exact Nat.zero_le _
  | cons r rs ih =>
    have hfirst := hpos r
    rw [List.flatMap_cons, List.length_append, List.length_cons]
    omega

theorem cut_nil (hpos : ∀ r, 0 < (P.encode r).length) : P.Cut [] := by
  intro r rest _ h
  have hlen := congrArg List.length h
  have hfirst := hpos r
  rw [List.length_append, List.length_nil] at hlen
  omega

/-- Requests in two parts, of which the first does not end the session. -/
theorem serveAll_append {st st' : σ} {before after : List ρ}
    (h : (P.serveAll st before).2 = .ok st') :
    (P.serveAll st (before ++ after)).1 =
      (P.serveAll st before).1 ++ (P.serveAll st' after).1 := by
  induction before generalizing st with
  | nil =>
    cases h
    rfl
  | cons r before ih =>
    rw [serveAll] at h
    rw [List.cons_append, serveAll, serveAll]
    cases hserve : P.serve st r with
    | mk bytes result =>
      rw [hserve] at h
      cases result with
      | error stop => cases h
      | ok next =>
        show bytes ++ _ = bytes ++ _ ++ _
        rw [ih h, List.append_assoc]

/-- A session that a request ends. -/
theorem serveAll_error {st : σ} {rs : List ρ} {stop : Stop} (h : (P.serveAll st rs).2 = .error stop) :
    ∃ before r after st', rs = before ++ r :: after ∧ (P.serveAll st before).2 = .ok st' ∧
      (P.serve st' r).2 = .error stop := by
  induction rs generalizing st with
  | nil => cases h
  | cons r rs ih =>
    rw [serveAll] at h
    cases hserve : P.serve st r with
    | mk bytes result =>
      rw [hserve] at h
      cases result with
      | error stop' => exact ⟨[], r, rs, st, rfl, rfl, by rw [hserve]; exact h⟩
      | ok next =>
        obtain ⟨before, r', after, st', rfl, hbefore, hstop⟩ := ih h
        refine ⟨r :: before, r', after, st', rfl, ?_, hstop⟩
        rw [serveAll, hserve]
        exact hbefore

/-- **The loop sends what the protocol says**, by induction on the requests that are still to
come. -/
theorem Implements.says_serveLoop {round : σ → Conn κ σ} (h : P.Implements g round) {rs : List ρ}
    {tail : List UInt8} (hrs : ∀ r ∈ rs, P.Valid r) (htail : P.Cut tail) (hup : Bool)
    (w : Option κ) (st : σ) {fuel : Nat} (hfuel : rs.length < fuel) :
    Says g (serveLoop round fuel st) ⟨rs.flatMap P.encode ++ tail, hup, w⟩
      ((⟨tail, hup, w⟩ : Peer κ).sealed g (P.serveAll st rs).1)
      (.error (P.ends hup tail (P.serveAll st rs).2)) := by
  induction rs generalizing w st fuel with
  | nil =>
    obtain ⟨fuel, rfl⟩ : ∃ n, fuel = n + 1 := ⟨fuel - 1, by simp at hfuel; omega⟩
    rw [serveAll, Peer.sealed_nil]
    exact (h.cut st tail hup w htail).bind_error
  | cons r rs ih =>
    obtain ⟨fuel, rfl⟩ : ∃ n, fuel = n + 1 := ⟨fuel - 1, by simp at hfuel; omega⟩
    have hround := h.request st r (rs.flatMap P.encode ++ tail) hup w (hrs r List.mem_cons_self)
    rw [← List.append_assoc, ← List.flatMap_cons] at hround
    rw [serveAll]
    cases hserve : P.serve st r with
    | mk bytes result =>
      rw [hserve] at hround
      cases result with
      | error stop => exact hround.bind_error
      | ok st' =>
        have hrest := ih (fun r' hr' => hrs r' (List.mem_cons_of_mem r hr'))
          (w.map fun k => g.skip k bytes.length) st' (by simpa using hfuel)
        dsimp only
        rw [Peer.sealed_append]
        exact hround.bind hrest

end Protocol

end Dirtsand.NetIO
