import Dirtsand.SDL.VarType
import Mathlib.Data.List.Basic
import Mathlib.Data.List.TakeWhile
import Mathlib.Data.List.Infix
import Mathlib.Tactic.Common

/-!
# The SDL lexer

`SDL::Parser::next` (SDL/SdlParser.cpp) and `DS::Stream::readLine` (streams.cpp).  A
byte of a file is the character of that code, and a pointer into the line buffer is
what the buffer has from there on: behind its end there is nothing to read.

Left out: the numbers that tokens have for messages, and the messages.

* `scan_line` — what is scanned of a line, and where the scan ends.
* `run_eq` — the tokens of a file, with those that are put back.
* `inside_iff` — when no line is left at its end.
-/

namespace Dirtsand.SDL

/-! ## Lines -/

def nul : Char := '\x00'

/-- The loop of `readLine`. -/
def takeLine : Nat → List Char → List Char × List Char
  | 0, file => ([], file)
  | _, [] => ([], [])
  | n + 1, c :: file =>
    if c = '\n' then ([c], file)
    else
      let (line, rest) := takeLine n file
      (c :: line, rest)

/-- `DS::Stream::readLine`, into a buffer of 4096 bytes: the line without the NUL that is put
behind it, and the rest of the file. -/
def readLine (file : List Char) : Option (List Char × List Char) :=
  match takeLine 4095 file with
  | ([], _) => none
  | (line, rest) => some (line, rest)

theorem length_takeLine (n : Nat) (file : List Char) :
    (takeLine n file).1.length ≤ n ∧
      (takeLine n file).1.length + (takeLine n file).2.length = file.length := by
  induction n generalizing file with
  | zero => simp [takeLine]
  | succ n ih =>
    cases file with
    | nil => simp [takeLine]
    | cons c file =>
      rw [takeLine]
      split
      · simp
        omega
      · have hrest := ih file
        simp
        omega

theorem readLine_spec {file line rest : List Char} (h : readLine file = some (line, rest)) :
    0 < line.length ∧ line.length < 4096 ∧ rest.length < file.length := by
  unfold readLine at h
  have hlen := length_takeLine 4095 file
  cases htake : takeLine 4095 file with
  | mk line' rest' =>
    rw [htake] at h hlen
    cases line' with
    | nil => cases h
    | cons c line' =>
      obtain ⟨rfl, rfl⟩ := Prod.mk.inj (Option.some.inj h)
      simp at hlen ⊢
      omega

/-- The lines of a file as `readLine` reads them. -/
def lines (file : List Char) : List (List Char) :=
  match _h : readLine file with
  | none => []
  | some (line, rest) => line :: lines rest
termination_by file.length
decreasing_by exact (readLine_spec _h).2.2

/-! ## Tokens -/

/-- `SDL::Token`, with the type of the variable for a keyword that is one. -/
inductive Token where
  | eof
  | error
  | punct (c : Char)
  | statedesc
  | version
  | var
  | type (type : VarType)
  | default
  | defaultOption
  | displayOption
  | ident (value : String)
  | numeric (value : String)
  | quoted (value : String)
  | typename (value : String)
deriving DecidableEq

def keywords : List (String × Token) :=
  [("STATEDESC", .statedesc), ("VERSION", .version), ("VAR", .var), ("INT", .type .int),
    ("FLOAT", .type .float), ("BOOL", .type .bool), ("STRING32", .type .string),
    ("PLKEY", .type .key), ("CREATABLE", .type .creatable), ("DOUBLE", .type .double),
    ("TIME", .type .time), ("BYTE", .type .byte), ("SHORT", .type .short),
    ("AGETIMEOFDAY", .type .ageTimeOfDay), ("VECTOR3", .type .vector3),
    ("POINT3", .type .point3), ("QUATERNION", .type .quaternion), ("RGB", .type .rgb),
    ("RGB8", .type .rgb8), ("RGBA", .type .rgba), ("RGBA8", .type .rgba8),
    ("DEFAULT", .default), ("DEFAULTOPTION", .defaultOption),
    ("DISPLAYOPTION", .displayOption)]

/-- `str_to_toktype`. -/
def strToToktype (str : String) : Token := (keywords.lookup str).getD (.ident str)

def isBlank (c : Char) : Bool := c = ' ' || c = '\t' || c = '\x08' || c = '\r' || c = '\n'

def isNumber (c : Char) : Bool := c.isDigit || c = '.'

def isWord (c : Char) : Bool := c.isAlpha || c.isDigit || c = '_' || c = '-'

def isName (c : Char) : Bool := c.isAlpha || c.isDigit || c = '_'

def isPunct (c : Char) : Bool := c ∈ ['(', ')', '[', ']', '{', '}', '=', ',', ';']

/-- A loop that moves `endp` on; it fails where it would read behind the buffer. -/
def scanWhile (p : Char → Bool) : List Char → Option (List Char × List Char)
  | [] => none
  | c :: lnp =>
    if c ≠ nul ∧ p c then (scanWhile p lnp).map fun (value, endp) => (c :: value, endp)
    else some ([], c :: lnp)

/-- The test for a number, which looks at the character behind a minus. -/
def startsNumber (c : Char) (lnp : List Char) : Option Bool :=
  if c.isDigit then some true
  else if c = '-' then lnp.head?.map Char.isDigit
  else some false

/-- What a turn of the scanning loop does: it ends the loop, or moves `lnp` on. -/
inductive Turn where
  | stop (tokens : List Token)
  | go (tokens : List Token) (lnp : List Char)

/-- A turn of the scanning loop of `next`. -/
def turn : List Char → Option Turn
  | [] => none
  | c :: lnp =>
    if c = nul then some (.stop [])
    else if c = '#' then some (.stop [])
    else if isBlank c then some (.go [] lnp)
    else
      match startsNumber c lnp with
      | none => none
      | some true => (scanWhile isNumber lnp).map fun (value, endp) =>
        .go [.numeric (String.ofList (c :: value))] endp
      | some false =>
        if c.isAlpha || c = '_' || c = '-' then
          (scanWhile isWord lnp).map fun (value, endp) =>
            .go [strToToktype (String.ofList (c :: value))] endp
        else if c = '$' then
          (scanWhile isName lnp).map fun (value, endp) =>
            .go [.typename (String.ofList value)] endp
        else if isPunct c then some (.go [.punct c] lnp)
        else if c = '"' then
          -- `lnp = endp + 1`, whatever `endp` points to.
          (scanWhile (· ≠ '"') lnp).map fun (value, endp) =>
            .go [.quoted (String.ofList value)] (endp.drop 1)
        else some (.stop [.error])

theorem scanWhile_length {p : Char → Bool} {lnp value endp : List Char}
    (h : scanWhile p lnp = some (value, endp)) : endp.length ≤ lnp.length := by
  induction lnp generalizing value with
  | nil => cases h
  | cons c lnp ih =>
    rw [scanWhile] at h
    split at h
    · rw [Option.map_eq_some_iff] at h
      obtain ⟨⟨value', endp'⟩, hscan, heq⟩ := h
      obtain ⟨-, rfl⟩ := Prod.mk.inj heq
      have hle := ih hscan
      simp
      omega
    · obtain ⟨-, rfl⟩ := Prod.mk.inj (Option.some.inj h)
      exact le_refl _

theorem scanned_length {p : Char → Bool} {lnp : List Char} {n : Nat}
    {f : List Char × List Char → Turn} {tokens : List Token} {lnp' : List Char}
    (h : (scanWhile p lnp).map f = some (.go tokens lnp'))
    (hf : ∀ value endp, f (value, endp) = .go tokens lnp' → lnp'.length ≤ endp.length)
    (hn : lnp.length < n) : lnp'.length < n := by
  rw [Option.map_eq_some_iff] at h
  obtain ⟨⟨value, endp⟩, hscan, heq⟩ := h
  have hle := scanWhile_length hscan
  have hle' := hf value endp heq
  omega

/-- A turn that does not end the loop moves the pointer on. -/
theorem turn_length {lnp lnp' : List Char} {tokens : List Token}
    (h : turn lnp = some (.go tokens lnp')) : lnp'.length < lnp.length := by
  have hsame : ∀ {tokens' : List Token} {endp : List Char},
      Turn.go tokens' endp = .go tokens lnp' → lnp'.length ≤ endp.length := by
    intro tokens' endp heq
    injection heq with _ heq
    rw [heq]
  cases lnp with
  | nil => cases h
  | cons c lnp =>
    simp only [turn] at h
    split at h
    · cases h
    split at h
    · cases h
    split at h
    · have hle := hsame (Option.some.inj h)
      simp
      omega
    split at h
    · cases h
    · exact scanned_length h (fun _ _ => hsame) (by simp)
    split at h
    · exact scanned_length h (fun _ _ => hsame) (by simp)
    split at h
    · exact scanned_length h (fun _ _ => hsame) (by simp)
    split at h
    · have hle := hsame (Option.some.inj h)
      simp
      omega
    split at h
    · refine scanned_length h (fun value endp heq => (hsame heq).trans ?_) (by simp)
      simp
    · cases h

/-! ## The first character -/

theorem digit_of_alpha {c : Char} (h : c.isAlpha = true) : c.isDigit = false := by
  have hletter : (65 ≤ c.val ∧ c.val ≤ 90) ∨ (97 ≤ c.val ∧ c.val ≤ 122) := by
    have hor : (decide (65 ≤ c.val ∧ c.val ≤ 90) ||
      (decide (97 ≤ c.val) && decide (c.val ≤ 122))) = true := h
    simpa using hor
  have hnone : ¬(48 ≤ c.val ∧ c.val ≤ 57) := by
    simp only [UInt32.le_iff_toNat_le] at hletter ⊢
    simp at hletter ⊢
    omega
  have hand : (decide (48 ≤ c.val) && decide (c.val ≤ 57)) = false := by simpa using hnone
  exact hand

/-- A character of a class is none that is not in it. -/
theorem ne_of_class {p : Char → Bool} {c d : Char} (hc : p c = true) (hd : p d = false) :
    c ≠ d := by
  rintro rfl
  rw [hd] at hc
  cases hc

theorem blank_of_class {p : Char → Bool} {c : Char} (hc : p c = true)
    (hblank : [' ', '\t', '\x08', '\r', '\n'].all (fun d => !p d) = true) : isBlank c = false := by
  have hne : ∀ d ∈ [' ', '\t', '\x08', '\r', '\n'], c ≠ d := by
    intro d hd
    exact ne_of_class hc (by simpa using List.all_eq_true.1 hblank d hd)
  simp at hne
  simp [isBlank, hne]

theorem turn_blank {c : Char} (h : isBlank c = true) (lnp : List Char) :
    turn (c :: lnp) = some (.go [] lnp) := by
  have hnul : c ≠ nul := ne_of_class h (by decide)
  have hcomment : c ≠ '#' := ne_of_class h (by decide)
  simp [turn, hnul, hcomment, h]

theorem turn_comment (lnp : List Char) : turn ('#' :: lnp) = some (.stop []) := by
  simp [turn, nul]

theorem turn_punct {c : Char} (h : isPunct c = true) (lnp : List Char) :
    turn (c :: lnp) = some (.go [.punct c] lnp) := by
  have hnul : c ≠ nul := ne_of_class h (by decide)
  have hcomment : c ≠ '#' := ne_of_class h (by decide)
  have hminus : c ≠ '-' := ne_of_class h (by decide)
  have hline : c ≠ '_' := ne_of_class h (by decide)
  have htype : c ≠ '$' := ne_of_class h (by decide)
  have hblank : isBlank c = false := blank_of_class h (by decide)
  have hclass : c.isDigit = false ∧ c.isAlpha = false := by
    have hall : ['(', ')', '[', ']', '{', '}', '=', ',', ';'].all
        (fun d => !d.isDigit && !d.isAlpha) = true := by decide
    simpa using List.all_eq_true.1 hall c (by simpa [isPunct] using h)
  simp [turn, startsNumber, hnul, hcomment, hminus, hline, htype, hblank, hclass, h]

theorem turn_number {c : Char} {lnp : List Char} (hc : (c.isDigit || c = '-') = true)
    (hstarts : startsNumber c lnp = some true) :
    turn (c :: lnp) = (scanWhile isNumber lnp).map fun (value, endp) =>
      .go [.numeric (String.ofList (c :: value))] endp := by
  have hnul : c ≠ nul := ne_of_class (p := fun c => c.isDigit || c = '-') hc (by decide)
  have hcomment : c ≠ '#' := ne_of_class (p := fun c => c.isDigit || c = '-') hc (by decide)
  have hblank : isBlank c = false :=
    blank_of_class (p := fun c => c.isDigit || c = '-') hc (by decide)
  simp [turn, hnul, hcomment, hblank, hstarts]

theorem turn_letter {c : Char} {lnp : List Char} (hc : (c.isAlpha || c = '_' || c = '-') = true)
    (hstarts : startsNumber c lnp = some false) :
    turn (c :: lnp) = (scanWhile isWord lnp).map fun (value, endp) =>
      .go [strToToktype (String.ofList (c :: value))] endp := by
  have hnul : c ≠ nul := ne_of_class (p := fun c => c.isAlpha || c = '_' || c = '-') hc (by decide)
  have hcomment : c ≠ '#' :=
    ne_of_class (p := fun c => c.isAlpha || c = '_' || c = '-') hc (by decide)
  have hblank : isBlank c = false :=
    blank_of_class (p := fun c => c.isAlpha || c = '_' || c = '-') hc (by decide)
  simp [turn, hnul, hcomment, hblank, hstarts, hc]

theorem turn_dollar (lnp : List Char) : turn ('$' :: lnp) =
    (scanWhile isName lnp).map fun (value, endp) => .go [.typename (String.ofList value)] endp := by
  simp [turn, nul, isBlank, startsNumber]

theorem turn_quote (lnp : List Char) : turn ('"' :: lnp) =
    (scanWhile (· ≠ '"') lnp).map fun (value, endp) =>
      .go [.quoted (String.ofList value)] (endp.drop 1) := by
  simp [turn, nul, isBlank, startsNumber, isPunct]

/-- The scanning loop of `next`: the tokens that it adds to `m_buffer`. -/
def scan (lnp : List Char) : Option (List Token) :=
  match _h : turn lnp with
  | none => none
  | some (.stop tokens) => some tokens
  | some (.go tokens lnp') => (scan lnp').map (tokens ++ ·)
termination_by lnp.length
decreasing_by exact turn_length _h

theorem scan_fault {lnp : List Char} (h : turn lnp = none) : scan lnp = none := by
  rw [scan]
  split
  · rfl
  · rename_i h'
    rw [h] at h'
    cases h'
  · rename_i h'
    rw [h] at h'
    cases h'

theorem scan_stop {lnp : List Char} {tokens : List Token} (h : turn lnp = some (.stop tokens)) :
    scan lnp = some tokens := by
  rw [scan]
  split
  · rename_i h'
    rw [h] at h'
    cases h'
  · rename_i h'
    rw [h] at h'
    cases h'
    rfl
  · rename_i h'
    rw [h] at h'
    cases h'

theorem scan_go {lnp lnp' : List Char} {tokens : List Token}
    (h : turn lnp = some (.go tokens lnp')) : scan lnp = (scan lnp').map (tokens ++ ·) := by
  rw [scan]
  split
  · rename_i h'
    rw [h] at h'
    cases h'
  · rename_i h'
    rw [h] at h'
    cases h'
  · rename_i h'
    rw [h] at h'
    cases h'
    rfl

/-! ## Where a scan ends -/

/-- What the lexer is in. -/
inductive Mode where
  | blank
  | number
  | minus
  | word
  | typename
  | quoted
  | ended
deriving DecidableEq

namespace Mode

/-- With this character between tokens. -/
def start (c : Char) : Mode :=
  if c = nul || c = '#' then .ended
  else if isBlank c then .blank
  else if c.isDigit then .number
  else if c = '-' then .minus
  else if c.isAlpha || c = '_' then .word
  else if c = '$' then .typename
  else if isPunct c then .blank
  else if c = '"' then .quoted
  else .ended

def step : Mode → Char → Mode
  | .ended, _ => .ended
  | .quoted, c => if c = nul || c = '"' then .blank else .quoted
  | .number, c => if isNumber c then .number else start c
  | .minus, c => if c.isDigit then .number else if isWord c then .word else start c
  | .word, c => if isWord c then .word else start c
  | .typename, c => if isName c then .typename else start c
  | .blank, c => start c

end Mode

/-- A line does not end inside quotes. -/
def Closed (line : List Char) : Prop := line.foldl Mode.step .blank ≠ .quoted

instance (line : List Char) : Decidable (Closed line) := inferInstanceAs (Decidable (_ ≠ _))

/-- The same, from inside something. -/
def ClosedIn (mode : Mode) (line : List Char) : Prop := line.foldl Mode.step mode ≠ .quoted

theorem closedIn_cons (mode : Mode) (c : Char) (line : List Char) :
    ClosedIn mode (c :: line) ↔ ClosedIn (mode.step c) line := Iff.rfl

theorem closed_cons (c : Char) (line : List Char) :
    Closed (c :: line) ↔ ClosedIn (.start c) line := Iff.rfl

theorem closedIn_ended (line : List Char) : ClosedIn .ended line := by
  induction line with
  | nil =>
    intro h
    cases h
  | cons c line ih =>
    rw [closedIn_cons]
    exact ih

/-- Inside a token nothing happens until its end. -/
theorem closedIn_dropWhile {mode : Mode} {p : Char → Bool} (hmode : mode ≠ .quoted)
    (hstep : ∀ c, mode.step c = if p c then mode else .start c) (line : List Char) :
    ClosedIn mode line ↔ Closed (line.dropWhile p) := by
  induction line with
  | nil => exact iff_of_true hmode (show Closed [] by decide)
  | cons c line ih =>
    rw [closedIn_cons, hstep]
    by_cases hc : p c = true
    · rw [if_pos hc, List.dropWhile_cons_of_pos hc, ih]
    · rw [if_neg hc, List.dropWhile_cons_of_neg hc, closed_cons]

theorem closedIn_minus (line : List Char) : ClosedIn .minus line ↔
    ClosedIn (if line.head?.any Char.isDigit then .number else .word) line := by
  cases line with
  | nil => simp [ClosedIn]
  | cons c line =>
    rw [closedIn_cons, closedIn_cons]
    by_cases hc : c.isDigit = true
    · simp [Mode.step, hc, isNumber]
    · simp [Mode.step, hc]

def inQuotes (c : Char) : Bool := c ≠ nul && c ≠ '"'

/-- Inside quotes nothing happens until their end, which has to come. -/
theorem closedIn_quoted (line : List Char) : ClosedIn .quoted line ↔
    ∃ d rest, line.dropWhile inQuotes = d :: rest ∧ Closed rest := by
  induction line with
  | nil => simp [ClosedIn]
  | cons c line ih =>
    rw [closedIn_cons]
    by_cases hc : inQuotes c = true
    · have hstep : Mode.step .quoted c = .quoted := by
        simp only [inQuotes, Bool.and_eq_true, decide_eq_true_eq] at hc
        simp [Mode.step, hc]
      rw [hstep, ih, List.dropWhile_cons_of_pos hc]
    · have hstep : Mode.step .quoted c = .blank := by
        have hend : c = nul ∨ c = '"' := by
          simp only [inQuotes, Bool.and_eq_true, decide_eq_true_eq] at hc
          tauto
        rcases hend with rfl | rfl
        · rfl
        · rfl
      rw [hstep, List.dropWhile_cons_of_neg hc]
      constructor
      · intro h
        exact ⟨c, line, rfl, h⟩
      · rintro ⟨d, rest, heq, hrest⟩
        obtain ⟨-, rfl⟩ := List.cons.inj heq
        exact hrest

/-- The characters that a scanning loop passes over, before the NUL at the end of a line. -/
theorem scanWhile_line {p q : Char → Bool} (hq : ∀ c, q c = true ↔ c ≠ nul ∧ p c = true)
    (line junk : List Char) : scanWhile p (line ++ nul :: junk) =
      some (line.takeWhile q, line.dropWhile q ++ nul :: junk) := by
  induction line with
  | nil => simp [scanWhile]
  | cons c line ih =>
    rw [List.cons_append, scanWhile]
    by_cases hc : q c = true
    · rw [if_pos ((hq c).1 hc), ih, List.takeWhile_cons_of_pos hc, List.dropWhile_cons_of_pos hc]
      rfl
    · rw [if_neg (mt (hq c).2 hc), List.takeWhile_cons_of_neg hc, List.dropWhile_cons_of_neg hc]
      rfl

theorem before_nul {p : Char → Bool} (hnul : p nul = false) (c : Char) :
    p c = true ↔ c ≠ nul ∧ p c = true := by
  refine ⟨fun h => ⟨?_, h⟩, And.right⟩
  rintro rfl
  rw [hnul] at h
  cases h

/-- What a scan makes of a line before its NUL: if it is left inside quotes, the scan goes on
behind the NUL. -/
def ScansTo (line : List Char) (tokens : List Token) : Prop :=
  .eof ∉ tokens ∧ ∀ junk, scan (line ++ nul :: junk) =
    if Closed line then some tokens else (scan junk).map (tokens ++ ·)

theorem ScansTo.stop {line : List Char} {tokens : List Token} (heof : .eof ∉ tokens)
    (hturn : ∀ junk, turn (line ++ nul :: junk) = some (.stop tokens)) (hclosed : Closed line) :
    ScansTo line tokens := by
  refine ⟨heof, fun junk => ?_⟩
  rw [scan_stop (hturn junk), if_pos hclosed]

theorem ScansTo.go {line line' : List Char} {tokens' : List Token}
    (h : ScansTo line' tokens') (tokens : List Token) (heof : .eof ∉ tokens)
    (hturn : ∀ junk, turn (line ++ nul :: junk) = some (.go tokens (line' ++ nul :: junk)))
    (hclosed : Closed line ↔ Closed line') : ScansTo line (tokens ++ tokens') := by
  refine ⟨by simp [heof, h.1], fun junk => ?_⟩
  rw [scan_go (hturn junk), h.2 junk]
  by_cases hline : Closed line
  · rw [if_pos hline, if_pos (hclosed.1 hline), Option.map_some]
  · rw [if_neg hline, if_neg (mt hclosed.2 hline), Option.map_map]
    congr 1
    funext rest
    exact (List.append_assoc tokens tokens' rest).symm

theorem ScansTo.leave {line : List Char} (tokens : List Token) (heof : .eof ∉ tokens)
    (hturn : ∀ junk, turn (line ++ nul :: junk) = some (.go tokens junk))
    (hopen : ¬ Closed line) : ScansTo line tokens := by
  refine ⟨heof, fun junk => ?_⟩
  rw [scan_go (hturn junk), if_neg hopen]

theorem strToToktype_ne_eof (str : String) : strToToktype str ≠ .eof := by
  unfold strToToktype
  cases hlookup : keywords.lookup str with
  | none => simp
  | some t =>
    intro h
    rw [Option.getD_some] at h
    subst h
    obtain ⟨before, after, hkeywords, -⟩ := List.lookup_eq_some_iff.1 hlookup
    have hmem : Token.eof ∈ keywords.map Prod.snd := by
      rw [hkeywords]
      simp
    revert hmem
    decide

/-- A token that ends where a character is none of its own. -/
theorem ScansTo.token (mode : Mode) {c : Char} {line : List Char} {p : Char → Bool}
    {f : List Char → Token} (hnul : p nul = false) (heof : ∀ value, f value ≠ .eof)
    (hturn : ∀ lnp, lnp.head? = (line ++ [nul]).head? → turn (c :: lnp) =
      (scanWhile p lnp).map fun (value, endp) => .go [f value] endp)
    (hclosed : ClosedIn (.start c) line ↔ ClosedIn mode line) (hmode : mode ≠ .quoted)
    (hstep : ∀ d, mode.step d = if p d then mode else .start d)
    (ih : ∀ line' : List Char, line'.length < (c :: line).length →
      ∃ tokens, ScansTo line' tokens) : ∃ tokens, ScansTo (c :: line) tokens := by
  have hle := List.length_dropWhile_le p line
  obtain ⟨tokens, htokens⟩ := ih (line.dropWhile p) (by simp; omega)
  refine ⟨_, htokens.go [f (line.takeWhile p)] ?_ (fun junk => ?_) ?_⟩
  · simpa using (heof _).symm
  · have hhead : (line ++ nul :: junk).head? = (line ++ [nul]).head? := by
      cases line with
      | nil => rfl
      | cons d line => rfl
    rw [List.cons_append, hturn _ hhead, scanWhile_line (before_nul hnul)]
    rfl
  · rw [closed_cons, hclosed, closedIn_dropWhile hmode hstep]

/-- A single character. -/
theorem ScansTo.char {c : Char} {line : List Char} (tokens : List Token) (heof : .eof ∉ tokens)
    (hturn : ∀ lnp, turn (c :: lnp) = some (.go tokens lnp)) (hstart : Mode.start c = .blank)
    (ih : ∀ line' : List Char, line'.length < (c :: line).length →
      ∃ tokens, ScansTo line' tokens) : ∃ tokens, ScansTo (c :: line) tokens := by
  obtain ⟨tokens', htokens⟩ := ih line (by simp)
  refine ⟨_, htokens.go tokens heof (fun junk => hturn _) ?_⟩
  rw [closed_cons, hstart]
  rfl

/-- A string, with or without an end. -/
theorem ScansTo.quotes {c : Char} {line : List Char}
    (hturn : ∀ lnp, turn (c :: lnp) = (scanWhile (· ≠ '"') lnp).map fun (value, endp) =>
      .go [.quoted (String.ofList value)] (endp.drop 1))
    (hstart : Mode.start c = .quoted)
    (ih : ∀ line' : List Char, line'.length < (c :: line).length →
      ∃ tokens, ScansTo line' tokens) : ∃ tokens, ScansTo (c :: line) tokens := by
  have hle := List.length_dropWhile_le inQuotes line
  have hquotes : ∀ d, inQuotes d = true ↔ d ≠ nul ∧ decide (d ≠ '"') = true := by
    intro d
    simp [inQuotes]
  have hscan : ∀ junk, turn (c :: line ++ nul :: junk) =
      some (.go [.quoted (String.ofList (line.takeWhile inQuotes))]
        ((line.dropWhile inQuotes ++ nul :: junk).drop 1)) := by
    intro junk
    rw [List.cons_append, hturn, scanWhile_line hquotes]
    rfl
  have hclosed : Closed (c :: line) ↔ ClosedIn .quoted line := by rw [closed_cons, hstart]
  cases hrest : line.dropWhile inQuotes with
  | nil =>
    refine ⟨_, ScansTo.leave [.quoted (String.ofList (line.takeWhile inQuotes))]
      (by simp) (fun junk => ?_) ?_⟩
    · rw [hscan, hrest]
      rfl
    · rw [hclosed, closedIn_quoted, hrest]
      rintro ⟨d, rest, heq, -⟩
      cases heq
  | cons d rest =>
    rw [hrest] at hle
    obtain ⟨tokens, htokens⟩ := ih rest (by simp at hle ⊢; omega)
    refine ⟨_, htokens.go [.quoted (String.ofList (line.takeWhile inQuotes))]
      (by simp) (fun junk => ?_) ?_⟩
    · rw [hscan, hrest]
      rfl
    · rw [hclosed, closedIn_quoted, hrest]
      constructor
      · rintro ⟨d', rest', heq, hclosed'⟩
        obtain ⟨-, rfl⟩ := List.cons.inj heq
        exact hclosed'
      · intro hclosed'
        exact ⟨d, rest, rfl, hclosed'⟩

/-- **What is scanned of a line.** -/
theorem exists_scansTo (line : List Char) : ∃ tokens, ScansTo line tokens := by
  induction h : line.length using Nat.strongRecOn generalizing line with
  | ind n ih =>
    subst h
    cases line with
    | nil => exact ⟨[], .stop (by simp) (fun junk => by simp [turn]) (by decide)⟩
    | cons c line =>
      have ih' : ∀ line' : List Char, line'.length < (c :: line).length →
          ∃ tokens, ScansTo line' tokens := fun line' hlt => ih _ hlt line' rfl
      by_cases hnul : c = nul
      · subst hnul
        exact ⟨[], .stop (by simp) (fun junk => by simp [turn]) (closedIn_ended line)⟩
      by_cases hcomment : c = '#'
      · subst hcomment
        exact ⟨[], .stop (by simp) (fun junk => turn_comment _) (closedIn_ended line)⟩
      by_cases hblank : isBlank c = true
      · exact ScansTo.char [] (by simp) (turn_blank hblank)
          (by simp [Mode.start, hnul, hcomment, hblank]) ih'
      by_cases hdigit : c.isDigit = true
      · refine ScansTo.token .number (p := isNumber)
          (f := fun value => .numeric (String.ofList (c :: value))) (by decide) (by simp)
          (fun lnp _ => turn_number (by simp [hdigit]) (by simp [startsNumber, hdigit])) ?_
          (by decide) (fun d => rfl) ih'
        simp [Mode.start, hnul, hcomment, hblank, hdigit]
      by_cases hminus : c = '-'
      · subst hminus
        have hhead : (line ++ [nul]).head?.map Char.isDigit = some (line.head?.any Char.isDigit) := by
          cases line with
          | nil => rfl
          | cons d line => rfl
        have hstarts : ∀ lnp : List Char, lnp.head? = (line ++ [nul]).head? →
            startsNumber '-' lnp = some (line.head?.any Char.isDigit) := by
          intro lnp hlnp
          rw [← hhead, ← hlnp]
          rfl
        -- A minus before a digit starts a number.
        cases hnext : line.head?.any Char.isDigit with
        | true =>
          refine ScansTo.token .number (p := isNumber)
            (f := fun value => .numeric (String.ofList ('-' :: value))) (by decide) (by simp)
            (fun lnp hlnp => turn_number (by decide) ((hstarts lnp hlnp).trans (congrArg some hnext)))
            ?_ (by decide) (fun d => rfl) ih'
          rw [show Mode.start '-' = .minus by decide, closedIn_minus, hnext]
          rfl
        | false =>
          refine ScansTo.token .word (p := isWord)
            (f := fun value => strToToktype (String.ofList ('-' :: value))) (by decide)
            (fun value => strToToktype_ne_eof _)
            (fun lnp hlnp => turn_letter (by decide) ((hstarts lnp hlnp).trans (congrArg some hnext)))
            ?_ (by decide) (fun d => rfl) ih'
          rw [show Mode.start '-' = .minus by decide, closedIn_minus, hnext]
          rfl
      have hstarts : ∀ lnp, startsNumber c lnp = some false := by simp [startsNumber, hdigit, hminus]
      by_cases hword : (c.isAlpha || c = '_') = true
      · refine ScansTo.token .word (p := isWord)
          (f := fun value => strToToktype (String.ofList (c :: value))) (by decide)
          (fun value => strToToktype_ne_eof _) (fun lnp _ => turn_letter (by simp [hword]) (hstarts lnp))
          ?_ (by decide) (fun d => rfl) ih'
        simp [Mode.start, hnul, hcomment, hblank, hdigit, hminus, hword]
      by_cases htype : c = '$'
      · subst htype
        exact ScansTo.token .typename (p := isName) (f := fun value => .typename (String.ofList value))
          (by decide) (by simp) (fun lnp _ => turn_dollar lnp)
          (by rw [show Mode.start '$' = .typename by decide]) (by decide) (fun d => rfl) ih'
      by_cases hpunct : isPunct c = true
      · exact ScansTo.char [.punct c] (by simp) (turn_punct hpunct)
          (by simp [Mode.start, hnul, hcomment, hblank, hdigit, hminus, hword, htype, hpunct]) ih'
      by_cases hquote : c = '"'
      · subst hquote
        exact ScansTo.quotes turn_quote (by decide) ih'
      have hother : (c.isAlpha || c = '_' || c = '-') = false := by simp [hword, hminus]
      refine ⟨[.error], .stop (by simp) (fun junk => ?_) ?_⟩
      · simp [turn, hnul, hcomment, hblank, hstarts, hother, htype, hpunct, hquote]
      · have hstart : Mode.start c = .ended := by
          simp [Mode.start, hnul, hcomment, hblank, hdigit, hminus, hword, htype, hpunct, hquote]
        rw [closed_cons, hstart]
        exact closedIn_ended line

/-- The tokens of a line. -/
def lineTokens (line : List Char) : List Token := (scan (line ++ [nul, nul])).getD []

theorem scan_nul (junk : List Char) : scan (nul :: junk) = some [] :=
  scan_stop (by simp [turn])

theorem scansTo_lineTokens (line : List Char) : ScansTo line (lineTokens line) := by
  obtain ⟨tokens, h⟩ := exists_scansTo line
  have htokens : lineTokens line = tokens := by
    rw [lineTokens, h.2 [nul], scan_nul]
    by_cases hclosed : Closed line
    · simp [hclosed]
    · simp [hclosed]
  rwa [htokens]

/-! ## The parser's tokens -/

section

-- What the line buffer holds after the `n`-th line was read into it.
variable (lnbuf : Nat → List Char → List Char)

/-- `SDL::Parser` as `next` and `push` use it. -/
structure Parser where
  file : List Char
  lineno : Nat := 0
  buffer : List Token := []

namespace Parser

/-- `SDL::Parser::next`. -/
def next (p : Parser) : Option (Token × Parser) :=
  match p.buffer with
  | tok :: buffer => some (tok, { p with buffer })
  | [] =>
    match _h : readLine p.file with
    | none => some (.eof, p)
    | some (line, file) =>
      match scan (lnbuf (p.lineno + 1) line) with
      | none => none
      | some buffer => next { file, lineno := p.lineno + 1, buffer }
termination_by p.file.length
decreasing_by exact (readLine_spec _h).2.2

/-- `SDL::Parser::push`. -/
def push (p : Parser) (tok : Token) : Parser := { p with buffer := tok :: p.buffer }

inductive Call where
  | next
  | push (tok : Token)

/-- What the calls of `next` return. -/
def run : List Call → Parser → Option (List Token)
  | [], _ => some []
  | .next :: calls, p =>
    match p.next lnbuf with
    | none => none
    | some (tok, p') => (run calls p').map (tok :: ·)
  | .push tok :: calls, p => run calls (p.push tok)

/-- The same for tokens that are all there, with the end of the file behind them. -/
def runTokens : List Call → List Token → List Token
  | [], _ => []
  | .next :: calls, toks => toks.headD .eof :: runTokens calls toks.tail
  | .push tok :: calls, toks => runTokens calls (tok :: toks)

/-- The tokens of the lines that follow the `n`-th. -/
def tokensFrom : Nat → List (List Char) → Option (List Token)
  | _, [] => some []
  | n, line :: ls =>
    match scan (lnbuf (n + 1) line) with
    | none => none
    | some toks => (tokensFrom (n + 1) ls).map (toks ++ ·)

end Parser

end

theorem lines_nil {file : List Char} (h : readLine file = none) : lines file = [] := by
  rw [lines]
  split
  · rfl
  · rename_i h'
    rw [h] at h'
    cases h'

theorem lines_cons {file line rest : List Char} (h : readLine file = some (line, rest)) :
    lines file = line :: lines rest := by
  rw [lines]
  split
  · rename_i h'
    rw [h] at h'
    cases h'
  · rename_i h'
    rw [h] at h'
    cases h'
    rfl

namespace Parser

variable {lnbuf lnbuf' : Nat → List Char → List Char} {p : Parser} {ts : List Token}

theorem next_buffer {tok : Token} {buffer : List Token} (h : p.buffer = tok :: buffer) :
    p.next lnbuf = some (tok, { p with buffer }) := by
  rw [next, h]

theorem next_eof (h : p.buffer = []) (hline : readLine p.file = none) :
    p.next lnbuf = some (.eof, p) := by
  rw [next, h]
  dsimp only
  split
  · rfl
  · rename_i h'
    rw [hline] at h'
    cases h'

theorem next_line {line file : List Char} (h : p.buffer = [])
    (hline : readLine p.file = some (line, file)) : p.next lnbuf =
      match scan (lnbuf (p.lineno + 1) line) with
      | none => none
      | some buffer => next lnbuf { file, lineno := p.lineno + 1, buffer } := by
  rw [next, h]
  dsimp only
  split
  · rename_i h'
    rw [hline] at h'
    cases h'
  · rename_i h'
    rw [hline] at h'
    cases h'
    rfl

/-- What is left for a parser to return. -/
def Has (lnbuf : Nat → List Char → List Char) (p : Parser) (toks : List Token) : Prop :=
  ∃ ts, tokensFrom lnbuf p.lineno (lines p.file) = some ts ∧ toks = p.buffer ++ ts

/-- **`next` takes the first of the tokens that are left.** -/
theorem Has.next {toks : List Token} (h : Has lnbuf p toks) :
    ∃ p', p.next lnbuf = some (toks.headD .eof, p') ∧ Has lnbuf p' toks.tail := by
  induction hn : p.file.length using Nat.strongRecOn generalizing p with
  | ind n ih =>
    subst hn
    obtain ⟨ts, hts, rfl⟩ := h
    cases hbuffer : p.buffer with
    | cons tok buffer => exact ⟨_, next_buffer hbuffer, ts, hts, rfl⟩
    | nil =>
      cases hline : readLine p.file with
      | none =>
        rw [lines_nil hline] at hts
        obtain rfl := Option.some.inj hts
        refine ⟨p, next_eof hbuffer hline, [], ?_, by rw [hbuffer]; rfl⟩
        rw [lines_nil hline]
        rfl
      | some lf =>
        obtain ⟨line, file⟩ := lf
        rw [lines_cons hline, tokensFrom] at hts
        rw [next_line hbuffer hline]
        cases hscan : scan (lnbuf (p.lineno + 1) line) with
        | none =>
          rw [hscan] at hts
          cases hts
        | some buffer =>
          rw [hscan] at hts
          obtain ⟨ts', hts', rfl⟩ := Option.map_eq_some_iff.1 hts
          have hhas : Has lnbuf { file, lineno := p.lineno + 1, buffer } (buffer ++ ts') :=
            ⟨ts', hts', rfl⟩
          rw [hbuffer] at ih
          exact ih file.length (readLine_spec hline).2.2 hhas rfl

theorem Has.push {toks : List Token} (h : Has lnbuf p toks) (tok : Token) :
    Has lnbuf (p.push tok) (tok :: toks) := by
  obtain ⟨ts, hts, rfl⟩ := h
  exact ⟨ts, hts, rfl⟩

/-- **The tokens of a file come one by one**, and those that are put back come again. -/
theorem Has.run {toks : List Token} (h : Has lnbuf p toks) (calls : List Call) :
    run lnbuf calls p = some (runTokens calls toks) := by
  induction calls generalizing p toks with
  | nil => rfl
  | cons call calls ih =>
    cases call with
    | next =>
      obtain ⟨p', hnext, hhas⟩ := h.next
      rw [Parser.run, hnext]
      dsimp only
      rw [ih hhas]
      rfl
    | push tok => exact ih (h.push tok)

/-- If a line reads behind the buffer, so do the calls that come to it. -/
theorem exists_fault (h : tokensFrom lnbuf p.lineno (lines p.file) = none) :
    ∃ n, run lnbuf (List.replicate n .next) p = none := by
  induction hn : p.file.length using Nat.strongRecOn generalizing p with
  | ind n ih =>
    subst hn
    obtain ⟨file, lineno, buffer⟩ := p
    induction buffer with
    | cons tok buffer ihbuffer =>
      obtain ⟨n, hn⟩ := ihbuffer h ih
      refine ⟨n + 1, ?_⟩
      rw [List.replicate_succ, run, next_buffer rfl]
      dsimp only
      rw [hn]
      rfl
    | nil =>
      cases hline : readLine file with
      | none =>
        rw [lines_nil hline] at h
        cases h
      | some lf =>
        obtain ⟨line, rest⟩ := lf
        rw [lines_cons hline, tokensFrom] at h
        cases hscan : scan (lnbuf (lineno + 1) line) with
        | none =>
          refine ⟨1, ?_⟩
          rw [List.replicate_one, run, next_line rfl hline, hscan]
        | some toks =>
          rw [hscan] at h
          have hrest : tokensFrom lnbuf (lineno + 1) (lines rest) = none := by simpa using h
          obtain ⟨n, hn⟩ := ih rest.length (readLine_spec hline).2.2
            (p := { file := rest, lineno := lineno + 1, buffer := toks }) hrest rfl
          -- The first of the calls reads this line too.
          cases n with
          | zero => cases hn
          | succ n =>
            refine ⟨n + 1, ?_⟩
            rw [List.replicate_succ, run] at hn ⊢
            rw [next_line rfl hline, hscan]
            exact hn

/-- The number of the ends of the file that are returned tells that of the tokens. -/
theorem count_eof {toks : List Token} (h : .eof ∉ toks) {n : Nat} (hn : toks.length ≤ n) :
    (runTokens (List.replicate n .next) toks).count .eof + toks.length = n := by
  induction n generalizing toks with
  | zero =>
    obtain rfl := List.eq_nil_of_length_eq_zero (Nat.le_zero.1 hn)
    rfl
  | succ n ih =>
    rw [List.replicate_succ, runTokens]
    cases toks with
    | nil =>
      have hrest := @ih [] (by simp) (by simp)
      simp at hrest ⊢
      omega
    | cons tok toks =>
      simp at h hn
      have hrest := ih h.2 hn
      have hne : tok ≠ .eof := fun heq => h.1 heq.symm
      simp [hne] at hrest ⊢
      omega

end Parser

/-! ## Nothing behind the line -/

/-- The NUL that is taken for the end of a line: the one that `readLine` puts there, or the
first. -/
inductive Terminator where
  | written
  | first
deriving DecidableEq

def Terminator.line : Terminator → List Char → List Char
  | .written, line => line
  | .first, line => line.takeWhile (· ≠ nul)

/-- A line buffer with each line up to its end, and anything behind that. -/
def Holds (e : Terminator) (lnbuf : Nat → List Char → List Char) : Prop :=
  ∀ n line, line.length < 4096 →
    ∃ junk, lnbuf n line = e.line line ++ nul :: junk ∧ (lnbuf n line).length = 4096

/-- The lexer stays inside the lines of a file. -/
structure Inside (e : Terminator) (file : List Char) : Prop where
  /-- Whatever is called, `next` returns tokens, the same ones whatever is behind the lines. -/
  same : ∀ calls, ∃ out, ∀ lnbuf, Holds e lnbuf → Parser.run lnbuf calls { file } = some out
  /-- So it does if there is nothing to read behind them. -/
  unread : ∀ calls, (Parser.run (fun _ line => e.line line ++ [nul]) calls { file }).isSome

section

variable {e : Terminator} {lnbuf : Nat → List Char → List Char}

theorem length_line (e : Terminator) (line : List Char) : (e.line line).length ≤ line.length := by
  cases e with
  | written => exact le_refl _
  | first => exact (List.takeWhile_sublist _).length_le

theorem length_of_mem_lines {file line : List Char} (h : line ∈ lines file) :
    line.length < 4096 := by
  induction hn : file.length using Nat.strongRecOn generalizing file with
  | ind n ih =>
    subst hn
    cases hread : readLine file with
    | none =>
      rw [lines_nil hread] at h
      cases h
    | some lf =>
      obtain ⟨line', rest⟩ := lf
      rw [lines_cons hread, List.mem_cons] at h
      rcases h with rfl | h
      · exact (readLine_spec hread).2.1
      · exact ih _ (readLine_spec hread).2.2 h rfl

/-- Of lines that end outside quotes the same is scanned always. -/
theorem tokensFrom_closed (n : Nat) {ls : List (List Char)}
    (hbuf : ∀ n, ∀ line ∈ ls, ∃ junk, lnbuf n line = e.line line ++ nul :: junk)
    (hclosed : ∀ line ∈ ls, Closed (e.line line)) :
    Parser.tokensFrom lnbuf n ls = some (ls.flatMap fun line => lineTokens (e.line line)) := by
  induction ls generalizing n with
  | nil => rfl
  | cons line ls ih =>
    rw [List.forall_mem_cons] at hclosed
    obtain ⟨junk, hline⟩ := hbuf (n + 1) line List.mem_cons_self
    have hrest := ih (n + 1) (fun n line' hline' => hbuf n line' (List.mem_cons_of_mem line hline'))
      hclosed.2
    rw [Parser.tokensFrom, hline, (scansTo_lineTokens _).2, if_pos hclosed.1]
    dsimp only
    rw [hrest]
    rfl

/-- So much behind a line: a character, and NULs. -/
def behind (c : Char) : Nat → List Char
  | 0 => []
  | n + 1 => c :: List.replicate n nul

theorem length_behind (c : Char) (n : Nat) : (behind c n).length = n := by
  cases n with
  | zero => rfl
  | succ n => rw [behind, List.length_cons, List.length_replicate]

def filled (e : Terminator) (c : Char) (_n : Nat) (line : List Char) : List Char :=
  e.line line ++ nul :: behind c (4095 - (e.line line).length)

theorem holds_filled (e : Terminator) (c : Char) : Holds e (filled e c) := by
  intro n line hshort
  refine ⟨_, rfl, ?_⟩
  have hle := length_line e line
  rw [filled, List.length_append, List.length_cons, length_behind]
  omega

theorem scan_nuls {n : Nat} {toks : List Token} (h : scan (List.replicate n nul) = some toks) :
    toks = [] := by
  cases n with
  | zero =>
    rw [List.replicate_zero, scan_fault rfl] at h
    cases h
  | succ n =>
    rw [List.replicate_succ, scan_nul] at h
    exact (Option.some.inj h).symm

theorem scan_behind_nul {n : Nat} {toks : List Token} (h : scan (behind nul n) = some toks) :
    toks = [] := by
  cases n with
  | zero =>
    rw [behind, scan_fault rfl] at h
    cases h
  | succ n =>
    rw [behind, scan_nul] at h
    exact (Option.some.inj h).symm

theorem scan_behind_punct {n : Nat} {toks : List Token} (h : scan (behind ';' n) = some toks) :
    toks = [.punct ';'] := by
  cases n with
  | zero =>
    rw [behind, scan_fault rfl] at h
    cases h
  | succ n =>
    have hturn : turn (';' :: List.replicate n nul) =
        some (.go [.punct ';'] (List.replicate n nul)) := by
      simp [turn, nul, isBlank, startsNumber, isPunct]
    rw [behind, scan_go hturn, Option.map_eq_some_iff] at h
    obtain ⟨toks', hscan, rfl⟩ := h
    rw [scan_nuls hscan]
    rfl

/-- What is scanned of the lines with the one and with the other behind them. -/
theorem tokensFrom_filled (e : Terminator) (n : Nat) {ls : List (List Char)} {a b : List Token}
    (ha : Parser.tokensFrom (filled e nul) n ls = some a)
    (hb : Parser.tokensFrom (filled e ';') n ls = some b) :
    .eof ∉ a ∧ .eof ∉ b ∧ a.length ≤ b.length ∧
      (a.length = b.length → ∀ line ∈ ls, Closed (e.line line)) := by
  induction ls generalizing n a b with
  | nil =>
    obtain rfl := Option.some.inj ha
    obtain rfl := Option.some.inj hb
    simp
  | cons line ls ih =>
    have hline := scansTo_lineTokens (e.line line)
    simp only [Parser.tokensFrom, filled, hline.2] at ha hb
    by_cases hclosed : Closed (e.line line)
    · simp only [if_pos hclosed, Option.map_eq_some_iff] at ha hb
      obtain ⟨a', ha', rfl⟩ := ha
      obtain ⟨b', hb', rfl⟩ := hb
      obtain ⟨haeof, hbeof, hle, hall⟩ := ih (n + 1) ha' hb'
      refine ⟨by simp [hline.1, haeof], by simp [hline.1, hbeof], by simp; omega, ?_⟩
      intro hlen
      rw [List.forall_mem_cons]
      exact ⟨hclosed, hall (by simpa using hlen)⟩
    · -- What is behind the line is scanned too.
      simp only [if_neg hclosed] at ha hb
      cases hscan : scan (behind nul (4095 - (e.line line).length)) with
      | none => simp [hscan] at ha
      | some x =>
        cases hscan' : scan (behind ';' (4095 - (e.line line).length)) with
        | none => simp [hscan'] at hb
        | some y =>
          obtain rfl := scan_behind_nul hscan
          obtain rfl := scan_behind_punct hscan'
          simp only [hscan, hscan', Option.map_some, Option.map_eq_some_iff] at ha hb
          obtain ⟨a', ha', rfl⟩ := ha
          obtain ⟨b', hb', rfl⟩ := hb
          obtain ⟨haeof, hbeof, hle, -⟩ := ih (n + 1) ha' hb'
          refine ⟨by simp [hline.1, haeof], by simp [hline.1, hbeof], by simp; omega, ?_⟩
          intro hlen
          simp at hlen
          omega

theorem Inside.tokensFrom {file : List Char} (h : Inside e file) (hbuf : Holds e lnbuf) :
    ∃ toks, Parser.tokensFrom lnbuf 0 (lines file) = some toks := by
  cases htoks : Parser.tokensFrom lnbuf 0 (lines file) with
  | some toks => exact ⟨toks, rfl⟩
  | none =>
    obtain ⟨n, hn⟩ := Parser.exists_fault (p := { file }) htoks
    obtain ⟨out, hout⟩ := h.same (List.replicate n .next)
    rw [hout lnbuf hbuf] at hn
    cases hn

theorem Inside.closed {file : List Char} (h : Inside e file) :
    ∀ line ∈ lines file, Closed (e.line line) := by
  obtain ⟨a, ha⟩ := h.tokensFrom (holds_filled e nul)
  obtain ⟨b, hb⟩ := h.tokensFrom (holds_filled e ';')
  obtain ⟨haeof, hbeof, hle, hall⟩ := tokensFrom_filled e 0 ha hb
  -- So many calls return both of them, and the file ends behind each.
  obtain ⟨out, hout⟩ := h.same (List.replicate b.length .next)
  have hruna := hout _ (holds_filled e nul)
  have hrunb := hout _ (holds_filled e ';')
  have hasa : Parser.Has (filled e nul) { file } a := ⟨a, ha, rfl⟩
  have hasb : Parser.Has (filled e ';') { file } b := ⟨b, hb, rfl⟩
  rw [hasa.run] at hruna
  rw [hasb.run, ← hruna, Option.some.injEq] at hrunb
  have hcounta := Parser.count_eof haeof hle
  have hcountb := Parser.count_eof hbeof (le_refl b.length)
  rw [hrunb] at hcountb
  exact hall (by omega)

end

/-- **The lexer stays inside the lines** of a file exactly if none of them ends inside quotes. -/
theorem inside_iff (e : Terminator) (file : List Char) :
    Inside e file ↔ ∀ line ∈ lines file, Closed (e.line line) := by
  constructor
  · exact Inside.closed
  · intro hclosed
    have hhas : ∀ lnbuf : Nat → List Char → List Char,
        (∀ n, ∀ line ∈ lines file, ∃ junk, lnbuf n line = e.line line ++ nul :: junk) →
        Parser.Has lnbuf { file } ((lines file).flatMap fun line => lineTokens (e.line line)) :=
      fun lnbuf hbuf => ⟨_, tokensFrom_closed 0 hbuf hclosed, rfl⟩
    constructor
    · intro calls
      refine ⟨Parser.runTokens calls ((lines file).flatMap fun line => lineTokens (e.line line)), ?_⟩
      intro lnbuf hbuf
      refine (hhas lnbuf fun n line hline => ?_).run calls
      obtain ⟨junk, hjunk, -⟩ := hbuf n line (length_of_mem_lines hline)
      exact ⟨junk, hjunk⟩
    · intro calls
      rw [(hhas _ fun n line _ => ⟨[], rfl⟩).run calls]
      rfl

theorem not_inside_quote (e : Terminator) : ¬ Inside e ['"', '\n'] := by
  intro h
  have hread : readLine ['"', '\n'] = some (['"', '\n'], []) := rfl
  have hclosed := h.closed ['"', '\n'] (by rw [lines_cons hread]; exact List.mem_cons_self)
  cases e with
  | written => exact hclosed (by decide)
  | first => exact hclosed (by decide)

/-- A line with one quote. -/
theorem quote_without_end : ¬ Inside .written ['"', '\n'] ∧ ¬ Inside .first ['"', '\n'] :=
  ⟨not_inside_quote .written, not_inside_quote .first⟩

end Dirtsand.SDL
