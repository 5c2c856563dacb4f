import Dirtsand.SDL.Lexer

/-!
# Texts of tokens

What a file looks like that has certain tokens: every line has some of them, with
blanks between and a comment behind, and with blanks wherever the next character
would belong to a token.

* `scan_renders` — a line is scanned to the tokens that it was made of.
* `tokensFrom_renders` — a file is.
-/

namespace Dirtsand.SDL

/-! ## Words -/

/-- The text of a keyword. -/
def keywordOf (tok : Token) : String := ((keywords.find? fun p => p.2 = tok).map Prod.fst).getD ""

/-- The text of a token. -/
def word : Token → List Char
  | .punct c => [c]
  | .ident value => value.toList
  | .numeric value => value.toList
  | .quoted value => '"' :: (value.toList ++ ['"'])
  | .typename value => '$' :: value.toList
  | tok => (keywordOf tok).toList

/-- A name in the alphabet of the lexer. -/
def isIdent : List Char → Bool
  | [] => false
  | c :: cs => (c.isAlpha || c = '_' || (c = '-' && !cs.head?.any Char.isDigit)) && cs.all isWord

def isNumeral : List Char → Bool
  | [] => false
  | c :: cs => (c.isDigit || (c = '-' && cs.head?.any Char.isDigit)) && cs.all isNumber

def isKeyword (tok : Token) : Bool := (keywords.map Prod.snd).contains tok

/-- A token that has a text. -/
def wellSpelled : Token → Bool
  | .punct c => isPunct c
  | .ident value => isIdent value.toList && (keywords.lookup value).isNone
  | .numeric value => isNumeral value.toList
  | .quoted value => value.toList.all inQuotes
  | .typename value => value.toList.all isName
  | tok => isKeyword tok

/-- A character that would belong to the token in front of it. -/
def goesOn : Token → Char → Bool
  | .punct _, _ => false
  | .quoted _, _ => false
  | .numeric _, c => isNumber c
  | .typename _, c => isName c
  | _, c => isWord c

/-- A line that is made of tokens. -/
inductive Renders : List Token → List Char → Prop
  | blanks {blanks : List Char} (h : ∀ c ∈ blanks, isBlank c = true) : Renders [] blanks
  | comment {blanks : List Char} (h : ∀ c ∈ blanks, isBlank c = true) (text : List Char) :
      Renders [] (blanks ++ '#' :: text)
  | token {blanks : List Char} (h : ∀ c ∈ blanks, isBlank c = true) {tok : Token}
      {toks : List Token} {line : List Char} (hspelled : wellSpelled tok = true)
      (hapart : ∀ c ∈ line.head?, goesOn tok c = false) (hline : Renders toks line) :
      Renders (tok :: toks) (blanks ++ (word tok ++ line))

/-! ## Turns of the lexer -/

/-- The loops of the lexer, over characters that they pass. -/
theorem scanWhile_word {p : Char → Bool} {value : List Char} (hnul : p nul = false)
    (hvalue : ∀ c ∈ value, p c = true) {lnp : List Char} (hne : lnp ≠ [])
    (hend : ∀ c ∈ lnp.head?, p c = false) : scanWhile p (value ++ lnp) = some (value, lnp) := by
  induction value with
  | nil =>
    cases lnp with
    | nil => exact absurd rfl hne
    | cons c lnp =>
      have hc : p c = false := hend c rfl
      rw [List.nil_append, scanWhile, if_neg]
      simp [hc]
  | cons c value ih =>
    rw [List.forall_mem_cons] at hvalue
    have hc : c ≠ nul := ne_of_class hvalue.1 hnul
    rw [List.cons_append, scanWhile, if_pos ⟨hc, hvalue.1⟩, ih hvalue.2]
    rfl

theorem turn_numeral {value lnp : List Char} (h : isNumeral value = true) (hne : lnp ≠ [])
    (hend : ∀ c ∈ lnp.head?, isNumber c = false) :
    turn (value ++ lnp) = some (.go [.numeric (String.ofList value)] lnp) := by
  cases value with
  | nil => cases h
  | cons c cs =>
    simp only [isNumeral, Bool.and_eq_true, Bool.or_eq_true, List.all_eq_true] at h
    obtain ⟨hstart, hcs⟩ := h
    have hscan := scanWhile_word (p := isNumber) (by decide) hcs hne hend
    have hstarts : startsNumber c (cs ++ lnp) = some true := by
      unfold startsNumber
      split
      · rfl
      · rename_i hdigit
        rcases hstart with hstart | ⟨hminus, hnext⟩
        · exact absurd hstart hdigit
        · rw [if_pos (of_decide_eq_true hminus)]
          cases cs with
          | nil => cases hnext
          | cons d cs => exact congrArg some hnext
    have hclass : (c.isDigit || c = '-') = true := by
      rcases hstart with hstart | ⟨hminus, -⟩
      · simp [hstart]
      · simp [of_decide_eq_true hminus]
    rw [List.cons_append, turn_number hclass hstarts, hscan]
    rfl

theorem turn_ident {value lnp : List Char} (h : isIdent value = true) (hne : lnp ≠ [])
    (hend : ∀ c ∈ lnp.head?, isWord c = false) :
    turn (value ++ lnp) = some (.go [strToToktype (String.ofList value)] lnp) := by
  cases value with
  | nil => cases h
  | cons c cs =>
    simp only [isIdent, Bool.and_eq_true, Bool.or_eq_true, List.all_eq_true] at h
    obtain ⟨hstart, hcs⟩ := h
    have hscan := scanWhile_word (p := isWord) (by decide) hcs hne hend
    have hclass : (c.isAlpha || c = '_' || c = '-') = true := by
      rcases hstart with (hstart | hstart) | ⟨hstart, -⟩
      · simp [hstart]
      · simp [of_decide_eq_true hstart]
      · simp [of_decide_eq_true hstart]
    have hdigit : c.isDigit = false := by
      rcases hstart with (hstart | hstart) | ⟨hstart, -⟩
      · exact digit_of_alpha hstart
      · rw [of_decide_eq_true hstart]
        rfl
      · rw [of_decide_eq_true hstart]
        rfl
    have hstarts : startsNumber c (cs ++ lnp) = some false := by
      unfold startsNumber
      rw [if_neg (by simp [hdigit])]
      split
      · rename_i hminus
        subst hminus
        -- The character behind the minus is a letter, or none of the word.
        have hnext : ¬ cs.head?.any Char.isDigit = true := by simpa using hstart
        cases cs with
        | nil =>
          cases lnp with
          | nil => exact absurd rfl hne
          | cons d lnp =>
            have hd : isWord d = false := hend d rfl
            simp only [isWord, Bool.or_eq_false_iff] at hd
            simp [hd]
        | cons d cs => simpa using hnext
      · rfl
    rw [List.cons_append, turn_letter hclass hstarts, hscan]
    rfl

theorem turn_typename {value lnp : List Char} (hvalue : ∀ c ∈ value, isName c = true)
    (hne : lnp ≠ []) (hend : ∀ c ∈ lnp.head?, isName c = false) :
    turn ('$' :: (value ++ lnp)) = some (.go [.typename (String.ofList value)] lnp) := by
  rw [turn_dollar, scanWhile_word (by decide) hvalue hne hend]
  rfl

/-- A quoted string, and what is behind it. -/
theorem turn_quoted {value : List Char} (hvalue : ∀ c ∈ value, inQuotes c = true)
    (lnp : List Char) : turn ('"' :: (value ++ '"' :: lnp)) =
      some (.go [.quoted (String.ofList value)] lnp) := by
  have hscan : scanWhile (· ≠ '"') (value ++ '"' :: lnp) = some (value, '"' :: lnp) := by
    induction value with
    | nil => simp [scanWhile]
    | cons c value ih =>
      rw [List.forall_mem_cons] at hvalue
      have hc : c ≠ nul ∧ c ≠ '"' := by simpa [inQuotes] using hvalue.1
      rw [List.cons_append, scanWhile, if_pos (by simpa using hc), ih hvalue.2]
      rfl
  rw [turn_quote, hscan]
  rfl

theorem keyword_spelled : ∀ tok ∈ keywords.map Prod.snd,
    isIdent (keywordOf tok).toList = true ∧ strToToktype (keywordOf tok) = tok ∧
      word tok = (keywordOf tok).toList ∧ ∀ c, goesOn tok c = isWord c := by
  have hword : ∀ tok ∈ keywords.map Prod.snd, isIdent (keywordOf tok).toList = true ∧
      strToToktype (keywordOf tok) = tok := by decide
  intro tok htok
  refine ⟨(hword tok htok).1, (hword tok htok).2, ?_⟩
  cases tok with
  | punct c => revert htok; simp [keywords]
  | ident value => revert htok; simp [keywords]
  | numeric value => revert htok; simp [keywords]
  | quoted value => revert htok; simp [keywords]
  | typename value => revert htok; simp [keywords]
  | _ => exact ⟨rfl, fun c => rfl⟩

theorem keyword_of_spelled {tok : Token} (h : isKeyword tok = true) :
    tok ∈ keywords.map Prod.snd := by
  simpa [isKeyword] using h

/-- **A token is read from its text**, up to a character that would not belong to it. -/
theorem turn_word {tok : Token} (h : wellSpelled tok = true) {lnp : List Char} (hne : lnp ≠ [])
    (hapart : ∀ c ∈ lnp.head?, goesOn tok c = false) :
    turn (word tok ++ lnp) = some (.go [tok] lnp) := by
  have hkeyword : isKeyword tok = true → turn (word tok ++ lnp) = some (.go [tok] lnp) := by
    intro hkey
    obtain ⟨hident, htok, hword, hgoes⟩ := keyword_spelled tok (keyword_of_spelled hkey)
    rw [hword, turn_ident hident hne fun c hc => by rw [← hgoes, hapart c hc], String.ofList_toList,
      htok]
  cases tok with
  | eof => exact hkeyword h
  | error => exact hkeyword h
  | punct c => exact turn_punct h lnp
  | ident value =>
    simp only [wellSpelled, Bool.and_eq_true, Option.isNone_iff_eq_none] at h
    rw [word, turn_ident h.1 hne hapart, String.ofList_toList, strToToktype, h.2]
    rfl
  | numeric value => rw [word, turn_numeral h hne hapart, String.ofList_toList]
  | quoted value =>
    rw [wellSpelled, List.all_eq_true] at h
    rw [word, List.cons_append, List.append_assoc, List.singleton_append, turn_quoted h,
      String.ofList_toList]
  | typename value =>
    rw [wellSpelled, List.all_eq_true] at h
    rw [word, List.cons_append, turn_typename h hne hapart, String.ofList_toList]
  | _ => exact hkeyword h

/-! ## Lines -/

theorem scan_blanks {blanks : List Char} (h : ∀ c ∈ blanks, isBlank c = true) (lnp : List Char) :
    scan (blanks ++ lnp) = scan lnp := by
  induction blanks with
  | nil => rfl
  | cons c blanks ih =>
    rw [List.forall_mem_cons] at h
    rw [List.cons_append, scan_go (turn_blank h.1 _), ih h.2]
    simp

theorem goesOn_nul (tok : Token) : goesOn tok nul = false := by
  cases tok with
  | _ => rfl

/-- **A line is scanned to the tokens that it was made of.** -/
theorem scan_renders {toks : List Token} {line : List Char} (h : Renders toks line)
    (junk : List Char) : scan (line ++ nul :: junk) = some toks := by
  induction h with
  | blanks hblanks => rw [scan_blanks hblanks, scan_nul]
  | comment hblanks text =>
    rw [List.append_assoc, scan_blanks hblanks, List.cons_append, scan_stop (turn_comment _)]
  | token hblanks hspelled hapart hline ih =>
    rename_i blanks tok toks line
    have hend : ∀ c ∈ (line ++ nul :: junk).head?, goesOn tok c = false := by
      cases line with
      | nil =>
        intro c hc
        obtain rfl := Option.some.inj hc
        exact goesOn_nul tok
      | cons d line => exact hapart
    rw [List.append_assoc, List.append_assoc, scan_blanks hblanks,
      scan_go (turn_word hspelled (by simp) hend), ih]
    rfl

theorem isBlank_newline : isBlank '\n' = true := rfl

theorem goesOn_blank {c : Char} (h : isBlank c = true) (tok : Token) : goesOn tok c = false := by
  have hc : c ∈ [' ', '\t', '\x08', '\r', '\n'] := by simpa [isBlank, or_assoc] using h
  have hall : [' ', '\t', '\x08', '\r', '\n'].all
      (fun d => !isNumber d && (!isName d && !isWord d)) = true := by decide
  obtain ⟨hnumber, hname, hword⟩ : isNumber c = false ∧ isName c = false ∧ isWord c = false := by
    simpa using List.all_eq_true.1 hall c hc
  cases tok with
  | punct _ => rfl
  | quoted _ => rfl
  | numeric _ => exact hnumber
  | typename _ => exact hname
  | _ => exact hword

/-- The newline of a line. -/
theorem Renders.newline {toks : List Token} {line : List Char} (h : Renders toks line) :
    Renders toks (line ++ ['\n']) := by
  induction h with
  | blanks hblanks =>
    refine .blanks fun c hc => ?_
    rw [List.mem_append, List.mem_singleton] at hc
    rcases hc with hc | rfl
    · exact hblanks c hc
    · rfl
  | comment hblanks text =>
    rw [List.append_assoc, List.cons_append]
    exact .comment hblanks _
  | token hblanks hspelled hapart hline ih =>
    rename_i blanks tok toks line
    rw [List.append_assoc, List.append_assoc]
    refine .token hblanks hspelled ?_ ih
    cases line with
    | nil =>
      intro c hc
      obtain rfl := Option.some.inj hc
      exact goesOn_blank isBlank_newline tok
    | cons d line => exact hapart

theorem renders_newline : Renders [] ['\n'] :=
  .blanks fun c hc => by
    obtain rfl := List.mem_singleton.1 hc
    rfl

/-- A line with a blank behind each token. -/
def spaced (toks : List Token) : List Char := toks.flatMap fun tok => word tok ++ [' ']

theorem renders_spaced {toks : List Token} (h : ∀ tok ∈ toks, wellSpelled tok = true) :
    Renders toks (spaced toks) := by
  have hrest : ∀ toks : List Token, (∀ tok ∈ toks, wellSpelled tok = true) →
      Renders toks (' ' :: spaced toks) := by
    intro toks h
    induction toks with
    | nil =>
      refine .blanks fun c hc => ?_
      obtain rfl := List.mem_singleton.1 hc
      rfl
    | cons tok toks ih =>
      rw [List.forall_mem_cons] at h
      have hline : ' ' :: spaced (tok :: toks) = [' '] ++ (word tok ++ ' ' :: spaced toks) := by
        simp [spaced]
      rw [hline]
      refine .token ?_ h.1 ?_ (ih h.2)
      · intro c hc
        obtain rfl := List.mem_singleton.1 hc
        rfl
      · intro c hc
        obtain rfl := Option.some.inj hc
        exact goesOn_blank rfl tok
  cases toks with
  | nil =>
    have hnil : ∀ c ∈ ([] : List Char), isBlank c = true := by simp
    exact .blanks hnil
  | cons tok toks =>
    rw [List.forall_mem_cons] at h
    have hline : spaced (tok :: toks) = [] ++ (word tok ++ ' ' :: spaced toks) := by simp [spaced]
    rw [hline]
    refine .token (by simp) h.1 ?_ (hrest toks h.2)
    intro c hc
    obtain rfl := Option.some.inj hc
    exact goesOn_blank rfl tok

/-! ## Files -/

/-- A line without its newline. -/
structure RenderedLine (toks : List Token) (line : List Char) : Prop where
  renders : Renders toks line
  inside : '\n' ∉ line
  short : line.length < 4096

theorem takeLine_short {line : List Char} (hinside : '\n' ∉ line) (rest : List Char) {n : Nat}
    (hn : line.length < n) : takeLine n (line ++ '\n' :: rest) = (line ++ ['\n'], rest) := by
  induction line generalizing n with
  | nil =>
    cases n with
    | zero => simp at hn
    | succ n => simp [takeLine]
  | cons c line ih =>
    rw [List.mem_cons, not_or] at hinside
    cases n with
    | zero => simp at hn
    | succ n =>
      have hc : c ≠ '\n' := fun h => hinside.1 h.symm
      rw [List.cons_append, takeLine, if_neg hc, ih hinside.2 (by simpa using hn)]
      rfl

theorem takeLine_full {line : List Char} (hinside : '\n' ∉ line) (rest : List Char) :
    takeLine line.length (line ++ rest) = (line, rest) := by
  induction line with
  | nil => simp [takeLine]
  | cons c line ih =>
    rw [List.mem_cons, not_or] at hinside
    have hc : c ≠ '\n' := fun h => hinside.1 h.symm
    rw [List.cons_append, List.length_cons, takeLine, if_neg hc, ih hinside.2]

theorem takeLine_last {line : List Char} (hinside : '\n' ∉ line) {n : Nat}
    (hn : line.length ≤ n) : takeLine n line = (line, []) := by
  induction line generalizing n with
  | nil => cases n <;> rfl
  | cons c line ih =>
    rw [List.mem_cons, not_or] at hinside
    cases n with
    | zero => simp at hn
    | succ n =>
      have hc : c ≠ '\n' := fun h => hinside.1 h.symm
      rw [takeLine, if_neg hc, ih hinside.2 (by simpa using hn)]

theorem readLine_eq {file line rest : List Char} (h : takeLine 4095 file = (line, rest))
    (hne : line ≠ []) : readLine file = some (line, rest) := by
  unfold readLine
  rw [h]
  cases line with
  | nil => exact absurd rfl hne
  | cons c line => rfl

/-- The lines of a file that `next` scans. -/
inductive RenderedFile : List Token → List Char → Prop
  | last {toks : List Token} {line : List Char} (h : RenderedLine toks line) :
      RenderedFile toks line
  | line {toks toks' : List Token} {line file : List Char} (h : RenderedLine toks line)
      (hfile : RenderedFile toks' file) : RenderedFile (toks ++ toks') (line ++ '\n' :: file)

theorem tokensFrom_line {lnbuf : Nat → List Char → List Char} (hbuf : Holds .written lnbuf)
    {toks toks' : List Token} {file line rest : List Char}
    (hread : readLine file = some (line, rest)) (hline : Renders toks line) (n : Nat)
    (hrest : Parser.tokensFrom lnbuf (n + 1) (lines rest) = some toks') :
    Parser.tokensFrom lnbuf n (lines file) = some (toks ++ toks') := by
  obtain ⟨junk, hjunk, -⟩ := hbuf (n + 1) line (readLine_spec hread).2.1
  have hscan : scan (lnbuf (n + 1) line) = some toks := by
    rw [hjunk]
    exact scan_renders hline junk
  rw [lines_cons hread, Parser.tokensFrom, hscan]
  dsimp only
  rw [hrest]
  rfl

/-- **A file has the tokens that it was made of.** -/
theorem tokensFrom_renders {lnbuf : Nat → List Char → List Char} (hbuf : Holds .written lnbuf)
    {toks : List Token} {file : List Char} (h : RenderedFile toks file) (n : Nat) :
    Parser.tokensFrom lnbuf n (lines file) = some toks := by
  induction h generalizing n with
  | last hline =>
    rename_i toks line
    by_cases hempty : line = []
    · subst hempty
      have htoks := scan_renders hline.renders []
      rw [List.nil_append, scan_nul, Option.some.injEq] at htoks
      rw [← htoks, lines_nil rfl]
      rfl
    · have htake := takeLine_last hline.inside (n := 4095) (by have := hline.short; omega)
      have hread := readLine_eq htake hempty
      rw [← List.append_nil toks]
      refine tokensFrom_line hbuf hread hline.renders n ?_
      rw [lines_nil rfl]
      rfl
  | line hline hfile ih =>
    rename_i toks toks' line file
    by_cases hshort : line.length < 4095
    · have hread := readLine_eq (takeLine_short hline.inside file hshort) (by simp)
      exact tokensFrom_line hbuf hread hline.renders.newline n (ih (n + 1))
    · -- The newline of a line that fills the buffer is a line of its own.
      have hlen : line.length = 4095 := by
        have := hline.short
        omega
      have htake := takeLine_full hline.inside ('\n' :: file)
      rw [hlen] at htake
      have hread := readLine_eq htake (by rintro rfl; simp at hlen)
      have hempty : '\n' ∉ ([] : List Char) := by simp
      have hnewline := readLine_eq (takeLine_short hempty file (n := 4095) (by simp)) (by simp)
      refine tokensFrom_line hbuf hread hline.renders n ?_
      exact tokensFrom_line hbuf hnewline renders_newline (n + 1) (ih (n + 2))

end Dirtsand.SDL
