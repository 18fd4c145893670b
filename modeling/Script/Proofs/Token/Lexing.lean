import Script.Proofs.Number.Numerals
import Script.Proofs.Syntax.Printable

/-!
# Finding lexemes in a text

`Lexes text lexemes rest` says that the lexer, where it stands in front of
`text` and `rest`, reads `text` as some lexemes and comes to `rest`.  A token
takes as many characters as it can, so this depends on the first characters of
`rest`.  What can follow a name or a number is `Clear`.
-/

namespace Script.Cursor

open Lexeme (sign word endOfInput)

variable {c d : Char} {text text' rest : List Char} {l : Lexeme}
  {ls ls' : List Lexeme} {cursor : Cursor}

theorem mem_reserved_of_ofWord? {word : String} {kind : Token.Kind}
    (h : Token.Kind.ofWord? word = some kind) : (word, kind) ∈ Token.Kind.reserved := by
  obtain ⟨before, after, heq, -⟩ := List.lookup_eq_some_iff.mp h
  rw [heq]
  simp

/-! ### Texts and lexemes -/

def Lexes (text : List Char) (lexemes : List Lexeme) (rest : List Char) :
    Prop :=
  ∀ (before : List Token) (cursor : Cursor), cursor.rest = text ++ rest →
    ∃ (tokens : List Token) (cursor' : Cursor), cursor'.rest = rest ∧
      tokens.map Token.lexeme = lexemes ∧
      cursor.tokensAfter before = cursor'.tokensAfter (tokens.reverse ++ before)

theorem Lexes.nil : Lexes [] [] rest :=
  fun _ cursor hcursor => ⟨[], cursor, hcursor, rfl, rfl⟩

theorem Lexes.append (h : Lexes text ls (text' ++ rest))
    (h' : Lexes text' ls' rest) : Lexes (text ++ text') (ls ++ ls') rest := by
  intro before cursor hcursor
  rw [List.append_assoc] at hcursor
  obtain ⟨tokens, cursor', hcursor', htokens, heq⟩ := h before cursor hcursor
  obtain ⟨tokens', cursor'', hcursor'', htokens', heq'⟩ := h' _ cursor' hcursor'
  refine ⟨tokens ++ tokens', cursor'', hcursor'', ?_, ?_⟩
  · rw [List.map_append, htokens, htokens']
  · rw [heq, heq', List.reverse_append, List.append_assoc]

/-- The tokens depend on what comes behind the gap only. -/
theorem tokensAfter_of_skip {cursor' : Cursor} (h : cursor.skip = cursor'.skip)
    (before : List Token) :
    cursor.tokensAfter before = cursor'.tokensAfter before := by
  rw [tokensAfter, tokensAfter.eq_def before cursor']
  unfold next
  rw [h]

theorem lexes_blank (hc : isBlank c = true) : Lexes [c] [] rest := by
  intro before cursor hcursor
  unfold isBlank at hc
  simp only [Bool.or_eq_true, decide_eq_true_eq] at hc
  refine ⟨[], cursor.past c rest, past_rest cursor c rest, rfl, ?_⟩
  refine tokensAfter_of_skip ?_ before
  unfold skip
  rw [hcursor, past_rest]
  rcases hc with ((rfl | rfl) | rfl) | rfl <;> rfl

theorem Lexes.blank (hc : isBlank c = true) (h : Lexes text ls rest) :
    Lexes (c :: text) ls rest :=
  (lexes_blank hc).append h

/-- One token at the start of the text. -/
theorem lexes_of_read (hl : l.kind ≠ .eof)
    (hskip : ∀ cursor : Cursor, cursor.rest = text ++ rest →
      cursor.skip = cursor)
    (hread : ∀ cursor : Cursor, cursor.rest = text ++ rest →
      cursor.read.1.lexeme = l ∧ cursor.read.2.rest = rest) :
    Lexes text [l] rest := by
  intro before cursor hcursor
  obtain ⟨hlexeme, hrest⟩ := hread cursor hcursor
  refine ⟨[cursor.read.1], cursor.read.2, hrest, by simp [hlexeme], ?_⟩
  have hkind : cursor.read.1.kind ≠ .eof := by
    have := congrArg Lexeme.kind hlexeme
    exact fun heq => hl (this.symm.trans heq)
  rw [tokensAfter]
  unfold next
  rw [hskip cursor hcursor, if_neg hkind]
  rfl

/-- The tokens of a whole text. -/
theorem lexemes_tokenize {source : String} (h : Lexes source.toList ls []) :
    (tokenize source).map Token.lexeme = ls ++ [endOfInput] := by
  obtain ⟨tokens, cursor, hcursor, htokens, heq⟩ := h [] (start source)
    (List.append_nil _).symm
  have hskip : cursor.skip.rest = [] := by
    have hlength := length_skip_le cursor
    rw [hcursor, List.length_nil] at hlength
    exact List.length_eq_zero_iff.mp (Nat.le_zero.mp hlength)
  have hend : cursor.next.1.kind = .eof ∧ cursor.next.1.text = "" := by
    unfold next read
    rw [hskip]
    exact ⟨rfl, rfl⟩
  unfold tokenize
  rw [heq, tokensAfter, if_pos hend.1, List.append_nil, List.reverse_cons,
    List.reverse_reverse, List.map_append, htokens]
  simp [Token.lexeme, hend.1, hend.2, endOfInput]

/-! ### Gaps -/

/-- Where no blank and no comment starts, nothing is skipped. -/
theorem skip_eq (hcursor : cursor.rest = c :: rest) (hblank : isBlank c = false)
    (hslash : c = '/' → ∀ d ∈ rest.head?, d ≠ '/' ∧ d ≠ '*') :
    cursor.skip = cursor := by
  have hline : c ≠ '\n' := by
    rintro rfl
    cases hblank
  have hstay : ∀ line column, skipGap .blank (c :: rest) line column =
      { rest := c :: rest, line, column } := by
    intro line column
    rw [skipGap]
    · rw [if_neg hline, if_neg (by simp [hblank])]
    · rintro rest' rfl rfl
      exact (hslash rfl '/' rfl).1 rfl
    · rintro rest' rfl rfl
      exact (hslash rfl '*' rfl).2 rfl
  unfold skip
  rw [hcursor, hstay]
  obtain ⟨cursorRest, line, column⟩ := cursor
  cases hcursor
  rfl

/-! ### Operators and punctuation -/

theorem pairKind?_some {kind : Token.Kind} (h : pairKind? c d = some kind) :
    isBlank c = false ∧ (c = '/' → d ≠ '/' ∧ d ≠ '*') ∧
      continuesName c = false ∧ continuesName d = false ∧ kind ≠ .eof ∧
      kind.text = String.ofList [c, d] := by
  unfold pairKind? at h
  split at h
  all_goals first
    | (obtain rfl := Option.some.inj h
       exact ⟨rfl, by decide, rfl, rfl, by decide, rfl⟩)
    | cases h

/-- A character of a name is no part of an operator. -/
theorem pairKind?_of_continuesName
    (h : continuesName c = true ∨ continuesName d = true) :
    pairKind? c d = none := by
  cases hkind : pairKind? c d with
  | none => rfl
  | some kind =>
    obtain ⟨-, -, hc, hd, -⟩ := pairKind?_some hkind
    rcases h with h | h
    · exact absurd (hc.symm.trans h) Bool.false_ne_true
    · exact absurd (hd.symm.trans h) Bool.false_ne_true

theorem lexes_pair {kind : Token.Kind} (h : pairKind? c d = some kind) :
    Lexes [c, d] [sign kind] rest := by
  obtain ⟨hblank, hslash, -, -, heof, htext⟩ := pairKind?_some h
  refine lexes_of_read heof ?_ ?_
  · intro cursor hcursor
    refine skip_eq hcursor hblank fun hc d' hd' => ?_
    obtain rfl := Option.some.inj hd'
    exact hslash hc
  · intro cursor hcursor
    unfold read
    rw [hcursor]
    simp [h, emit, along, Token.lexeme, sign, htext]

/-- The characters that are operators or punctuation on their own. -/
theorem singleKind?_some {kind : Token.Kind} (h : singleKind? c = some kind) :
    isBlank c = false ∧ c ≠ '"' ∧ c ≠ '\x60' ∧ isDigit c = false ∧
      startsName c = false ∧ kind ≠ .eof ∧ kind.text = String.ofList [c] := by
  unfold singleKind? at h
  split at h
  all_goals first
    | (obtain rfl := Option.some.inj h
       exact ⟨rfl, by decide, by decide, rfl, rfl, by decide, rfl⟩)
    | cases h

/-- A character that makes no operator together with the next one. -/
theorem lexes_single {kind : Token.Kind} (h : singleKind? c = some kind)
    (hdot : c ≠ '.') (hpair : ∀ d ∈ rest.head?, pairKind? c d = none)
    (hslash : c = '/' → ∀ d ∈ rest.head?, d ≠ '/' ∧ d ≠ '*') :
    Lexes [c] [sign kind] rest := by
  obtain ⟨hblank, hquote, hback, hdigit, hname, heof, htext⟩ :=
    singleKind?_some h
  have hnone : rest.head?.bind (pairKind? c) = none := by
    cases hrest : rest.head? with
    | none => rfl
    | some d => exact hpair d hrest
  refine lexes_of_read heof
    (fun cursor hcursor => skip_eq hcursor hblank hslash) ?_
  intro cursor hcursor
  unfold read
  rw [hcursor]
  simp [hnone, hdot, hquote, hback, hdigit, hname, h, emit, along,
    Token.lexeme, sign, htext]

/-- Characters that never are part of a longer operator. -/
def standsAlone (c : Char) : Bool :=
  c = ',' || c = ';' || c = ':' || c = '?' || c = '(' || c = ')' ||
    c = '\x7b' || c = '\x7d' || c = '[' || c = ']'

theorem Lexes.alone {kind : Token.Kind} (hc : standsAlone c = true)
    (hkind : singleKind? c = some kind) (h : Lexes text ls rest) :
    Lexes (c :: text) (sign kind :: ls) rest := by
  unfold standsAlone at hc
  simp only [Bool.or_eq_true, decide_eq_true_eq] at hc
  refine (lexes_single hkind ?_ ?_ ?_).append h
  · rcases hc with ((((((((rfl | rfl) | rfl) | rfl) | rfl) | rfl) | rfl) |
      rfl) | rfl) | rfl <;> decide
  · intro d _
    rcases hc with ((((((((rfl | rfl) | rfl) | rfl) | rfl) | rfl) | rfl) |
      rfl) | rfl) | rfl <;> simp [pairKind?]
  · rintro rfl
    simp at hc

/-- Reading a character that starts no operator of two characters. -/
theorem read_eq (hcursor : cursor.rest = c :: rest)
    (hpair : ∀ d, pairKind? c d = none) :
    cursor.read =
      if c = '.' then cursor.emitDot rest
      else if c = '"' ∨ c = '\x60' then cursor.emitString c rest
      else if isDigit c then
        cursor.emitNumber (c :: rest.takeWhile isDigit) (rest.dropWhile isDigit)
      else if startsName c then
        cursor.emitWord (c :: rest.takeWhile continuesName)
          (rest.dropWhile continuesName)
      else
        cursor.emit ((singleKind? c).getD .illegal) [c] rest := by
  have hnone : rest.head?.bind (pairKind? c) = none := by
    cases rest.head? with
    | none => rfl
    | some d => exact hpair d
  unfold read
  rw [hcursor]
  simp only [hnone]

/-! ### Dots -/

theorem read_dot (hcursor : cursor.rest = '.' :: rest) :
    cursor.skip = cursor ∧ cursor.read = cursor.emitDot rest := by
  refine ⟨skip_eq hcursor rfl (by simp), ?_⟩
  rw [read_eq hcursor fun d => by simp [pairKind?], if_pos rfl]

theorem lexes_spread : Lexes ['.', '.', '.'] [sign .spread] rest := by
  refine lexes_of_read (by simp) (fun cursor hcursor => (read_dot hcursor).1) ?_
  intro cursor hcursor
  rw [(read_dot hcursor).2]
  exact ⟨rfl, rfl⟩

/-- Two dots are a range, unless there is a third one. -/
theorem lexes_range (hrest : ∀ d ∈ rest.head?, d ≠ '.') :
    Lexes ['.', '.'] [sign .range] rest := by
  refine lexes_of_read (by simp) (fun cursor hcursor => (read_dot hcursor).1) ?_
  intro cursor hcursor
  have hemit : cursor.emitDot ('.' :: rest) =
      cursor.emit .range ['.', '.'] rest := by
    cases rest with
    | nil => rfl
    | cons d rest =>
      have hd := hrest d rfl
      unfold emitDot
      split
      · next heq =>
        exact absurd (List.cons.inj (List.cons.inj heq).2).1 hd
      · next heq =>
        rw [(List.cons.inj heq).2]
      · next hno => exact absurd rfl (hno _)
  rw [(read_dot hcursor).2.trans hemit]
  exact ⟨rfl, rfl⟩

theorem lexes_dot (hdot : ∀ d ∈ rest.head?, d ≠ '.')
    (hdigit : digitNext rest = false) : Lexes ['.'] [sign .dot] rest := by
  refine lexes_of_read (by simp) (fun cursor hcursor => (read_dot hcursor).1) ?_
  intro cursor hcursor
  have hemit : cursor.emitDot rest = cursor.emit .dot ['.'] rest := by
    unfold emitDot
    split
    · exact absurd rfl (hdot '.' rfl)
    · exact absurd rfl (hdot '.' rfl)
    · rw [if_neg (by simp [hdigit])]
  rw [(read_dot hcursor).2.trans hemit]
  exact ⟨rfl, rfl⟩

/-! ### Names -/

/-- The text can be followed by `rest` without becoming a longer name or
number. -/
structure Clear (rest : List Char) : Prop where
  name : ∀ c ∈ rest.head?, continuesName c = false
  point : ∀ rest', rest = '.' :: rest' → digitNext rest' = false

theorem clear_cons (hname : continuesName c = false) (hpoint : c ≠ '.')
    (rest : List Char) : Clear (c :: rest) := by
  refine ⟨?_, ?_⟩
  · rintro d hd
    obtain rfl := Option.some.inj hd
    exact hname
  · rintro rest' heq
    exact absurd (List.cons.inj heq).1 hpoint

theorem clear_point (hdigit : digitNext rest = false) : Clear ('.' :: rest) := by
  refine ⟨?_, ?_⟩
  · rintro d hd
    obtain rfl := Option.some.inj hd
    rfl
  · rintro rest' heq
    rwa [← (List.cons.inj heq).2]

theorem Clear.digit (h : Clear rest) : ∀ c ∈ rest.head?, isDigit c = false := by
  intro c hc
  have := h.name c hc
  unfold continuesName at this
  exact (Bool.or_eq_false_iff.mp this).2

theorem isBlank_of_continuesName (hc : continuesName c = true) :
    isBlank c = false := by
  rw [Bool.eq_false_iff]
  intro hblank
  unfold isBlank at hblank
  simp only [Bool.or_eq_true, decide_eq_true_eq] at hblank
  rcases hblank with ((rfl | rfl) | rfl) | rfl <;> exact absurd hc (by decide)

/-- A name or a number does not start with a character that means something
else. -/
theorem ne_of_continuesName (hc : continuesName c = true) :
    c ≠ '/' ∧ c ≠ '.' ∧ c ≠ '"' ∧ c ≠ '\x60' := by
  refine ⟨?_, ?_, ?_, ?_⟩ <;> rintro rfl <;> exact absurd hc (by decide)

theorem skip_of_continuesName (hcursor : cursor.rest = c :: rest)
    (hc : continuesName c = true) : cursor.skip = cursor :=
  skip_eq hcursor (isBlank_of_continuesName hc)
    fun hslash => absurd hslash (ne_of_continuesName hc).1

theorem isDigit_of_startsName (hc : startsName c = true) : isDigit c = false := by
  rw [Bool.eq_false_iff]
  intro hdigit
  unfold startsName at hc
  unfold isDigit at hdigit
  simp only [Bool.or_eq_true, Bool.and_eq_true, decide_eq_true_eq] at hc hdigit
  rcases hc with (⟨hlow, -⟩ | ⟨hlow, -⟩) | rfl
  · exact absurd (Char.le_trans hlow hdigit.2) (by decide)
  · exact absurd (Char.le_trans hlow hdigit.2) (by decide)
  · exact absurd hdigit.2 (by decide)

/-- The shape of names and reserved words. -/
def IsWord (text : List Char) : Prop :=
  ∃ c cs, text = c :: cs ∧ startsName c = true ∧ cs.all continuesName = true

theorem lexes_word {name : String} (hword : IsWord name.toList)
    (hrest : ∀ c ∈ rest.head?, continuesName c = false)
    (heof : (word name).kind ≠ .eof) : Lexes name.toList [word name] rest := by
  obtain ⟨c, cs, htext, hc, hcs⟩ := hword
  have hname : continuesName c = true := by
    unfold continuesName
    rw [hc, Bool.true_or]
  obtain ⟨-, hdot, hquote, hback⟩ := ne_of_continuesName hname
  obtain ⟨htake, hdrop⟩ := Numeral.takeWhile_append_of_all _ hcs hrest
  have hof : String.ofList (c :: cs) = name := by
    rw [← htext, String.ofList_toList]
  rw [htext]
  refine lexes_of_read heof
    (fun cursor hcursor => skip_of_continuesName hcursor hname) ?_
  intro cursor hcursor
  have hread : cursor.read = cursor.emitWord (c :: cs) rest := by
    rw [read_eq hcursor fun d => pairKind?_of_continuesName (Or.inl hname),
      if_neg hdot, if_neg (not_or.mpr ⟨hquote, hback⟩),
      if_neg (by simp [isDigit_of_startsName hc]), if_pos hc]
    change cursor.emitWord (c :: (cs ++ rest).takeWhile continuesName)
      ((cs ++ rest).dropWhile continuesName) = _
    rw [htake, hdrop]
  rw [hread]
  unfold emitWord
  refine ⟨?_, rfl⟩
  simp only [emit, Token.lexeme, hof]
  rfl

/-! ### Numbers -/

theorem continuesName_of_isDigit (hc : isDigit c = true) :
    continuesName c = true := by
  unfold continuesName
  rw [hc, Bool.or_true]

/-- A number is read from its first digit on. -/
theorem read_digits {cs : List Char} (hcursor : cursor.rest = c :: (cs ++ rest))
    (hc : isDigit c = true) (hcs : cs.all isDigit = true)
    (hrest : ∀ c ∈ rest.head?, isDigit c = false) :
    cursor.read = cursor.emitNumber (c :: cs) rest := by
  have hname := continuesName_of_isDigit hc
  obtain ⟨-, hdot, hquote, hback⟩ := ne_of_continuesName hname
  obtain ⟨htake, hdrop⟩ := Numeral.takeWhile_append_of_all _ hcs hrest
  rw [read_eq hcursor fun d => pairKind?_of_continuesName (Or.inl hname),
    if_neg hdot, if_neg (not_or.mpr ⟨hquote, hback⟩), if_pos hc, htake, hdrop]

theorem lexes_int {number : String} {cs : List Char}
    (htext : number.toList = c :: cs) (hc : isDigit c = true)
    (hcs : cs.all isDigit = true) (hrest : Clear rest) :
    Lexes number.toList [{ kind := .int, text := number }] rest := by
  have hof : String.ofList (c :: cs) = number := by
    rw [← htext, String.ofList_toList]
  rw [htext]
  refine lexes_of_read (by simp) (fun cursor hcursor =>
    skip_of_continuesName hcursor (continuesName_of_isDigit hc)) ?_
  intro cursor hcursor
  rw [read_digits hcursor hc hcs hrest.digit]
  have hemit : cursor.emitNumber (c :: cs) rest =
      cursor.emit .int (c :: cs) rest := by
    unfold emitNumber
    split
    · next rest' =>
      rw [if_neg (by simp [hrest.point rest' rfl])]
    · rfl
  rw [hemit]
  exact ⟨by simp [emit, Token.lexeme, hof], rfl⟩

/-- Digits, a point and more digits. -/
theorem lexes_float {number : String} {whole fraction : List Char}
    (htext : number.toList = whole ++ '.' :: fraction)
    (hwhole : whole.all isDigit = true)
    (hfraction : fraction.all isDigit = true) (hne : fraction ≠ [])
    (hrest : ∀ c ∈ rest.head?, isDigit c = false) :
    Lexes number.toList [{ kind := .float, text := number }] rest := by
  have hof : String.ofList (whole ++ '.' :: fraction) = number := by
    rw [← htext, String.ofList_toList]
  obtain ⟨htake, hdrop⟩ := Numeral.takeWhile_append_of_all _ hfraction hrest
  obtain ⟨d, ds, rfl⟩ := List.exists_cons_of_ne_nil hne
  have hd : isDigit d = true := by
    rw [List.all_cons, Bool.and_eq_true] at hfraction
    exact hfraction.1
  have hnext : digitNext (d :: (ds ++ rest)) = true := hd
  have hpoint := (ne_of_continuesName (continuesName_of_isDigit hd)).2.1
  rw [List.cons_append] at htake hdrop
  rw [htext]
  cases whole with
  | nil =>
    refine lexes_of_read (by simp)
      (fun cursor hcursor => (read_dot hcursor).1) ?_
    intro cursor hcursor
    have hemit : cursor.emitDot (d :: (ds ++ rest)) =
        cursor.emit .float ('.' :: d :: ds) rest := by
      unfold emitDot
      split
      · next heq => exact absurd (List.cons.inj heq).1 hpoint
      · next heq => exact absurd (List.cons.inj heq).1 hpoint
      · rw [if_pos hnext, htake, hdrop]
    rw [(read_dot hcursor).2.trans hemit]
    exact ⟨by simpa [emit, Token.lexeme] using hof, rfl⟩
  | cons c whole =>
    rw [List.all_cons, Bool.and_eq_true] at hwhole
    refine lexes_of_read (by simp) (fun cursor hcursor =>
      skip_of_continuesName hcursor (continuesName_of_isDigit hwhole.1)) ?_
    intro cursor hcursor
    rw [List.append_assoc, List.cons_append] at hcursor
    have hread : cursor.read = cursor.emitNumber (c :: whole)
        ('.' :: d :: (ds ++ rest)) :=
      read_digits hcursor hwhole.1 hwhole.2 (by
        rintro c' hc'
        obtain rfl := Option.some.inj hc'
        rfl)
    have hemit : cursor.emitNumber (c :: whole) ('.' :: d :: (ds ++ rest)) =
        cursor.emit .float (c :: whole ++ '.' :: d :: ds) rest := by
      change (if digitNext (d :: (ds ++ rest)) then _ else _) = _
      rw [if_pos hnext, htake, hdrop]
    rw [hread.trans hemit]
    exact ⟨by simpa [emit, Token.lexeme] using hof, rfl⟩

/-! ### Strings -/

/-- A character other than a line break moves the cursor along its line. -/
theorem past_eq_along (cursor : Cursor) (hc : c ≠ '\n') (rest : List Char) :
    cursor.past c rest = cursor.along 1 rest := if_neg hc

theorem along_along (cursor : Cursor) (count count' : Nat) (text rest : List Char) :
    (cursor.along count text).along count' rest = cursor.along (count + count') rest := by
  simp only [along, Nat.add_assoc]

/-- A character of a string is written as itself or behind a backslash, and never as a
line break. -/
theorem escape_cases (c : Char) :
    (∃ e, Syntax.escape c = ['\\', e] ∧ unescape e = c ∧ e ≠ '\n') ∨
      Syntax.escape c = [c] ∧ c ≠ '\n' ∧ c ≠ '"' ∧ c ≠ '\\' := by
  unfold Syntax.escape
  split
  · exact Or.inl ⟨_, rfl, rfl, by decide⟩
  · exact Or.inl ⟨_, rfl, rfl, by decide⟩
  · exact Or.inl ⟨_, rfl, rfl, by decide⟩
  · exact Or.inl ⟨_, rfl, rfl, by decide⟩
  · exact Or.inl ⟨_, rfl, rfl, by decide⟩
  · next hquote hback hline _ _ => exact Or.inr ⟨rfl, hline, hquote, hback⟩

/-- The reading of a string undoes its escapes and stays in the line. -/
theorem readString_escape (value read : List Char) (cursor : Cursor) :
    readString '"' (value.flatMap Syntax.escape ++ '"' :: rest) read cursor =
      { contents := read.reverse ++ value, closed := true,
        after := cursor.along ((value.flatMap Syntax.escape).length + 1) rest } := by
  induction value generalizing read cursor with
  | nil =>
    rw [List.flatMap_nil, List.nil_append, readString.eq_def]
    dsimp only
    rw [if_neg (by decide), if_pos rfl, List.append_nil, past_eq_along cursor (by decide)]
    rfl
  | cons c value ih =>
    rw [List.flatMap_cons, List.append_assoc, readString.eq_def]
    rcases escape_cases c with ⟨e, heq, he, hline⟩ | ⟨heq, hline, hquote, hback⟩
    · have hwidth : (['\\', e] ++ value.flatMap Syntax.escape).length + 1 =
          1 + (1 + ((value.flatMap Syntax.escape).length + 1)) := by
        rw [List.length_append, List.length_cons, List.length_singleton, Nat.add_assoc,
          Nat.add_assoc]
      rw [heq, hwidth, List.cons_append, List.cons_append, List.nil_append]
      dsimp only
      rw [if_neg (by decide), if_neg (by decide), if_pos rfl, he, ih,
        past_eq_along cursor (by decide), past_eq_along _ hline, along_along, along_along,
        List.reverse_cons, List.append_assoc, List.singleton_append]
    · have hwidth : ([c] ++ value.flatMap Syntax.escape).length + 1 =
          1 + ((value.flatMap Syntax.escape).length + 1) := by
        rw [List.length_append, List.length_singleton, Nat.add_assoc]
      rw [heq, hwidth, List.cons_append, List.nil_append]
      dsimp only
      rw [if_neg (by simp [hline]), if_neg hquote, if_neg hback, ih,
        past_eq_along cursor hline, along_along, List.reverse_cons, List.append_assoc,
        List.singleton_append]

theorem toList_quote (value : String) : (Syntax.quote value).toList =
    '"' :: (value.toList.flatMap Syntax.escape ++ ['"']) := by
  simp [Syntax.quote]

/-- A literal is one token, and what follows in the text does not matter. -/
theorem read_quote (value : String) (hcursor : cursor.rest = (Syntax.quote value).toList ++ rest) :
    cursor.skip = cursor ∧ cursor.read =
      ({ kind := .str, text := value, line := cursor.line, column := cursor.column,
         endColumn := cursor.column + (Syntax.quote value).length },
       cursor.along (Syntax.quote value).length rest) := by
  have hwidth : (Syntax.quote value).length =
      1 + ((value.toList.flatMap Syntax.escape).length + 1) := by
    rw [← String.length_toList, toList_quote, List.length_cons, List.length_append,
      List.length_singleton, Nat.add_comm]
  rw [toList_quote, List.cons_append, List.append_assoc, List.singleton_append] at hcursor
  refine ⟨skip_eq hcursor rfl (by simp), ?_⟩
  rw [read_eq hcursor fun d => by simp [pairKind?], if_neg (by decide), if_pos (by simp),
    emitString, past_eq_along cursor (by decide), readString_escape, along_along, hwidth]
  simp [along]

theorem lexes_quote (value : String) :
    Lexes (Syntax.quote value).toList [{ kind := .str, text := value }] rest := by
  refine lexes_of_read (by simp) (fun cursor hcursor => (read_quote value hcursor).1) ?_
  intro cursor hcursor
  rw [(read_quote value hcursor).2]
  exact ⟨rfl, rfl⟩

/-- Quoting and reading are inverse.  Where a literal stands in front of any text, the
next token is the string that was quoted.  It stands in one line and is as wide as the
literal, and the cursor is in front of the text then. -/
theorem next_quote (value : String) (rest : List Char) (line column : Nat) :
    let width := (Syntax.quote value).length
    Cursor.next { rest := (Syntax.quote value).toList ++ rest, line, column } =
      ({ kind := .str, text := value, line, column, endColumn := column + width },
       { rest, line, column := column + width }) := by
  intro width
  let cursor : Cursor := { rest := (Syntax.quote value).toList ++ rest, line, column }
  have hcursor : cursor.rest = (Syntax.quote value).toList ++ rest := rfl
  obtain ⟨hskip, hread⟩ := read_quote value hcursor
  calc cursor.next
    _ = cursor.read := congrArg read hskip
    _ = _ := hread

end Script.Cursor
