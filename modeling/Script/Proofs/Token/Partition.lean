import Script.Token.Lexer

/-!
# Where tokens stand in a text

A source text is cut into stretches, each of which is a gap and a token, and what is
left at its end is a gap too.  Nothing of the text is lost and nothing is used twice.
The line and the column of a token are counted from the text in front of it.
-/

namespace Script

/-! ### Positions -/

/-- The line behind a text. -/
def lineAfter (before : List Char) : Nat := 1 + before.count '\n'

/-- The column behind a text, which starts again behind every line break. -/
def columnAfter (before : List Char) : Nat :=
  1 + (before.reverse.takeWhile (· ≠ '\n')).length

section

variable {before text : List Char}

theorem lineAfter_break (before : List Char) :
    lineAfter (before ++ ['\n']) = lineAfter before + 1 := by
  simp [lineAfter, Nat.add_assoc]

theorem columnAfter_break (before : List Char) : columnAfter (before ++ ['\n']) = 1 := by
  simp [columnAfter]

theorem lineAfter_append (htext : '\n' ∉ text) :
    lineAfter (before ++ text) = lineAfter before := by
  simp [lineAfter, List.count_eq_zero_of_not_mem htext]

theorem lineAfter_le (before text : List Char) :
    lineAfter before ≤ lineAfter (before ++ text) := by
  simp [lineAfter]

/-- A text that does not lead to another line is in one line. -/
theorem not_mem_of_lineAfter_eq (h : lineAfter (before ++ text) = lineAfter before) :
    '\n' ∉ text := by
  simpa [lineAfter, List.count_eq_zero] using h

/-- A text without line breaks is passed over as a whole. -/
theorem takeWhile_ne_of_not_mem (htext : '\n' ∉ text) (more : List Char) :
    (text ++ more).takeWhile (· ≠ '\n') = text ++ more.takeWhile (· ≠ '\n') := by
  refine List.takeWhile_append_of_pos fun c hc => ?_
  rw [decide_eq_true_eq]
  rintro rfl
  exact htext hc

theorem columnAfter_append (htext : '\n' ∉ text) :
    columnAfter (before ++ text) = columnAfter before + text.length := by
  unfold columnAfter
  rw [List.reverse_append, takeWhile_ne_of_not_mem (mt List.mem_reverse.mp htext),
    List.length_append, List.length_reverse]
  omega

end

/-! ### Gaps -/

/-- Blanks and comments in front of `rest`.  A line comment ends in front of a line
break, a block comment with the first `*/` behind its start, and either of them also
with the text. -/
inductive Blanks (rest : List Char) : List Char → Prop where
  | none : Blanks rest []
  | blank {c : Char} {text : List Char} (hc : Cursor.isBlank c = true)
      (h : Blanks rest text) : Blanks rest (c :: text)
  | line {comment text : List Char} (hline : '\n' ∉ comment)
      (hend : ∀ c ∈ (text ++ rest).head?, c = '\n') (h : Blanks rest text) :
      Blanks rest ('/' :: '/' :: (comment ++ text))
  | block {comment text : List Char} (hopen : ¬ ['*', '/'] <:+: comment ++ ['*'])
      (h : Blanks rest text) :
      Blanks rest ('/' :: '*' :: (comment ++ '*' :: '/' :: text))
  | unclosed {comment : List Char} (hopen : ¬ ['*', '/'] <:+: comment)
      (hrest : rest = []) : Blanks rest ('/' :: '*' :: comment)

/-! ### Tokens -/

/-- What is written between the quotes of a string, and the contents that it stands
for. -/
inductive Written (quote : Char) : List Char → List Char → Prop where
  | nothing : Written quote [] []
  | plain {c : Char} {body contents : List Char} (hquote : c ≠ quote) (hescape : c ≠ '\\')
      (hline : quote = '"' → c ≠ '\n') (h : Written quote body contents) :
      Written quote (c :: body) (c :: contents)
  | escaped {body contents : List Char} (e : Char) (h : Written quote body contents) :
      Written quote ('\\' :: e :: body) (Cursor.unescape e :: contents)

/-- What keeps a string from being closed: the end of its line, if it is in double
quotes, or the end of the text, perhaps behind a backslash. -/
def BreaksOff (quote : Char) (stop rest : List Char) : Prop :=
  quote = '"' ∧ stop = ['\n'] ∨ (stop = [] ∨ stop = ['\\']) ∧ rest = []

/-- The token is written as `text`, in front of `rest`. -/
def Token.WrittenAs (t : Token) (text rest : List Char) : Prop :=
  match t.kind with
  | .eof => False
  | .str => ∃ quote body, (quote = '"' ∨ quote = '\x60') ∧
      text = quote :: (body ++ [quote]) ∧ Written quote body t.text.toList
  | .unterminatedString => ∃ quote body stop, (quote = '"' ∨ quote = '\x60') ∧
      text = quote :: (body ++ stop) ∧ Written quote body t.text.toList ∧
      BreaksOff quote stop rest
  | _ => text = t.text.toList ∧ '\n' ∉ text ∧ t.endColumn = t.column + text.length

/-- The token is not empty, and it does not end behind a text. -/
structure Token.EndsBy (t : Token) (before : List Char) : Prop where
  column : t.column < t.endColumn
  line : t.line ≤ lineAfter before
  endColumn : t.line = lineAfter before → t.endColumn ≤ columnAfter before

/-- A gap, the token behind it, and the text of the token. -/
structure Stretch where
  gap : List Char
  token : Token
  text : List Char

namespace Stretch

/-- All the text of a stretch. -/
def source (s : Stretch) : List Char := s.gap ++ s.text

/-- The stretch stands between `before` and `rest`. -/
structure Stands (s : Stretch) (before rest : List Char) : Prop where
  gap : Blanks (s.text ++ rest) s.gap
  line : s.token.line = lineAfter (before ++ s.gap)
  column : s.token.column = columnAfter (before ++ s.gap)
  text : s.text ≠ []
  written : s.token.WrittenAs s.text rest
  ends : s.token.EndsBy (before ++ s.source)

/-- The stretches stand one behind another between `before` and the last gap. -/
def Follow (before : List Char) : List Stretch → List Char → Prop
  | [], last => Blanks [] last
  | s :: stretches, last =>
    s.Stands before (stretches.flatMap source ++ last) ∧
      Follow (before ++ s.source) stretches last

end Stretch

namespace Cursor

variable {cursor : Cursor} {before text rest : List Char} {c : Char}

/-- The cursor has the position behind a text. -/
structure Behind (cursor : Cursor) (before : List Char) : Prop where
  line : cursor.line = lineAfter before
  column : cursor.column = columnAfter before

theorem Behind.past (h : cursor.Behind before) (c : Char) (rest : List Char) :
    (cursor.past c rest).Behind (before ++ [c]) := by
  unfold Cursor.past
  split
  · next hbreak =>
    subst hbreak
    exact ⟨by rw [lineAfter_break, h.line], (columnAfter_break before).symm⟩
  · next hbreak =>
    have htext : '\n' ∉ [c] := by simpa using Ne.symm hbreak
    exact ⟨by rw [lineAfter_append htext, h.line],
      by rw [columnAfter_append htext, h.column, List.length_singleton]⟩

theorem Behind.along (h : cursor.Behind before) (text : List Char) (htext : '\n' ∉ text)
    (rest : List Char) : (cursor.along text.length rest).Behind (before ++ text) :=
  ⟨by rw [lineAfter_append htext]; exact h.line,
    by rw [columnAfter_append htext, ← h.column]; rfl⟩

/-! ### Skipping gaps -/

/-- What is skipped, if a comment may have begun in front of it. -/
def Skipped (rest : List Char) : Gap → List Char → Prop
  | .blank, text => Blanks rest text
  | .lineComment, text => ∃ comment after, text = comment ++ after ∧ '\n' ∉ comment ∧
      (∀ c ∈ (after ++ rest).head?, c = '\n') ∧ Blanks rest after
  | .blockComment, text =>
    (∃ comment after, text = comment ++ '*' :: '/' :: after ∧
      ¬ ['*', '/'] <:+: comment ++ ['*'] ∧ Blanks rest after) ∨
      ¬ ['*', '/'] <:+: text ∧ rest = []

/-- What the skipping of a text comes to. -/
structure Skips (gap : Gap) (before text : List Char) (cursor : Cursor) : Prop where
  skipped : ∃ front, text = front ++ cursor.rest ∧ cursor.Behind (before ++ front) ∧
    Skipped cursor.rest gap front
  stops : ∀ c ∈ cursor.rest.head?, isBlank c = false

/-- One more character in front of what is skipped. -/
theorem Skips.cons {gap gap' : Gap} (front : List Char)
    (h : Skips gap (before ++ front) text cursor)
    (hgap : ∀ skipped, text = skipped ++ cursor.rest → Skipped cursor.rest gap skipped →
      Skipped cursor.rest gap' (front ++ skipped)) :
    Skips gap' before (front ++ text) cursor := by
  obtain ⟨⟨skipped, htext, hbehind, hskipped⟩, hstops⟩ := h
  refine ⟨⟨front ++ skipped, ?_, ?_, hgap skipped htext hskipped⟩, hstops⟩
  · rw [htext, List.append_assoc]
  · rwa [List.append_assoc] at hbehind

/-- Two characters of one line. -/
theorem behind_pair {d : Char} {line column : Nat}
    (h : (Cursor.mk (c :: d :: rest) line column).Behind before) (hc : c ≠ '\n')
    (hd : d ≠ '\n') :
    (Cursor.mk rest line (column + 2)).Behind (before ++ [c, d]) :=
  h.along [c, d] (by simp [Ne.symm hc, Ne.symm hd]) rest

theorem behind_break {line column : Nat}
    (h : (Cursor.mk ('\n' :: rest) line column).Behind before) :
    (Cursor.mk rest (line + 1) 1).Behind (before ++ ['\n']) :=
  h.past '\n' rest

theorem behind_char {line column : Nat}
    (h : (Cursor.mk (c :: rest) line column).Behind before) (hc : c ≠ '\n') :
    (Cursor.mk rest line (column + 1)).Behind (before ++ [c]) :=
  h.along [c] (by simpa using Ne.symm hc) rest

/-- A comment is closed at its first character or behind it. -/
theorem closes_cons {l : List Char} :
    ['*', '/'] <:+: c :: l ↔ c = '*' ∧ l.head? = some '/' ∨ ['*', '/'] <:+: l := by
  rw [List.infix_cons_iff, List.cons_prefix_cons, eq_comm]
  cases l with
  | nil => simp
  | cons d l => simp [List.cons_prefix_cons, eq_comm]

/-- A character that does not close a block comment belongs to it. -/
theorem skipped_blockComment_cons {skipped : List Char}
    (hclose : ∀ after, c = '*' → skipped ++ rest = '/' :: after → False)
    (h : Skipped rest .blockComment skipped) :
    Skipped rest .blockComment (c :: skipped) := by
  rcases h with ⟨comment, after, rfl, hopen, hafter⟩ | ⟨hopen, rfl⟩
  · refine Or.inl ⟨c :: comment, after, rfl, fun hcloses => ?_, hafter⟩
    rcases closes_cons.mp hcloses with ⟨hc, hhead⟩ | hcloses
    · cases comment with
      | nil => cases hhead
      | cons d comment =>
        obtain rfl := Option.some.inj hhead
        exact hclose _ hc rfl
    · exact hopen hcloses
  · refine Or.inr ⟨fun hcloses => ?_, rfl⟩
    rcases closes_cons.mp hcloses with ⟨hc, hhead⟩ | hcloses
    · cases skipped with
      | nil => cases hhead
      | cons d skipped =>
        obtain rfl := Option.some.inj hhead
        exact hclose _ hc rfl
    · exact hopen hcloses

theorem skips_skipGap (gap : Gap) (text : List Char) (line column : Nat)
    (before : List Char) (hbefore : (Cursor.mk text line column).Behind before) :
    Skips gap before text (skipGap gap text line column) := by
  fun_induction skipGap gap text line column generalizing before with
  | case1 rest line column ih =>
    have hpair := behind_pair hbefore (by decide) (by decide)
    refine (ih _ hpair).cons ['/', '/'] fun skipped _ hskipped => ?_
    obtain ⟨comment, after, rfl, hline, hend, hafter⟩ := hskipped
    have hskipped : Blanks _ ('/' :: '/' :: (comment ++ after)) := .line hline hend hafter
    exact hskipped
  | case2 rest line column ih =>
    have hpair := behind_pair hbefore (by decide) (by decide)
    refine (ih _ hpair).cons ['/', '*'] fun skipped _ hskipped => ?_
    rcases hskipped with ⟨comment, after, rfl, hopen, hafter⟩ | ⟨hopen, hrest⟩
    · exact .block hopen hafter
    · exact .unclosed hopen hrest
  | case3 line column rest _ _ ih =>
    exact (ih _ (behind_break hbefore)).cons ['\n'] fun _ _ hskipped =>
      .blank rfl hskipped
  | case4 c rest line column _ _ hbreak hblank ih =>
    exact (ih _ (behind_char hbefore hbreak)).cons [c] fun _ _ hskipped =>
      .blank hblank hskipped
  | case5 c rest line column _ _ _ hblank =>
    refine ⟨⟨[], rfl, by rwa [List.append_nil], .none⟩, fun d hd => ?_⟩
    obtain rfl := Option.some.inj hd
    exact Bool.eq_false_iff.mpr hblank
  | case6 line column rest ih =>
    refine (ih _ (behind_break hbefore)).cons ['\n'] fun skipped _ hskipped => ?_
    exact ⟨[], '\n' :: skipped, rfl, by simp, by simp, .blank rfl hskipped⟩
  | case7 c rest line column hbreak ih =>
    refine (ih _ (behind_char hbefore hbreak)).cons [c] fun _ _ hskipped => ?_
    obtain ⟨comment, after, rfl, hline, hend, hafter⟩ := hskipped
    exact ⟨c :: comment, after, rfl, by simp [Ne.symm hbreak, hline], hend, hafter⟩
  | case8 rest line column ih =>
    have hpair := behind_pair hbefore (by decide) (by decide)
    refine (ih _ hpair).cons ['*', '/'] fun skipped _ hskipped => ?_
    exact Or.inl ⟨[], skipped, rfl, by simp [closes_cons], hskipped⟩
  | case9 line column rest hclose ih =>
    refine (ih _ (behind_break hbefore)).cons ['\n'] fun _ htext hskipped => ?_
    exact skipped_blockComment_cons (htext ▸ hclose) hskipped
  | case10 c rest line column hclose hbreak ih =>
    refine (ih _ (behind_char hbefore hbreak)).cons [c] fun _ htext hskipped => ?_
    exact skipped_blockComment_cons (htext ▸ hclose) hskipped
  | case11 gap line column =>
    refine ⟨⟨[], rfl, by rwa [List.append_nil], ?_⟩, by simp⟩
    cases gap with
    | blank => exact .none
    | lineComment => exact ⟨[], [], rfl, by simp, by simp, .none⟩
    | blockComment => exact Or.inr ⟨by simp, rfl⟩

/-! ### Strings -/

/-- What the reading of a string from `text` on comes to: what is written up to `stop`,
which is the closing quote if there is one. -/
structure ReadsBody (quote : Char) (before text read : List Char) (b : StringBody) :
    Prop where
  body : ∃ body stop contents, Written quote body contents ∧
    b.contents = read.reverse ++ contents ∧ text = body ++ (stop ++ b.after.rest) ∧
    b.after.Behind (before ++ (body ++ stop)) ∧
    (b.closed = true → stop = [quote]) ∧
    (b.closed = false → BreaksOff quote stop b.after.rest)

/-- The body of a string behind some more of it. -/
theorem ReadsBody.cons {quote : Char} {read read' : List Char} {b : StringBody}
    (front : List Char) (h : ReadsBody quote (before ++ front) text read' b)
    (hwritten : ∀ body contents, Written quote body contents → ∃ contents',
      Written quote (front ++ body) contents' ∧
      read'.reverse ++ contents = read.reverse ++ contents') :
    ReadsBody quote before (front ++ text) read b := by
  obtain ⟨body, stop, contents, hbody, hcontents, rfl, hbehind, hclosed, hopen⟩ := h
  obtain ⟨contents', hbody', hcontents'⟩ := hwritten body contents hbody
  refine ⟨front ++ body, stop, contents', hbody', hcontents.trans hcontents', ?_, ?_,
    hclosed, hopen⟩
  · rw [List.append_assoc]
  · rwa [List.append_assoc, ← List.append_assoc front] at hbehind

theorem readsBody_readString (quote : Char) (text read : List Char) (cursor : Cursor)
    (before : List Char) (hbefore : cursor.Behind before) :
    ReadsBody quote before text read (readString quote text read cursor) := by
  fun_induction readString quote text read cursor generalizing before with
  | case1 read cursor =>
    refine ⟨[], [], [], .nothing, by simp, rfl, ?_, by simp,
      fun _ => Or.inr ⟨Or.inl rfl, rfl⟩⟩
    exact ⟨by simpa using hbefore.line, by simpa using hbefore.column⟩
  | case2 read cursor c rest hline =>
    obtain ⟨rfl, rfl⟩ := hline
    exact ⟨[], ['\n'], [], .nothing, by simp, by simp, hbefore.past '\n' _, by simp,
      fun _ => Or.inl ⟨rfl, rfl⟩⟩
  | case3 read cursor rest hline =>
    exact ⟨[], [quote], [], .nothing, by simp, by simp, hbefore.past quote _,
      fun _ => rfl, by simp⟩
  | case4 read cursor hline hquote =>
    exact ⟨[], ['\\'], [], .nothing, by simp, by simp, hbefore.past '\\' [], by simp,
      fun _ => Or.inr ⟨Or.inr rfl, rfl⟩⟩
  | case5 read cursor e rest hline hquote ih =>
    have hbehind := (hbefore.past '\\' (e :: rest)).past e rest
    rw [List.append_assoc] at hbehind
    refine (ih _ hbehind).cons ['\\', e] fun body contents hbody => ?_
    exact ⟨unescape e :: contents, .escaped e hbody, by simp⟩
  | case6 c rest read cursor hline hquote hescape ih =>
    refine (ih _ (hbefore.past c rest)).cons [c] fun body contents hbody => ?_
    exact ⟨c :: contents, .plain hquote hescape (fun hdouble hc => hline ⟨hc, hdouble⟩) hbody,
      by simp⟩

/-! ### Tokens -/

/-- What the reading of a token behind `before` comes to. -/
structure Takes (cursor : Cursor) (before : List Char) (read : Token × Cursor) : Prop where
  line : read.1.line = cursor.line
  column : read.1.column = cursor.column
  text : ∃ text, cursor.rest = text ++ read.2.rest ∧ text ≠ [] ∧
    read.2.Behind (before ++ text) ∧ read.1.WrittenAs text read.2.rest ∧
    read.1.EndsBy (before ++ text)

/-- The kinds of token that carry their text as it is written. -/
def isVerbatim (kind : Token.Kind) : Bool :=
  kind ≠ .eof && kind ≠ .str && kind ≠ .unterminatedString

theorem takes_emit {kind : Token.Kind} (hbefore : cursor.Behind before)
    (hcursor : cursor.rest = text ++ rest) (hkind : isVerbatim kind = true)
    (hne : text ≠ []) (htext : '\n' ∉ text) :
    Takes cursor before (cursor.emit kind text rest) := by
  have hafter := hbefore.along text htext rest
  refine ⟨rfl, rfl, text, hcursor, hne, hafter, ?_, ?_⟩
  · unfold Token.WrittenAs
    cases kind with
    | eof | str | unterminatedString => cases hkind
    | _ => exact ⟨String.toList_ofList.symm, htext, rfl⟩
  · have hlength := List.length_pos_iff.mpr hne
    exact ⟨Nat.lt_add_of_pos_right hlength, Nat.le_of_eq hafter.line,
      fun _ => Nat.le_of_eq hafter.column⟩

theorem pairKind?_verbatim {d : Char} {kind : Token.Kind}
    (h : pairKind? c d = some kind) : isVerbatim kind = true ∧ '\n' ∉ [c, d] := by
  unfold pairKind? at h
  split at h
  all_goals first
    | (obtain rfl := Option.some.inj h
       exact ⟨rfl, by decide⟩)
    | cases h

theorem singleKind?_verbatim (c : Char) :
    isVerbatim ((singleKind? c).getD .illegal) = true := by
  unfold singleKind?
  split <;> rfl

theorem ofWord?_verbatim (word : String) :
    isVerbatim ((Token.Kind.ofWord? word).getD .ident) = true := by
  have hall : ∀ p ∈ Token.Kind.reserved, isVerbatim p.2 = true := by decide
  cases hword : Token.Kind.ofWord? word with
  | none => rfl
  | some kind =>
    obtain ⟨_, _, heq, -⟩ := List.lookup_eq_some_iff.mp hword
    exact hall (word, kind) (by rw [heq]; simp)

/-- No line breaks among characters of a kind that a line break is not. -/
theorem not_mem_takeWhile {keep : Char → Bool} (hkeep : keep '\n' = false)
    (text : List Char) : '\n' ∉ text.takeWhile keep := by
  intro hmem
  have htrue := List.all_eq_true.mp List.all_takeWhile '\n' hmem
  exact absurd (hkeep.symm.trans htrue) Bool.false_ne_true

theorem takes_emitDot (hbefore : cursor.Behind before) (hcursor : cursor.rest = '.' :: rest) :
    Takes cursor before (cursor.emitDot rest) := by
  unfold emitDot
  split
  · exact takes_emit hbefore hcursor rfl (by simp) (by decide)
  · exact takes_emit hbefore hcursor rfl (by simp) (by decide)
  · split
    · refine takes_emit hbefore ?_ rfl (by simp) ?_
      · rw [hcursor, List.cons_append, List.takeWhile_append_dropWhile]
      · simpa using not_mem_takeWhile rfl rest
    · exact takes_emit hbefore hcursor rfl (by simp) (by decide)

theorem takes_emitNumber {whole : List Char} (hbefore : cursor.Behind before)
    (hcursor : cursor.rest = whole ++ rest) (hne : whole ≠ []) (hwhole : '\n' ∉ whole) :
    Takes cursor before (cursor.emitNumber whole rest) := by
  unfold emitNumber
  split
  · next rest' =>
    split
    · refine takes_emit hbefore ?_ rfl (by simp) ?_
      · rw [hcursor, List.append_assoc, List.cons_append, List.takeWhile_append_dropWhile]
      · simpa [hwhole] using not_mem_takeWhile rfl rest'
    · exact takes_emit hbefore hcursor rfl hne hwhole
  · exact takes_emit hbefore hcursor rfl hne hwhole

/-- A closed string in one line ends with its text, and any other is given one column. -/
theorem endsBy_emitString {t : Token} {closed : Bool} {after : Cursor}
    (hbefore : cursor.Behind before) (hafter : after.Behind (before ++ text))
    (hne : text ≠ []) (hline : t.line = cursor.line) (hcolumn : t.column = cursor.column)
    (hend : t.endColumn = if closed && after.line == cursor.line then after.column
      else cursor.column + 1) : t.EndsBy (before ++ text) := by
  have hlength := List.length_pos_iff.mpr hne
  have hgrows : after.line = cursor.line → cursor.column + text.length = after.column := by
    intro hsame
    rw [hafter.line, hbefore.line] at hsame
    rw [hafter.column, hbefore.column,
      columnAfter_append (not_mem_of_lineAfter_eq hsame)]
  have hle := lineAfter_le before text
  rw [← hbefore.line, ← hafter.line] at hle
  refine ⟨?_, ?_, fun hsame => ?_⟩
  · rw [hend, hcolumn]
    split
    · next hone =>
      have hsame : after.line = cursor.line := by simpa using (Bool.and_eq_true_iff.mp hone).2
      have := hgrows hsame
      omega
    · omega
  · rwa [hline, ← hafter.line]
  · rw [hline, ← hafter.line] at hsame
    have := hgrows hsame.symm
    rw [hend, ← hafter.column]
    split <;> omega

theorem takes_emitString {quote : Char} (hbefore : cursor.Behind before)
    (hcursor : cursor.rest = quote :: rest) (hquote : quote = '"' ∨ quote = '\x60') :
    Takes cursor before (cursor.emitString quote rest) := by
  have hbody := readsBody_readString quote rest [] _ _ (hbefore.past quote rest)
  unfold emitString
  dsimp only
  generalize readString quote rest [] (cursor.past quote rest) = b at hbody ⊢
  obtain ⟨body, stop, contents, hwritten, hcontents, hrest, hbehind, hclosed, hopen⟩ := hbody
  rw [List.reverse_nil, List.nil_append] at hcontents
  rw [List.append_assoc, List.singleton_append] at hbehind
  refine ⟨rfl, rfl, quote :: (body ++ stop), ?_, by simp, hbehind, ?_,
    endsBy_emitString hbefore hbehind (by simp) rfl rfl rfl⟩
  · rw [hcursor, hrest, List.cons_append, List.append_assoc]
  · have htext : Written quote body (String.ofList b.contents).toList := by
      rwa [String.toList_ofList, hcontents]
    unfold Token.WrittenAs
    cases hend : b.closed with
    | true =>
      rw [hclosed hend]
      exact ⟨quote, body, hquote, rfl, htext⟩
    | false => exact ⟨quote, body, stop, hquote, rfl, htext, hopen hend⟩

theorem takes_read (hbefore : cursor.Behind before) (hcursor : cursor.rest = c :: rest)
    (hblank : isBlank c = false) : Takes cursor before cursor.read := by
  have hbreak : c ≠ '\n' := by
    rintro rfl
    cases hblank
  unfold read
  rw [hcursor]
  dsimp only
  split
  · next kind hkind =>
    obtain ⟨d, hd, hpair⟩ := Option.bind_eq_some_iff.mp hkind
    obtain ⟨rest', rfl⟩ := List.head?_eq_some_iff.mp hd
    obtain ⟨hverbatim, htext⟩ := pairKind?_verbatim hpair
    exact takes_emit hbefore hcursor hverbatim (by simp) htext
  · split
    · next hdot =>
      subst hdot
      exact takes_emitDot hbefore hcursor
    · split
      · next hquote => exact takes_emitString hbefore hcursor hquote
      · split
        · refine takes_emitNumber hbefore ?_ (by simp) ?_
          · rw [hcursor, List.cons_append, List.takeWhile_append_dropWhile]
          · simpa [Ne.symm hbreak] using not_mem_takeWhile rfl rest
        · split
          · refine takes_emit hbefore ?_ (ofWord?_verbatim _) (by simp) ?_
            · rw [hcursor, List.cons_append, List.takeWhile_append_dropWhile]
            · simpa [Ne.symm hbreak] using not_mem_takeWhile rfl rest
          · exact takes_emit hbefore hcursor (singleKind?_verbatim c) (by simp)
              (by simpa using Ne.symm hbreak)

/-! ### All tokens -/

/-- The token that comes when the cursor has been asked for `n` tokens before. -/
def call (cursor : Cursor) : Nat → Token
  | 0 => cursor.next.1
  | n + 1 => cursor.next.2.call n

/-- What is left of a text behind `before`: stretches, a last gap and the end of input. -/
structure Divides (cursor : Cursor) (before : List Char) (stretches : List Stretch)
    (gap : List Char) (last : Token) : Prop where
  whole : cursor.rest = stretches.flatMap Stretch.source ++ gap
  follow : Stretch.Follow before stretches gap
  length : stretches.length ≤ cursor.rest.length
  calls : ∀ n, cursor.call n = (stretches.map (·.token))[n]?.getD last
  kinds : ∀ s ∈ stretches, s.token.kind ≠ .eof
  last_kind : last.kind = .eof
  last_line : last.line = lineAfter (before ++ cursor.rest)
  last_column : last.column = columnAfter (before ++ cursor.rest)
  last_ends : last.column < last.endColumn

theorem read_nil (hrest : cursor.rest = []) : cursor.read.1.kind = .eof := by
  unfold read
  rw [hrest]

theorem skip_read_of_nil (hrest : cursor.rest = []) : cursor.read.2.skip = cursor := by
  obtain ⟨rest, line, column⟩ := cursor
  obtain rfl := hrest
  rfl

/-- Only the end of a text is read as the end of input. -/
theorem rest_of_kind (hstops : ∀ c ∈ cursor.rest.head?, isBlank c = false)
    (hbefore : cursor.Behind before) (heof : cursor.read.1.kind = .eof) :
    cursor.rest = [] := by
  cases hrest : cursor.rest with
  | nil => rfl
  | cons c rest =>
    have hblank : isBlank c = false := hstops c (by rw [hrest]; rfl)
    obtain ⟨-, -, text, -, -, -, hwritten, -⟩ := takes_read hbefore hrest hblank
    unfold Token.WrittenAs at hwritten
    rw [heof] at hwritten
    exact hwritten.elim

/-- The end of input comes again and again. -/
theorem call_of_nil (hrest : cursor.skip.rest = []) (n : Nat) :
    cursor.call n = cursor.skip.read.1 := by
  induction n generalizing cursor with
  | zero => rfl
  | succ n ih =>
    have hskip : cursor.next.2.skip = cursor.skip := skip_read_of_nil hrest
    calc cursor.next.2.call n
        = cursor.next.2.skip.read.1 := ih (by rw [hskip, hrest])
      _ = cursor.skip.read.1 := by rw [hskip]

/-- Where no token is left, there is one last gap. -/
theorem divides_nil {gap : List Char} (hrest : cursor.skip.rest = [])
    (hwhole : cursor.rest = gap) (hbehind : cursor.skip.Behind (before ++ gap))
    (hgap : Blanks [] gap) : Divides cursor before [] gap cursor.next.1 := by
  subst hwhole
  obtain ⟨hline, hcolumn, hend⟩ : cursor.next.1.line = cursor.skip.line ∧
      cursor.next.1.column = cursor.skip.column ∧
      cursor.next.1.column < cursor.next.1.endColumn := by
    unfold next read
    rw [hrest]
    exact ⟨rfl, rfl, Nat.lt_succ_self _⟩
  exact ⟨rfl, hgap, Nat.zero_le _, call_of_nil hrest, by simp, read_nil hrest,
    hline.trans hbehind.line, hcolumn.trans hbehind.column, hend⟩

/-- One more stretch in front. -/
theorem Divides.cons {stretches : List Stretch} {gap : List Char} {last : Token}
    {s : Stretch} (h : Divides cursor.next.2 (before ++ s.source) stretches gap last)
    (htoken : s.token = cursor.next.1) (hmore : s.token.kind ≠ .eof)
    (hrest : cursor.rest = s.source ++ cursor.next.2.rest)
    (hstands : s.Stands before cursor.next.2.rest) :
    Divides cursor before (s :: stretches) gap last := by
  have hwhole : cursor.rest = (s :: stretches).flatMap Stretch.source ++ gap := by
    rw [hrest, h.whole, List.flatMap_cons, List.append_assoc]
  refine ⟨hwhole, ⟨h.whole ▸ hstands, h.follow⟩, ?_, fun n => ?_, ?_, h.last_kind, ?_, ?_,
    h.last_ends⟩
  · have hlength := length_next_lt (htoken ▸ hmore)
    have := h.length
    rw [List.length_cons]
    omega
  · cases n with
    | zero => exact htoken.symm
    | succ n => exact h.calls n
  · simpa [hmore] using h.kinds
  · rw [hrest, ← List.append_assoc, h.last_line]
  · rw [hrest, ← List.append_assoc, h.last_column]

/-- What stands in front of the token that comes next. -/
theorem skips_skip (hbefore : cursor.Behind before) :
    Skips .blank before cursor.rest cursor.skip :=
  skips_skipGap .blank cursor.rest cursor.line cursor.column before hbefore

theorem exists_divides (cursor : Cursor) (before : List Char) (acc : List Token)
    (hbefore : cursor.Behind before) : ∃ stretches gap last,
      Divides cursor before stretches gap last ∧
      cursor.tokensAfter acc = acc.reverse ++ stretches.map (·.token) ++ [last] := by
  induction acc, cursor using tokensAfter.induct generalizing before with
  | case1 acc cursor hend =>
    obtain ⟨⟨gap, hwhole, hbehind, hgap⟩, hstops⟩ := skips_skip hbefore
    have hrest : cursor.skip.rest = [] := rest_of_kind hstops hbehind hend
    rw [hrest, List.append_nil] at hwhole
    refine ⟨[], gap, cursor.next.1, divides_nil hrest hwhole hbehind (hrest ▸ hgap), ?_⟩
    rw [tokensAfter, if_pos hend]
    simp
  | case2 acc cursor hmore ih =>
    obtain ⟨⟨gap, hwhole, hbehind, hgap⟩, hstops⟩ := skips_skip hbefore
    cases hrest : cursor.skip.rest with
    | nil => exact absurd (read_nil hrest) hmore
    | cons c rest =>
      have hblank : isBlank c = false := hstops c (by rw [hrest]; rfl)
      obtain ⟨hline, hcolumn, text, htext, hne, hafter, hwritten, hends⟩ :=
        takes_read hbehind hrest hblank
      let s : Stretch := { gap, token := cursor.next.1, text }
      rw [List.append_assoc] at hafter hends
      obtain ⟨stretches, lastGap, last, hdivides, htokens⟩ := ih (before ++ s.source) hafter
      have hstands : s.Stands before cursor.next.2.rest :=
        ⟨htext ▸ hgap, hline.trans hbehind.line, hcolumn.trans hbehind.column, hne, hwritten,
          hends⟩
      have hsource : cursor.rest = s.source ++ cursor.next.2.rest := by
        rw [hwhole, htext, Stretch.source, List.append_assoc]
        rfl
      refine ⟨s :: stretches, lastGap, last, hdivides.cons rfl hmore hsource hstands, ?_⟩
      rw [tokensAfter, if_neg hmore, htokens]
      simp [s]

end Cursor

theorem behind_start (source : String) : (Cursor.start source).Behind [] := ⟨rfl, rfl⟩

/-- The tokens divide the text: it is made of gaps and tokens alone, all of them in
their places, and they are read in this order, after at most as many calls as there
are characters and one more, and then the end of input for ever. -/
theorem tokens_partition_source (source : String) : ∃ stretches gap last,
    tokenize source = stretches.map (·.token) ++ [last] ∧
    stretches.length ≤ source.length ∧
    (∀ n, (Cursor.start source).call n = (stretches.map (·.token))[n]?.getD last) ∧
    source.toList = stretches.flatMap Stretch.source ++ gap ∧
    Stretch.Follow [] stretches gap ∧
    (∀ s ∈ stretches, s.token.kind ≠ .eof) ∧ last.kind = .eof ∧
    last.line = lineAfter source.toList ∧ last.column = columnAfter source.toList := by
  obtain ⟨stretches, gap, last, h, htokens⟩ :=
    Cursor.exists_divides _ [] [] (behind_start source)
  exact ⟨stretches, gap, last, htokens, String.length_toList ▸ h.length, h.calls, h.whole,
    h.follow, h.kinds, h.last_kind, h.last_line, h.last_column⟩

end Script
