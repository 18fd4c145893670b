import Script.Diagnostic.Problem
import Script.Diagnostic.Report
import Script.Proofs.Token.Extent

/-!
# Markers under tokens

A report shows a line of the source and draws markers under a token in it.  The position
of the token is counted by the lexer, and the line is found and shown by the report, each
in its own way.  In the report the first marker stands below the first character of the
token.
-/

namespace Script

/-! ### Lines of a text -/

/-- What is in the last line of a text. -/
def lineHead (before : List Char) : List Char :=
  (before.reverse.takeWhile (· ≠ '\n')).reverse

theorem columnAfter_eq (before : List Char) :
    columnAfter before = 1 + (lineHead before).length := by
  rw [columnAfter, lineHead, List.length_reverse]

theorem lineHead_of_not_mem {before : List Char} (h : '\n' ∉ before) :
    lineHead before = before := by
  have htaken := takeWhile_ne_of_not_mem (mt List.mem_reverse.mp h) []
  rw [List.append_nil, List.takeWhile_nil, List.append_nil] at htaken
  rw [lineHead, htaken, List.reverse_reverse]

/-- What is in front of a line break does not matter. -/
theorem lineHead_append_break (front after : List Char) :
    lineHead (front ++ '\n' :: after) = lineHead after := by
  have htaken : (after.reverse ++ '\n' :: front.reverse).takeWhile (· ≠ '\n') =
      after.reverse.takeWhile (· ≠ '\n') := by
    induction after.reverse with
    | nil => rfl
    | cons c text ih =>
      rw [List.cons_append, List.takeWhile_cons, List.takeWhile_cons, ih]
  have hreverse : (front ++ '\n' :: after).reverse =
      after.reverse ++ '\n' :: front.reverse := by
    simp
  rw [lineHead, lineHead, hreverse, htaken]

namespace Text

variable {c : Char} {read before rest : List Char}

theorem closeLine_return (read : List Char) :
    closeLine ('\r' :: read) = String.ofList read.reverse := rfl

theorem closeLine_of_ne (hc : c ≠ '\r') :
    closeLine (c :: read) = String.ofList (c :: read).reverse := by
  unfold closeLine
  split
  · next hsame => exact absurd (List.cons.inj hsame).1 hc
  · rfl

/-- A line that is closed is kept up to the last character that is no carriage return. -/
theorem exists_closeLine (hc : c ≠ '\r') (more read : List Char) :
    ∃ tail, closeLine (more ++ c :: read) = String.ofList ((c :: read).reverse ++ tail) := by
  cases more with
  | nil => exact ⟨[], by rw [List.nil_append, closeLine_of_ne hc, List.append_nil]⟩
  | cons d more =>
    by_cases hd : d = '\r'
    · subst hd
      exact ⟨more.reverse, by rw [List.cons_append, closeLine_return, List.reverse_append]⟩
    · refine ⟨(d :: more).reverse, ?_⟩
      rw [List.cons_append, closeLine_of_ne hd, ← List.cons_append, List.reverse_append]

/-- The line that is being read goes on as it has begun. -/
theorem exists_first_line (hc : c ≠ '\r') (more read rest : List Char) :
    ∃ tail lines, linesFrom (more ++ c :: read) rest =
      String.ofList ((c :: read).reverse ++ tail) :: lines := by
  induction rest generalizing more with
  | nil =>
    refine ⟨more.reverse, [], ?_⟩
    rw [linesFrom, List.reverse_append]
    simp
  | cons d rest ih =>
    rw [linesFrom]
    split
    · obtain ⟨tail, hclosed⟩ := exists_closeLine hc more read
      exact ⟨tail, _, by rw [hclosed]⟩
    · exact ih (d :: more)

/-- The line of a character has what is in front of it in its line, and the character. -/
theorem exists_line_linesFrom (hbreak : c ≠ '\n') (hreturn : c ≠ '\r')
    (read before rest : List Char) (hread : '\n' ∉ read) : ∃ line tail,
      (linesFrom read (before ++ c :: rest))[before.count '\n']? = some line ∧
      line.toList = lineHead (read.reverse ++ before) ++ c :: tail := by
  -- What is in front of the character ends lines, or goes on with the one being read.
  induction before generalizing read with
  | nil =>
    obtain ⟨tail, lines, hlines⟩ := exists_first_line hreturn [] read rest
    refine ⟨String.ofList ((c :: read).reverse ++ tail), tail, ?_, ?_⟩
    · rw [List.nil_append, linesFrom, if_neg hbreak]
      exact congrArg (·[0]?) hlines
    · rw [String.toList_ofList, List.append_nil,
        lineHead_of_not_mem (mt List.mem_reverse.mp hread)]
      simp
  | cons d before ih =>
    rw [List.cons_append, linesFrom]
    split
    · next hd =>
      subst hd
      obtain ⟨line, tail, hline, htext⟩ := ih [] List.not_mem_nil
      refine ⟨line, tail, ?_, ?_⟩
      · rw [List.count_cons_self, List.getElem?_cons_succ, hline]
      · rw [lineHead_append_break]
        exact htext
    · next hd =>
      obtain ⟨line, tail, hline, htext⟩ := ih (d :: read)
        (List.not_mem_cons_of_ne_of_not_mem (Ne.symm hd) hread)
      refine ⟨line, tail, ?_, ?_⟩
      · rw [List.count_cons_of_ne hd, hline]
      · rw [htext, List.reverse_cons, List.append_assoc, List.singleton_append]

theorem not_mem_closeLine (hread : '\n' ∉ read) : '\n' ∉ (closeLine read).toList := by
  unfold closeLine
  split
  · next read =>
    rw [String.toList_ofList, List.mem_reverse]
    exact fun h => hread (List.mem_cons_of_mem _ h)
  · rwa [String.toList_ofList, List.mem_reverse]

/-- No line has a line feed in it. -/
theorem not_mem_of_mem_linesFrom (hread : '\n' ∉ read) :
    ∀ line ∈ linesFrom read rest, '\n' ∉ line.toList := by
  induction rest generalizing read with
  | nil =>
    intro line hline
    cases read with
    | nil => cases hline
    | cons c read =>
      obtain rfl := List.mem_singleton.mp hline
      rw [String.toList_ofList]
      exact mt List.mem_reverse.mp hread
  | cons d rest ih =>
    rw [linesFrom]
    split
    · intro line hline
      rcases List.mem_cons.mp hline with rfl | hlater
      · exact not_mem_closeLine hread
      · exact ih List.not_mem_nil line hlater
    · next hd => exact ih (List.not_mem_cons_of_ne_of_not_mem (Ne.symm hd) hread)

end Text

/-! ### Rows of a snippet -/

namespace Report

variable {d : Diagnostic} {source text row : String} {number : Nat}

/-- A row with its bar. -/
def barred (front rest : String) : String := front ++ " " ++ "|" ++ rest

/-- The number of a line with blanks in front of it. -/
def numberFront (d : Diagnostic) (number : Nat) : String :=
  spaces (gutter d - (toString number).length) ++ toString number

/-- The row of a line of the source. -/
def shownRow (d : Diagnostic) (number : Nat) (text : String) : String :=
  barred (numberFront d number) (" " ++ text)

/-- The row with the markers of a label under a line. -/
def markedRow (d : Diagnostic) (text : String) (label : Label) : String :=
  barred (spaces (gutter d))
    (" " ++ indent text label.location.column ++ markers false label)

/-- The row above and below the lines. -/
def edge (d : Diagnostic) : String := spaces (gutter d) ++ " " ++ "|"

theorem snippetLine_eq (d : Diagnostic) (number : Nat) (text : String) :
    snippetLine false d number text = shownRow d number text ::
      (d.labels.filter (·.location.line = number)).map (markedRow d text) := by
  have hshown : shownRow d number text =
      numberFront d number ++ " " ++ "|" ++ " " ++ text := by
    simp only [shownRow, barred, String.append_assoc]
  have hmarked : markedRow d text = fun label =>
      spaces (gutter d) ++ " " ++ "|" ++ " " ++ indent text label.location.column ++
        markers false label := by
    funext label
    simp only [markedRow, barred, String.append_assoc]
  rw [hshown, hmarked]
  rfl

/-! ### Bars -/

/-- A row of a snippet: its bar stands behind digits and blanks, in the same column as in
all rows, and what follows is in one line if the messages of the labels are. -/
def IsRow (d : Diagnostic) (row : String) : Prop :=
  ∃ margin rest, row.toList = margin ++ '|' :: rest ∧ margin.length = gutter d + 1 ∧
    (∀ c ∈ margin, c = ' ' ∨ c.isDigit = true) ∧
    ((∀ label ∈ d.labels, '\n' ∉ label.message.toList) → '\n' ∉ rest)

theorem toList_barred (front rest : String) :
    (barred front rest).toList = front.toList ++ [' '] ++ '|' :: rest.toList := by
  simp [barred]

theorem isRow_barred {front rest : String} (hlength : front.length = gutter d)
    (hfront : ∀ c ∈ front.toList, c = ' ' ∨ c.isDigit = true)
    (hrest : (∀ label ∈ d.labels, '\n' ∉ label.message.toList) → '\n' ∉ rest.toList) :
    IsRow d (barred front rest) := by
  refine ⟨front.toList ++ [' '], rest.toList, toList_barred front rest, ?_, ?_, hrest⟩
  · rw [List.length_append, String.length_toList, hlength, List.length_singleton]
  · intro c hc
    rcases List.mem_append.mp hc with hc | hc
    · exact hfront c hc
    · exact Or.inl (List.mem_singleton.mp hc)

theorem length_spaces (count : Nat) : (spaces count).length = count := by
  rw [spaces, String.length_ofList, List.length_replicate]

theorem eq_of_mem_spaces {count : Nat} {c : Char} (hc : c ∈ (spaces count).toList) :
    c = ' ' := by
  rw [spaces, String.toList_ofList] at hc
  exact List.eq_of_mem_replicate hc

/-- The numbers of the lines that are shown fit. -/
theorem length_toString_le (hnumber : number ≤ lastLine d + 1) :
    (toString number).length ≤ gutter d := by
  have hlast : (lastLine d + 1).repr.length ≤ gutter d := Nat.le_refl _
  have hpositive : 0 < gutter d := Nat.length_repr_pos
  exact (Nat.length_repr_le_iff hpositive).mpr
    (Nat.lt_of_le_of_lt hnumber ((Nat.length_repr_le_iff hpositive).mp hlast))

theorem length_numberFront (hnumber : number ≤ lastLine d + 1) :
    (numberFront d number).length = gutter d := by
  rw [numberFront, String.length_append, length_spaces,
    Nat.sub_add_cancel (length_toString_le hnumber)]

theorem digit_of_mem_numberFront {c : Char} (hc : c ∈ (numberFront d number).toList) :
    c = ' ' ∨ c.isDigit = true := by
  rw [numberFront, String.toList_append, List.mem_append] at hc
  rcases hc with hc | hc
  · exact Or.inl (eq_of_mem_spaces hc)
  · rw [Nat.toString_eq_repr, Nat.toList_repr] at hc
    exact Or.inr (Nat.isDigit_of_mem_toDigits (by decide) (by decide) hc)

/-- A row without a number. -/
theorem isRow_blankFront {rest : String}
    (hrest : (∀ label ∈ d.labels, '\n' ∉ label.message.toList) → '\n' ∉ rest.toList) :
    IsRow d (barred (spaces (gutter d)) rest) :=
  isRow_barred (length_spaces _) (fun _ hc => Or.inl (eq_of_mem_spaces hc)) hrest

theorem isRow_edge (d : Diagnostic) : IsRow d (edge d) := by
  have hedge : edge d = barred (spaces (gutter d)) "" := String.append_empty.symm
  rw [hedge]
  exact isRow_blankFront fun _ => List.not_mem_nil

theorem isRow_shownRow (hnumber : number ≤ lastLine d + 1) (htext : '\n' ∉ text.toList) :
    IsRow d (shownRow d number text) := by
  apply isRow_barred (length_numberFront hnumber) (fun c => digit_of_mem_numberFront)
  intro _
  simpa using htext

/-! ### Markers -/

/-- Tabs for tabs, and blanks for all other characters. -/
def blanked (text : List Char) : List Char :=
  text.map fun c => if c = '\t' then '\t' else ' '

/-- The character that a label is marked with. -/
def markOf (label : Label) : Char := if label.primary then '^' else '-'

/-- What stands behind the markers of a label. -/
def noteOf (label : Label) : List Char :=
  if label.message.isEmpty then [] else ' ' :: label.message.toList

theorem toList_indent (text : String) (column : Nat) :
    (indent text column).toList = blanked (text.toList.take (column - 1)) := by
  rw [indent, String.toList_ofList]
  rfl

theorem toList_markers (label : Label) : (markers false label).toList =
    List.replicate label.location.width (markOf label) ++ noteOf label := by
  unfold markers noteOf markOf
  simp only [Paint.apply, Bool.false_eq_true, if_false]
  split
  · simp
  · simp

theorem toList_markedRow (d : Diagnostic) (text : String) (label : Label) :
    (markedRow d text label).toList =
      ((spaces (gutter d)).toList ++ [' ', '|', ' ']) ++
        blanked (text.toList.take (label.location.column - 1)) ++
          List.replicate label.location.width (markOf label) ++ noteOf label := by
  rw [markedRow, toList_barred]
  simp only [String.toList_append, toList_indent, toList_markers]
  simp

theorem not_mem_blanked (text : List Char) : '\n' ∉ blanked text := by
  intro hmem
  obtain ⟨c, -, hc⟩ := List.mem_map.mp hmem
  split at hc <;> cases hc

theorem isRow_markedRow {label : Label} (hlabel : label ∈ d.labels) (text : String) :
    IsRow d (markedRow d text label) := by
  apply isRow_blankFront
  intro hmessages
  have hmark : markOf label ≠ '\n' := by
    unfold markOf
    split <;> decide
  have hnote : '\n' ∉ noteOf label := by
    unfold noteOf
    split
    · exact List.not_mem_nil
    · simpa using hmessages label hlabel
  simp only [String.toList_append, toList_indent, toList_markers, List.mem_append, not_or]
  refine ⟨⟨by decide, not_mem_blanked _⟩, ?_, hnote⟩
  intro hmem
  exact hmark (List.eq_of_mem_replicate hmem).symm

/-! ### The rows that are shown -/

/-- The number of the first line that is shown. -/
def firstShown (d : Diagnostic) : Nat :=
  max ((d.labels.map (·.location.line)).min?.getD 1 - 1) 1

/-- The lines that are shown, with their numbers. -/
def shownLines (d : Diagnostic) (source : String) : List (String × Nat) :=
  (((Text.lines source).drop (firstShown d - 1)).take
    (lastLine d + 2 - firstShown d)).zipIdx (firstShown d)

theorem mem_shownLines_iff : (text, number) ∈ shownLines d source ↔
    firstShown d ≤ number ∧ number ≤ lastLine d + 1 ∧
      (Text.lines source)[number - 1]? = some text := by
  have hpositive : 1 ≤ firstShown d := Nat.le_max_right _ _
  rw [shownLines, List.mk_mem_zipIdx_iff_le_and_getElem?_sub, List.getElem?_take,
    List.getElem?_drop]
  refine and_congr_right fun hfirst => ?_
  rw [show firstShown d - 1 + (number - firstShown d) = number - 1 by omega]
  by_cases hlast : number ≤ lastLine d + 1
  · rw [if_pos (by omega), and_iff_right hlast]
  · rw [if_neg (by omega)]
    simp [hlast]

theorem snippet_eq (hlines : Text.lines source ≠ []) (hlabels : d.labels ≠ []) :
    snippet false d source =
      edge d :: (shownLines d source).flatMap (fun p => snippetLine false d p.2 p.1) ++
        [edge d] :=
  if_neg (by simp [hlines, hlabels])

/-- All rows have their bars in one column. -/
theorem isRow_of_mem_snippet (hrow : row ∈ snippet false d source) : IsRow d row := by
  by_cases hempty : Text.lines source = [] ∨ d.labels = []
  · have hnone : snippet false d source = [] := if_pos (by simpa using hempty)
    rw [hnone] at hrow
    cases hrow
  · obtain ⟨hlines, hlabels⟩ := not_or.mp hempty
    rw [snippet_eq hlines hlabels] at hrow
    simp only [List.mem_append, List.mem_cons, List.mem_flatMap, List.not_mem_nil,
      or_false] at hrow
    rcases hrow with (rfl | ⟨⟨text, number⟩, hshown, hrow⟩) | rfl
    · exact isRow_edge d
    · obtain ⟨-, hnumber, htext⟩ := mem_shownLines_iff.mp hshown
      rw [snippetLine_eq] at hrow
      rcases List.mem_cons.mp hrow with rfl | hmarked
      · apply isRow_shownRow hnumber
        exact Text.not_mem_of_mem_linesFrom List.not_mem_nil text (List.mem_of_getElem? htext)
      · obtain ⟨label, hlabel, rfl⟩ := List.mem_map.mp hmarked
        exact isRow_markedRow (List.mem_filter.mp hlabel).1 text
    · exact isRow_edge d

/-- The row of a labelled line, with the rows of all labels of this line under it. -/
theorem exists_rows {label : Label} (hlabel : label ∈ d.labels) {line : String}
    (hpositive : 1 ≤ label.location.line)
    (hline : (Text.lines source)[label.location.line - 1]? = some line) :
    ∃ front back, snippet false d source =
      front ++ snippetLine false d label.location.line line ++ back := by
  have hshown : (line, label.location.line) ∈ shownLines d source := by
    have hlines : label.location.line ∈ d.labels.map (·.location.line) :=
      List.mem_map_of_mem hlabel
    have hfirst : (d.labels.map (·.location.line)).min?.getD 1 ≤ label.location.line :=
      List.min?_getD_le_of_mem hlines
    have hlast : label.location.line ≤ lastLine d := List.le_max?_getD_of_mem hlines
    refine mem_shownLines_iff.mpr ⟨?_, Nat.le_succ_of_le hlast, hline⟩
    unfold firstShown
    omega
  have hnonempty : Text.lines source ≠ [] := by
    intro hempty
    rw [hempty] at hline
    cases hline
  obtain ⟨before, after, hsplit⟩ := List.append_of_mem hshown
  rw [snippet_eq hnonempty (List.ne_nil_of_mem hlabel), hsplit, List.flatMap_append,
    List.flatMap_cons]
  refine ⟨edge d :: before.flatMap fun p => snippetLine false d p.2 p.1,
    (after.flatMap fun p => snippetLine false d p.2 p.1) ++ [edge d], ?_⟩
  simp only [List.cons_append, List.append_assoc]

/-- The report has the rows of the snippet one below another. -/
theorem exists_report_eq {r : Reporter} (hcolor : r.color = false)
    (hsource : d.source = some source) :
    ∃ front back, (r.report d).1 = unlines (front ++ snippet false d source ++ back) := by
  have hlines : ∀ joke?, ∃ front back,
      fullLines false d joke? = front ++ snippet false d source ++ back := by
    intro joke?
    unfold fullLines
    rw [hsource]
    simp only [Option.map_some, Option.getD_some, List.append_assoc]
    exact ⟨_, _, rfl⟩
  unfold Reporter.report
  rw [hcolor]
  split
  · obtain ⟨front, back, heq⟩ := hlines none
    exact ⟨front, back, congrArg unlines heq⟩
  · next probability seed hjokes =>
    obtain ⟨front, back, heq⟩ := hlines (Joke.roll? probability seed r.count d.message)
    exact ⟨front, back, congrArg unlines heq⟩

/-- The row `shown` ends with the line, and `marked` has `count` markers of the label below
it.  The first of them stands behind as many characters as `head` does in the line, and
there are tabs where `head` has tabs. -/
def MarksUnder (label : Label) (line : String) (head : List Char) (count : Nat)
    (shown marked : String) : Prop :=
  ∃ margin margin', margin.length = margin'.length ∧
    shown.toList = margin ++ line.toList ∧
    marked.toList = margin' ++ blanked head ++ List.replicate count (markOf label) ++
      noteOf label

theorem marksUnder_markedRow {label : Label} (hlabel : label ∈ d.labels) {line : String}
    {head tail : List Char} (hline : line.toList = head ++ tail)
    (hcolumn : label.location.column = 1 + head.length) :
    MarksUnder label line head label.location.width
      (shownRow d label.location.line line) (markedRow d line label) := by
  have hlast : label.location.line ≤ lastLine d :=
    List.le_max?_getD_of_mem (List.mem_map_of_mem hlabel)
  refine ⟨(numberFront d label.location.line).toList ++ [' ', '|', ' '],
    (spaces (gutter d)).toList ++ [' ', '|', ' '], ?_, ?_, ?_⟩
  · simp only [List.length_append, String.length_toList, length_spaces,
      length_numberFront (Nat.le_succ_of_le hlast)]
  · rw [shownRow, toList_barred]
    simp
  · rw [toList_markedRow, hcolumn, Nat.add_sub_cancel_left, hline, List.take_left]

end Report

/-- A label on a token is as wide as the token. -/
theorem Token.Lies.width_onLine {t : Token} {before text rest : List Char}
    (h : t.Lies before text rest) (hclosed : t.kind ≠ .unterminatedString) (file : String) :
    (Location.onLine file t.line t.column t.endColumn).width = columnsOf text := by
  obtain ⟨c, tail, rfl, -⟩ := h.starts
  have hpositive : 1 ≤ columnsOf (c :: tail) := by
    unfold columnsOf
    split
    · exact Nat.le_refl 1
    · exact Nat.le_add_left 1 tail.length
  change (if t.line = t.line then max (t.endColumn - t.column) 1 else 1) = _
  rw [if_pos rfl, h.endColumn hclosed, Nat.add_sub_cancel_left]
  exact Nat.max_eq_left hpositive

/-- The line of a token, as a report finds it: what is in front of the token in its line,
and the token's first character. -/
theorem Token.Lies.exists_line {source : String} {t : Token} {before text rest : List Char}
    (h : t.Lies before text rest) (hsource : source.toList = before ++ text ++ rest) :
    ∃ line first tail, text.head? = some first ∧
      (Text.lines source)[t.line - 1]? = some line ∧
      line.toList = lineHead before ++ first :: tail := by
  obtain ⟨c, more, rfl, hblank⟩ := h.starts
  have hbreak : c ≠ '\n' := by
    rintro rfl
    cases hblank
  have hreturn : c ≠ '\r' := by
    rintro rfl
    cases hblank
  obtain ⟨line, tail, hline, htext⟩ :=
    Text.exists_line_linesFrom hbreak hreturn [] before (more ++ rest) List.not_mem_nil
  refine ⟨line, c, tail, rfl, ?_, htext⟩
  rw [h.line, lineAfter, Nat.add_sub_cancel_left, Text.lines, hsource, List.append_assoc]
  exact hline

/-- Take a token of a text, neither the end of input nor a string that breaks off, and a
report with this text and a label on the token.  The report shows the line of the token,
and below it, among the rows of the labels in this line, a row with markers for this
label.  The first marker stands below the first character of the token: both rows have
the same number of characters in front of it, and those of the line are there as tabs and
blanks.  There are as many markers as the token has characters, or one if it goes over
several lines.  All rows of the snippet have their bars in the same column.  They are
lines of their own as long as there are no line breaks in the messages of the labels. -/
theorem markers_line_up {source : String} {t : Token} (ht : t ∈ tokenize source)
    (heof : t.kind ≠ .eof) (hclosed : t.kind ≠ .unterminatedString) :
    ∃ before text rest, source.toList = before ++ text ++ rest ∧ t.Lies before text rest ∧
    ∃ line first tail, text.head? = some first ∧
      (Text.lines source)[t.line - 1]? = some line ∧
      line.toList = lineHead before ++ first :: tail ∧
      ∀ (r : Reporter) (d : Diagnostic) (label : Label) (file : String), r.color = false →
        d.source = some source → label ∈ d.labels →
        label.location = .onLine file t.line t.column t.endColumn →
        (∃ front back, (r.report d).1 =
          Report.unlines (front ++ Report.snippet false d source ++ back)) ∧
        (∀ row ∈ Report.snippet false d source, Report.IsRow d row) ∧
        ∃ front shown marks back marked,
          Report.snippet false d source = front ++ shown :: marks ++ back ∧
          marks.length = (d.labels.filter (·.location.line = t.line)).length ∧
          marked ∈ marks ∧
          Report.MarksUnder label line (lineHead before) (columnsOf text) shown marked := by
  obtain ⟨before, text, rest, hsource, hlies⟩ := exists_lies ht heof
  obtain ⟨line, first, tail, hfirst, hline, htext⟩ := hlies.exists_line hsource
  refine ⟨before, text, rest, hsource, hlies, line, first, tail, hfirst, hline, htext, ?_⟩
  intro r d label file hcolor hshown hlabel hlocation
  refine ⟨Report.exists_report_eq hcolor hshown, fun row => Report.isRow_of_mem_snippet, ?_⟩
  have hnumber : label.location.line = t.line := by rw [hlocation]; rfl
  have hcolumn : label.location.column = 1 + (lineHead before).length := by
    rw [hlocation, ← columnAfter_eq, ← hlies.column]
    rfl
  have hwidth : label.location.width = columnsOf text := by
    rw [hlocation, hlies.width_onLine hclosed]
  have hpositive : 1 ≤ label.location.line := by
    rw [hnumber, hlies.line]
    exact Nat.le_add_right 1 _
  obtain ⟨front, back, hrows⟩ := Report.exists_rows hlabel hpositive (hnumber ▸ hline)
  rw [Report.snippetLine_eq] at hrows
  refine ⟨front, _, _, back, _, hrows, ?_, List.mem_map_of_mem
    (List.mem_filter.mpr ⟨hlabel, by simp⟩), ?_⟩
  · rw [List.length_map, hnumber]
  · rw [← hwidth]
    exact Report.marksUnder_markedRow hlabel htext hcolumn

/-- A text with a carriage return and a tab. -/
def tabbedSource : String := "a = 1\r\n\tbc"

/-- The name in its second line. -/
def tabbedToken : Token := { kind := .ident, text := "bc", line := 2, column := 2, endColumn := 4 }

/-- A report about this name. -/
def tabbedReport : Diagnostic :=
  ((Problem.undefinedVariable "bc").report (.onLine "a.vic" 2 2 4)).attach tabbedSource

/-- The name gets two markers, which stand behind one character of its line. -/
theorem markers_line_up_tabbed :
    tabbedToken ∈ tokenize tabbedSource ∧
      ∃ label ∈ tabbedReport.labels, ∃ head shown marked, head.length = 1 ∧
        shown ∈ Report.snippet false tabbedReport tabbedSource ∧
        marked ∈ Report.snippet false tabbedReport tabbedSource ∧
        Report.MarksUnder label "\tbc" head 2 shown marked := by
  have htoken : tabbedToken ∈ tokenize tabbedSource := by decide +kernel
  have hlines : (Text.lines tabbedSource)[tabbedToken.line - 1]? = some "\tbc" := by
    decide +kernel
  obtain ⟨before, text, rest, -, hlies, line, first, tail, -, hline, -, hreport⟩ :=
    markers_line_up htoken (by decide) (by decide)
  obtain rfl : line = "\tbc" := Option.some.inj (hline.symm.trans hlines)
  obtain ⟨rfl, -⟩ : text = "bc".toList ∧ _ := hlies.written
  obtain ⟨label, hlabel, hlocation⟩ : ∃ label ∈ tabbedReport.labels,
      label.location = .onLine "a.vic" 2 2 4 := ⟨_, List.mem_singleton.mpr rfl, rfl⟩
  obtain ⟨-, -, front, shown, marks, back, marked, hrows, -, hmarked, hunder⟩ :=
    hreport .quiet tabbedReport label "a.vic" rfl rfl hlabel hlocation
  refine ⟨htoken, label, hlabel, lineHead before, shown, marked, ?_, ?_, ?_, hunder⟩
  · have hcolumn : 2 = 1 + (lineHead before).length := by
      rw [← columnAfter_eq]
      exact hlies.column
    omega
  · rw [hrows]
    simp
  · rw [hrows]
    simp [hmarked]

end Script
