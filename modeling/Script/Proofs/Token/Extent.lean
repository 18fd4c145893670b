import Script.Proofs.Token.Partition

/-!
# How far tokens reach

A token stands somewhere in the text, on characters of its own, and its position is
counted from the text in front of it.  One that is written in a single line ends where
its characters do; one that goes over several lines ends behind its first character.
-/

namespace Script

/-- How many columns are counted for a text: those of its only line, or one. -/
def columnsOf (text : List Char) : Nat := if '\n' ∈ text then 1 else text.length

/-- The token is written as `text` between `before` and `rest`, it starts with no blank,
and its end is known unless it breaks off. -/
structure Token.Lies (t : Token) (before text rest : List Char) : Prop where
  line : t.line = lineAfter before
  column : t.column = columnAfter before
  written : t.WrittenAs text rest
  starts : ∃ c tail, text = c :: tail ∧ Cursor.isBlank c = false
  endColumn : t.kind ≠ .unterminatedString → t.endColumn = t.column + columnsOf text

namespace Cursor

variable {cursor : Cursor} {before text rest : List Char}

/-- The token ends where the cursor is left, if that is in the line of the token, and
otherwise behind its first character. -/
def Measures (cursor : Cursor) (read : Token × Cursor) : Prop :=
  read.1.endColumn =
    if read.2.line = cursor.line then read.2.column else cursor.column + 1

theorem measures_emit (cursor : Cursor) (kind : Token.Kind) (text rest : List Char) :
    cursor.Measures (cursor.emit kind text rest) :=
  (if_pos rfl).symm

theorem measures_emitDot (cursor : Cursor) (rest : List Char) :
    cursor.Measures (cursor.emitDot rest) := by
  unfold emitDot
  split
  · exact measures_emit _ _ _ _
  · exact measures_emit _ _ _ _
  · split
    · exact measures_emit _ _ _ _
    · exact measures_emit _ _ _ _

theorem measures_emitNumber (cursor : Cursor) (whole rest : List Char) :
    cursor.Measures (cursor.emitNumber whole rest) := by
  unfold emitNumber
  split
  · split
    · exact measures_emit _ _ _ _
    · exact measures_emit _ _ _ _
  · exact measures_emit _ _ _ _

/-- A string that is closed. -/
theorem measures_emitString {quote : Char}
    (hclosed : (cursor.emitString quote rest).1.kind ≠ .unterminatedString) :
    cursor.Measures (cursor.emitString quote rest) := by
  unfold emitString at hclosed ⊢
  dsimp only at hclosed
  generalize readString quote rest [] (cursor.past quote rest) = body at hclosed ⊢
  have hbody : body.closed = true := by
    cases hopen : body.closed with
    | true => rfl
    | false => exact absurd (if_neg (by simp [hopen])) hclosed
  unfold Measures
  simp only [hbody, Bool.true_and, beq_iff_eq]

theorem measures_read (hrest : cursor.rest ≠ [])
    (hclosed : cursor.read.1.kind ≠ .unterminatedString) : cursor.Measures cursor.read := by
  unfold read at hclosed ⊢
  cases hcursor : cursor.rest with
  | nil => exact absurd hcursor hrest
  | cons c rest =>
    rw [hcursor] at hclosed
    dsimp only at hclosed ⊢
    split
    · exact measures_emit _ _ _ _
    · next hpair =>
      rw [hpair] at hclosed
      dsimp only at hclosed
      split
      · exact measures_emitDot _ _
      · next hdot =>
        rw [if_neg hdot] at hclosed
        split
        · next hquote =>
          rw [if_pos hquote] at hclosed
          exact measures_emitString hclosed
        · split
          · exact measures_emitNumber _ _ _
          · split
            · exact measures_emit _ _ _ _
            · exact measures_emit _ _ _ _

/-- The token that comes next lies behind a gap. -/
theorem lies_read (hbefore : cursor.Behind before) {c : Char} (hcursor : cursor.rest = c :: rest)
    (hblank : isBlank c = false) : ∃ text, cursor.rest = text ++ cursor.read.2.rest ∧
      cursor.read.2.Behind (before ++ text) ∧
      cursor.read.1.Lies before text cursor.read.2.rest := by
  obtain ⟨hline, hcolumn, text, htext, hne, hafter, hwritten, -⟩ :=
    takes_read hbefore hcursor hblank
  refine ⟨text, htext, hafter, hline.trans hbefore.line, hcolumn.trans hbefore.column,
    hwritten, ?_, fun hclosed => ?_⟩
  · cases text with
    | nil => exact absurd rfl hne
    | cons d tail =>
      rw [hcursor] at htext
      obtain ⟨rfl, -⟩ := List.cons.inj htext
      exact ⟨c, tail, rfl, hblank⟩
  · have hmeasures := measures_read (hcursor ▸ List.cons_ne_nil c rest) hclosed
    unfold Measures at hmeasures
    rw [hmeasures, hcolumn, columnsOf, hafter.line, hafter.column, hbefore.line,
      hbefore.column]
    by_cases hbreak : '\n' ∈ text
    · rw [if_pos hbreak, if_neg fun hsame => not_mem_of_lineAfter_eq hsame hbreak]
    · rw [if_neg hbreak, if_pos (lineAfter_append hbreak), columnAfter_append hbreak]

theorem lies_of_mem_tokensAfter (cursor : Cursor) (before : List Char) (acc : List Token)
    (hbefore : cursor.Behind before) : ∀ t ∈ cursor.tokensAfter acc, t ∈ acc ∨
      t.kind = .eof ∨ ∃ front text rest,
        before ++ cursor.rest = front ++ text ++ rest ∧ t.Lies front text rest := by
  -- From one call of the lexer to the next, `before` grows by a gap and a token.
  induction acc, cursor using tokensAfter.induct generalizing before with
  | case1 acc cursor hend =>
    intro t ht
    rw [tokensAfter, if_pos hend] at ht
    rcases List.mem_cons.mp (List.mem_reverse.mp ht) with rfl | hacc
    · exact Or.inr (Or.inl hend)
    · exact Or.inl hacc
  | case2 acc cursor hmore ih =>
    intro t ht
    rw [tokensAfter, if_neg hmore] at ht
    obtain ⟨⟨gap, hwhole, hbehind, -⟩, hstops⟩ := skips_skip hbefore
    cases hrest : cursor.skip.rest with
    | nil => exact absurd (read_nil hrest) hmore
    | cons c rest =>
      have hblank : isBlank c = false := hstops c (by rw [hrest]; rfl)
      obtain ⟨text, htext, hafter, hlies⟩ := lies_read hbehind hrest hblank
      have hsource : before ++ cursor.rest =
          before ++ gap ++ text ++ cursor.next.2.rest := by
        rw [hwhole, htext]
        simp only [List.append_assoc]
        rfl
      rcases ih _ hafter t ht with hfirst | heof | hlater
      · rcases List.mem_cons.mp hfirst with rfl | hacc
        · exact Or.inr (Or.inr ⟨before ++ gap, text, _, hsource, hlies⟩)
        · exact Or.inl hacc
      · exact Or.inr (Or.inl heof)
      · rw [hsource]
        exact Or.inr (Or.inr hlater)

end Cursor

/-- Every token but the last one lies somewhere in the text. -/
theorem exists_lies {source : String} {t : Token} (ht : t ∈ tokenize source)
    (hkind : t.kind ≠ .eof) : ∃ before text rest,
      source.toList = before ++ text ++ rest ∧ t.Lies before text rest := by
  rcases Cursor.lies_of_mem_tokensAfter _ [] [] (behind_start source) t ht with
    hacc | heof | hlies
  · cases hacc
  · exact absurd heof hkind
  · exact hlies

end Script
