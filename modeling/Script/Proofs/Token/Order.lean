import Script.Proofs.Source.Position
import Script.Proofs.Token.Partition

/-!
# The order of tokens

Tokens take up room, and no token starts in front of the end of one that comes before
it.
-/

namespace Script

namespace Token

def start (t : Token) : Position := toLex (t.line, t.column)

def stop (t : Token) : Position := toLex (t.line, t.endColumn)

/-- The token takes up room in a text. -/
structure Placed (t : Token) : Prop where
  line : 1 ≤ t.line
  column : 1 ≤ t.column
  nonempty : t.start < t.stop

end Token

/-- The position behind a text. -/
def positionAfter (before : List Char) : Position :=
  toLex (lineAfter before, columnAfter before)

theorem positionAfter_le (before text : List Char) :
    positionAfter before ≤ positionAfter (before ++ text) := by
  refine Prod.Lex.toLex_le_toLex.mpr ?_
  rcases (lineAfter_le before text).lt_or_eq with hlt | heq
  · exact Or.inl hlt
  · refine Or.inr ⟨heq, ?_⟩
    dsimp only
    rw [columnAfter_append (not_mem_of_lineAfter_eq heq.symm)]
    omega

theorem Token.Placed.of_column {t : Token} {before : List Char}
    (hline : t.line = lineAfter before) (hcolumn : t.column = columnAfter before)
    (hends : t.column < t.endColumn) : t.Placed := by
  refine ⟨?_, ?_, Prod.Lex.toLex_lt_toLex.mpr (Or.inr ⟨rfl, hends⟩)⟩
  · rw [hline, lineAfter]
    omega
  · rw [hcolumn, columnAfter]
    omega

namespace Stretch

variable {before rest gap : List Char} {s : Stretch} {stretches : List Stretch}

theorem Stands.start (h : s.Stands before rest) :
    s.token.start = positionAfter (before ++ s.gap) := by
  rw [Token.start, h.line, h.column]
  rfl

theorem Stands.stop_le (h : s.Stands before rest) :
    s.token.stop ≤ positionAfter (before ++ s.source) := by
  refine Prod.Lex.toLex_le_toLex.mpr ?_
  rcases h.ends.line.lt_or_eq with hlt | heq
  · exact Or.inl hlt
  · exact Or.inr ⟨heq, h.ends.endColumn heq⟩

/-- The tokens stand in order between the ends of their text. -/
theorem Follow.ordered (h : Follow before stretches gap) :
    (∀ t ∈ stretches.map (·.token), t.Placed ∧ positionAfter before ≤ t.start ∧
      t.stop ≤ positionAfter (before ++ stretches.flatMap source)) ∧
    (stretches.map (·.token)).Pairwise fun t t' => t.stop ≤ t'.start := by
  induction stretches generalizing before with
  | nil => exact ⟨by simp, .nil⟩
  | cons s stretches ih =>
    obtain ⟨hstands, hfollow⟩ := h
    obtain ⟨hplaced, hordered⟩ := ih hfollow
    rw [List.map_cons, List.pairwise_cons, List.flatMap_cons, ← List.append_assoc]
    refine ⟨fun t ht => ?_, fun t ht => ?_, hordered⟩
    · rcases List.mem_cons.mp ht with rfl | ht
      · refine ⟨.of_column hstands.line hstands.column hstands.ends.column, ?_,
          hstands.stop_le.trans (positionAfter_le _ _)⟩
        rw [hstands.start]
        exact positionAfter_le _ _
      · obtain ⟨ht, hstart, hstop⟩ := hplaced t ht
        exact ⟨ht, (positionAfter_le _ _).trans hstart, hstop⟩
    · exact hstands.stop_le.trans (hplaced t ht).2.1

end Stretch

/-- All tokens of a text stand in it, one behind another. -/
theorem tokenize_ordered (source : String) : (∀ t ∈ tokenize source, t.Placed) ∧
    (tokenize source).Pairwise fun t t' => t.stop ≤ t'.start := by
  obtain ⟨stretches, gap, last, h, htokens⟩ :=
    Cursor.exists_divides _ [] [] (behind_start source)
  obtain ⟨hplaced, hordered⟩ := h.follow.ordered
  change tokenize source = stretches.map (·.token) ++ [last] at htokens
  have hlast : last.start = positionAfter ([] ++ stretches.flatMap Stretch.source ++ gap) := by
    rw [Token.start, h.last_line, h.last_column, h.whole, ← List.append_assoc]
    rfl
  rw [htokens]
  refine ⟨fun t ht => ?_, List.pairwise_append.mpr
    ⟨hordered, List.pairwise_singleton _ _, fun t ht t' ht' => ?_⟩⟩
  · rcases List.mem_append.mp ht with ht | ht
    · exact (hplaced t ht).1
    · obtain rfl := List.mem_singleton.mp ht
      exact .of_column h.last_line h.last_column h.last_ends
  · obtain rfl := List.mem_singleton.mp ht'
    rw [hlast]
    exact (hplaced t ht).2.2.trans (positionAfter_le _ _)

end Script
