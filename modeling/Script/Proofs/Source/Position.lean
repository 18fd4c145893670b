import Mathlib.Data.Prod.Lex
import Script.Source.Location

/-!
# Positions

The ends of a location are compared by their lines and then by their columns.
-/

namespace Script

/-- A line and a column in it. -/
abbrev Position : Type := Nat ×ₗ Nat

namespace Location

def start (loc : Location) : Position := toLex (loc.line, loc.column)

def stop (loc : Location) : Position := toLex (loc.endLine, loc.endColumn)

/-- One location lies within another one. -/
structure Within (inner outer : Location) : Prop where
  starts : outer.start ≤ inner.start
  stops : inner.stop ≤ outer.stop

/-- A region of the file that is not empty. -/
structure Proper (file : String) (loc : Location) : Prop where
  file : loc.file = file
  line : 1 ≤ loc.line
  column : 1 ≤ loc.column
  nonempty : loc.start < loc.stop

variable {file : String} {a b : Location}

theorem Within.refl (loc : Location) : loc.Within loc := ⟨le_refl _, le_refl _⟩

theorem start_through (a b : Location) : (a.through b).start = a.start := by
  unfold through
  split <;> rfl

theorem stop_through (a b : Location) : (a.through b).stop = max a.stop b.stop := by
  have hlt : a.stop < b.stop ↔ a.endLine < b.endLine ∨
      (a.endLine = b.endLine ∧ a.endColumn < b.endColumn) := Prod.Lex.toLex_lt_toLex
  unfold through
  split
  · next h => exact (max_eq_right (hlt.mpr h).le).symm
  · next h => exact (max_eq_left (not_lt.mp fun h' => h (hlt.mp h'))).symm

/-- The region starts where its first part does, in the same file. -/
theorem through_starts (a b : Location) : (a.through b).file = a.file ∧
    (a.through b).line = a.line ∧ (a.through b).column = a.column := by
  unfold through
  split
  · exact ⟨rfl, rfl, rfl⟩
  · exact ⟨rfl, rfl, rfl⟩

theorem Proper.through (h : a.Proper file) (b : Location) : (a.through b).Proper file := by
  obtain ⟨hfile, hline, hcolumn⟩ := through_starts a b
  refine ⟨hfile.trans h.file, hline ▸ h.line, hcolumn ▸ h.column, ?_⟩
  rw [start_through, stop_through]
  exact h.nonempty.trans_le (le_max_left _ _)

end Location

end Script
