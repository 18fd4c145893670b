import Mathlib.Data.List.Basic
import Script.Eval.Native
import Script.Proofs.Eval.Sequences
import Script.Proofs.Value.Contents
import Script.Proofs.Value.Questions

/-!
# Splitting, joining and replacing

A text is taken apart at the leftmost occurrences of a separator that do not overlap.
The pieces with the separator between them are the text again, and with another text
between them they are what comes of replacing the separator by that text.
-/

namespace Script

namespace Text

variable {part text piece rest : List Char}

/-! ### Occurrences -/

theorem isSome_after?_iff : (after? part text).isSome = true ↔ part <+: text := by
  induction part generalizing text with
  | nil => simp [after?]
  | cons c part ih =>
    cases text with
    | nil => simp [after?]
    | cons d text =>
      rw [after?, List.cons_prefix_cons]
      split
      · next hsame => rw [ih, and_iff_right hsame]
      · next hother => simp [hother]

/-- The text goes on with `part` behind its first `i` characters. -/
def OccursAt (part text : List Char) (i : Nat) : Prop := part <+: text.drop i

theorem occursAt_drop {start i : Nat} :
    OccursAt part (text.drop start) i ↔ OccursAt part text (start + i) := by
  rw [OccursAt, OccursAt, List.drop_drop]

/-- The occurrences from `start` on, from left to right: each is the first one behind the
end of the one before it. -/
inductive Leftmost (part text : List Char) : Nat → List Nat → Prop where
  | none {start : Nat} (hnone : ∀ i, start ≤ i → ¬ OccursAt part text i) :
      Leftmost part text start []
  | next {start i : Nat} {positions : List Nat} (hstart : start ≤ i)
      (hoccurs : OccursAt part text i)
      (hfirst : ∀ j, start ≤ j → j < i → ¬ OccursAt part text j)
      (hrest : Leftmost part text (i + part.length) positions) :
      Leftmost part text start (i :: positions)

/-- There is only one list of them. -/
theorem Leftmost.unique {start : Nat} {positions positions' : List Nat}
    (h : Leftmost part text start positions) (h' : Leftmost part text start positions') :
    positions = positions' := by
  induction h generalizing positions' with
  | none hnone =>
    cases h' with
    | none => rfl
    | next hstart hoccurs => exact absurd hoccurs (hnone _ hstart)
  | @next start i positions hstart hoccurs hfirst _ ih =>
    cases h' with
    | none hnone => exact absurd hoccurs (hnone _ hstart)
    | @next _ i' positions' hstart' hoccurs' hfirst' hrest' =>
      obtain rfl : i = i' := by
        apply Nat.le_antisymm
        · exact Nat.le_of_not_lt fun hlt => hfirst _ hstart' hlt hoccurs'
        · exact Nat.le_of_not_lt fun hlt => hfirst' _ hstart hlt hoccurs
      rw [ih hrest']

/-! ### Pieces -/

/-- The text is cut where `separator` occurs first, and what is behind that is cut again,
up to where it occurs no more. -/
inductive Cut (separator : List Char) : List Char → List (List Char) → Prop where
  | last {text : List Char} (hnone : ¬ separator <:+: text) : Cut separator text [text]
  | more {piece rest : List Char} {pieces : List (List Char)}
      (hfirst : ∀ i < piece.length, ¬ OccursAt separator (piece ++ separator ++ rest) i)
      (hrest : Cut separator rest pieces) :
      Cut separator (piece ++ separator ++ rest) (piece :: pieces)

/-- What is still to be passed over does not matter for the rest. -/
theorem pieces_drop (separator piece text : List Char) (skip : Nat) :
    pieces separator skip piece text = pieces separator 0 piece (text.drop skip) := by
  induction text generalizing skip with
  | nil => rw [List.drop_nil, pieces, pieces]
  | cons c text ih =>
    cases skip with
    | zero => rfl
    | succ skip => rw [pieces, ih, List.drop_succ_cons]

/-- An occurrence within a text starts before its end. -/
theorem exists_occursAt_of_infix {part text : List Char} (hpart : part ≠ [])
    (h : part <:+: text) : ∃ i < text.length, OccursAt part text i := by
  obtain ⟨before, after, rfl⟩ := h
  refine ⟨before.length, ?_, ?_⟩
  · have hlength := List.length_pos_iff.mpr hpart
    simp only [List.length_append]
    omega
  · rw [OccursAt, List.append_assoc, List.drop_left]
    exact List.prefix_append _ _

theorem infix_of_occursAt {i : Nat} (h : OccursAt part text i) : part <:+: text :=
  h.isInfix.trans (List.drop_suffix i text).isInfix

/-- The piece that is being read and the rest of the text are cut, if the separator occurs
nowhere in what has been read of the piece. -/
theorem cut_pieces {separator : List Char} (hseparator : separator ≠ [])
    (piece text : List Char)
    (hpiece : ∀ i < piece.length, ¬ OccursAt separator (piece.reverse ++ text) i) :
    Cut separator (piece.reverse ++ text) (pieces separator 0 piece text) := by
  -- A match is passed over as a whole, so the induction is on the length of the text.
  induction hlength : text.length using Nat.strongRecOn generalizing piece text with
  | ind n ih =>
    subst hlength
    cases text with
    | nil =>
      rw [List.append_nil] at hpiece ⊢
      rw [pieces]
      apply Cut.last
      intro hinfix
      obtain ⟨i, hi, hoccurs⟩ := exists_occursAt_of_infix hseparator hinfix
      exact hpiece i (List.length_reverse ▸ hi) hoccurs
    | cons c text =>
      rw [pieces]
      by_cases hat : separator <+: c :: text
      · obtain ⟨rest, hrest⟩ := hat
        have hdrop : text.drop (separator.length - 1) = rest :=
          calc text.drop (separator.length - 1)
            _ = (c :: text).drop (separator.length - 1 + 1) := List.drop_succ_cons.symm
            _ = (separator ++ rest).drop separator.length := by
              rw [hrest, Nat.sub_add_cancel (List.length_pos_iff.mpr hseparator)]
            _ = rest := List.drop_left
        rw [if_pos (isSome_after?_iff.mpr ⟨rest, hrest⟩), pieces_drop, hdrop]
        rw [← hrest, ← List.append_assoc] at hpiece ⊢
        apply Cut.more
        · rwa [List.length_reverse]
        · refine ih rest.length ?_ [] rest (by simp) rfl
          have hsum := congrArg List.length hrest
          have hpos := List.length_pos_iff.mpr hseparator
          simp only [List.length_append, List.length_cons] at hsum ⊢
          omega
      · rw [if_neg (isSome_after?_iff.not.mpr hat)]
        have hread : (c :: piece).reverse ++ text = piece.reverse ++ c :: text := by
          rw [List.reverse_cons, List.append_assoc]
          rfl
        rw [← hread] at hpiece ⊢
        refine ih text.length (Nat.lt_succ_self _) (c :: piece) text ?_ rfl
        intro i hi
        rcases Nat.lt_succ_iff_lt_or_eq.mp hi with hbefore | rfl
        · exact hpiece i hbefore
        · rw [OccursAt, hread, ← List.length_reverse, List.drop_left]
          exact hat

namespace Cut

variable {separator : List Char} {pieces : List (List Char)}

theorem ne_nil (h : Cut separator text pieces) : pieces ≠ [] := by
  cases h <;> exact List.cons_ne_nil _ _

/-- Nothing is lost but the separators between the pieces. -/
theorem intercalate_eq (h : Cut separator text pieces) :
    separator.intercalate pieces = text := by
  induction h with
  | last => exact List.intercalate_singleton
  | more _ hrest ih => rw [List.intercalate_cons_of_ne_nil hrest.ne_nil, ih]

/-- The separator occurs in no piece. -/
theorem not_infix (hseparator : separator ≠ []) (h : Cut separator text pieces) :
    ∀ piece ∈ pieces, ¬ separator <:+: piece := by
  induction h with
  | last hnone => simpa using hnone
  | @more piece rest pieces hfirst _ ih =>
    intro piece' hmem
    rcases List.mem_cons.mp hmem with rfl | hlater
    · intro hinfix
      obtain ⟨i, hi, hoccurs⟩ := exists_occursAt_of_infix hseparator hinfix
      apply hfirst i hi
      rw [OccursAt, List.append_assoc, List.drop_append_of_le_length (Nat.le_of_lt hi)]
      exact hoccurs.trans (List.prefix_append _ _)
    · exact ih piece' hlater

/-- There is one piece more than there are occurrences. -/
theorem exists_leftmost (h : Cut separator text pieces) (whole : List Char) (start : Nat)
    (htext : whole.drop start = text) :
    ∃ positions, Leftmost separator whole start positions ∧
      pieces.length = positions.length + 1 := by
  induction h generalizing start with
  | last hnone =>
    refine ⟨[], .none fun i hi hoccurs => hnone ?_, rfl⟩
    obtain ⟨k, rfl⟩ := Nat.exists_eq_add_of_le hi
    rw [← occursAt_drop, htext] at hoccurs
    exact infix_of_occursAt hoccurs
  | @more piece rest pieces hfirst _ ih =>
    have hrest : whole.drop (start + piece.length + separator.length) = rest := by
      rw [Nat.add_assoc, ← List.drop_drop, htext, ← List.length_append, List.drop_left]
    obtain ⟨positions, hleftmost, hcount⟩ := ih _ hrest
    refine ⟨(start + piece.length) :: positions,
      .next (Nat.le_add_right _ _) ?_ ?_ hleftmost, congrArg (· + 1) hcount⟩
    · rw [← occursAt_drop, htext, OccursAt, List.append_assoc, List.drop_left]
      exact List.prefix_append _ _
    · intro j hj hbefore hoccurs
      obtain ⟨k, rfl⟩ := Nat.exists_eq_add_of_le hj
      rw [← occursAt_drop, htext] at hoccurs
      exact hfirst k (Nat.lt_of_add_lt_add_left hbefore) hoccurs

end Cut

theorem toList_ne_nil {text : String} (h : text ≠ "") : text.toList ≠ [] :=
  String.toList_eq_nil_iff.not.mpr h

theorem map_toList_splitOn {separator : String} (hseparator : separator ≠ "")
    (text : String) :
    (splitOn separator text).map String.toList =
      pieces separator.toList 0 [] text.toList := by
  rw [splitOn, if_neg (String.isEmpty_iff.not.mpr hseparator), List.map_map]
  exact (List.map_congr_left fun _ _ => String.toList_ofList).trans (List.map_id _)

/-- A text is split where the separator occurs in it. -/
theorem cut_splitOn {separator : String} (hseparator : separator ≠ "") (text : String) :
    Cut separator.toList text.toList ((splitOn separator text).map String.toList) := by
  rw [map_toList_splitOn hseparator]
  exact cut_pieces (toList_ne_nil hseparator) [] text.toList (by simp)

end Text

/-! ### Replacing -/

namespace Text

variable {part : List Char}

theorem pieces_ne_nil (skip : Nat) (piece text : List Char) :
    pieces part skip piece text ≠ [] := by
  induction text generalizing skip piece with
  | nil => simp [pieces]
  | cons c text ih =>
    cases skip with
    | zero =>
      rw [pieces]
      split
      · exact List.cons_ne_nil _ _
      · exact ih 0 (c :: piece)
    | succ skip => exact ih skip piece

/-- A copy with `new` in the place of each occurrence is what the pieces are with `new`
between them.  The piece that is being read comes before the copy of the rest. -/
theorem intercalate_pieces_eq (hpart : part ≠ []) (new piece text : List Char) (skip : Nat) :
    new.intercalate (pieces part skip piece text) =
      piece.reverse ++ replaced part new skip text := by
  -- Both read the text character by character and pass over the same ones.
  induction text generalizing skip piece with
  | nil => cases skip <;> simp [pieces, replaced, hpart]
  | cons c text ih =>
    cases skip with
    | succ skip => rw [pieces, replaced, ih]
    | zero =>
      obtain ⟨first, others, rfl⟩ := List.exists_cons_of_ne_nil hpart
      rw [pieces, replaced]
      by_cases hat : (after? (first :: others) (c :: text)).isSome
      · rw [if_pos hat, if_pos hat, List.intercalate_cons_of_ne_nil (pieces_ne_nil _ _ _), ih]
        simp
      · rw [if_neg hat, if_neg hat, ih]
        simp

/-- Replacing is joining what splitting gives. -/
theorem replace_eq_intercalate {part : String} (hpart : part ≠ "") (new text : String) :
    replace part new text = new.intercalate (splitOn part text) := by
  apply String.toList_inj.mp
  rw [replace, String.toList_ofList, String.toList_intercalate, map_toList_splitOn hpart,
    intercalate_pieces_eq (toList_ne_nil hpart)]
  rfl

end Text

/-! ### Calls -/

namespace Builtin

theorem intercalate_nil_left {α : Type} (xs : List (List α)) :
    [].intercalate xs = xs.flatten := by
  induction xs with
  | nil => rfl
  | cons x xs ih =>
    cases xs with
    | nil => simp
    | cons y xs =>
      rw [List.intercalate_cons_cons, ih, List.append_nil, List.flatten_cons (l := x)]

theorem pieces_of_ne_empty {separator : String} (hseparator : separator ≠ "")
    (text : String) : pieces separator text = Text.splitOn separator text :=
  if_neg (String.isEmpty_iff.not.mpr hseparator)

/-- The pieces with the separator between them are the text. -/
theorem intercalate_pieces (separator text : String) :
    separator.intercalate (pieces separator text) = text := by
  apply String.toList_inj.mp
  rw [String.toList_intercalate]
  by_cases hseparator : separator = ""
  · subst hseparator
    have hchars : (pieces "" text).map String.toList = text.toList.map fun c => [c] := by
      rw [pieces, if_pos (String.isEmpty_iff.mpr rfl), List.map_map]
      exact List.map_congr_left fun c _ => String.toList_singleton c
    calc "".toList.intercalate ((pieces "" text).map String.toList)
      _ = (text.toList.map fun c => [c]).flatten := by
        rw [hchars, String.toList_empty, intercalate_nil_left]
      _ = text.toList := by
        rw [← List.flatMap_def, List.flatMap_singleton']
  · rw [pieces_of_ne_empty hseparator]
    exact (Text.cut_splitOn hseparator text).intercalate_eq

end Builtin

theorem Heap.display_str (h : Heap) (text : String) : h.display (.str text) = text :=
  h.textOn_plain (by simp [containers, Value.kind])

namespace Evaluator

variable (ev : Evaluator) (loc : Location) (m : Machine)

/-- A value that a function replies is what the call gives, and nothing else happens. -/
theorem callBuiltin_of_reply {f : Builtin} {ask : Heap → List Value → Builtin.Reply}
    (hf : f.reply? = some ask) {args : List Value} {v : Value}
    (hv : ask m.heap args = Builtin.reply v) : ev.callBuiltin f args loc m = .done v m := by
  have hasked : Eval.askHeap loc (ask · args) m = .done (.value v) m := by
    rw [Eval.askHeap, hv]
    rfl
  unfold callBuiltin
  rw [hf]
  exact Eval.bind_of_done hasked

theorem callBuiltin_of_problem {f : Builtin} {ask : Heap → List Value → Builtin.Reply}
    (hf : f.reply? = some ask) {args : List Value} {problem : Problem}
    (hproblem : ask m.heap args = .error problem) :
    ev.callBuiltin f args loc m = .left (.failed problem loc) m := by
  have hasked : Eval.askHeap loc (ask · args) m = .left (.failed problem loc) m := by
    rw [Eval.askHeap, hproblem]
  unfold callBuiltin
  rw [hf]
  exact Eval.bind_of_left hasked

/-- Texts are joined as they are. -/
theorem callBuiltin_join {cell : Nat} {texts : List String}
    (hitems : m.heap.items cell = (texts.map Value.str).toArray) (separator : String) :
    ev.callBuiltin .join [.array cell, .str separator] loc m =
      .done (.str (separator.intercalate texts)) m := by
  have hdisplayed : (m.heap.items cell).toList.map m.heap.display = texts := by
    rw [hitems, List.map_map]
    exact (List.map_congr_left fun text _ => m.heap.display_str text).trans (List.map_id _)
  rw [← hdisplayed]
  rfl

end Evaluator

/-- Splitting a text gives a new array of pieces.  Joined with the separator they are the
text again, whatever the separator is.  If it is not empty, it occurs in none of the
pieces, there is one piece more than there are occurrences in the text, counted from the
left and without overlap, and joining the pieces with another text is to replace the
separator by that one. -/
theorem split_join_replace_consistent (ev : Evaluator) (loc : Location) (m : Machine)
    (text separator : String) :
    let pieces := Builtin.pieces separator text
    ∃ cell m₁,
      ev.callBuiltin .split [.str text, .str separator] loc m = .done (.array cell) m₁ ∧
      m₁.heap.items cell = (pieces.map Value.str).toArray ∧
      ev.callBuiltin .join [.array cell, .str separator] loc m₁ = .done (.str text) m₁ ∧
      (separator ≠ "" →
        (∀ piece ∈ pieces, ¬ separator.toList <:+: piece.toList) ∧
        (∃ positions, pieces.length = positions.length + 1 ∧
          ∀ others, Text.Leftmost separator.toList text.toList 0 others ↔
            others = positions) ∧
        ∀ new, ∃ result,
          (∀ m', ev.callBuiltin .replace [.str text, .str separator, .str new] loc m' =
            .done (.str result) m') ∧
          ev.callBuiltin .join [.array cell, .str new] loc m₁ = .done (.str result) m₁) := by
  intro pieces
  have hitems := (m.heap.items_newArray
    (pieces.map Value.str).toArray m.heap.arrays.size).trans (if_pos rfl)
  refine ⟨_, _, rfl, hitems, ?_, fun hseparator => ?_⟩
  · rw [ev.callBuiltin_join loc _ hitems, Builtin.intercalate_pieces]
  have hsplit : pieces = Text.splitOn separator text :=
    Builtin.pieces_of_ne_empty hseparator text
  have hcut : Text.Cut separator.toList text.toList (pieces.map String.toList) :=
    hsplit ▸ Text.cut_splitOn hseparator text
  refine ⟨?_, ?_, ?_⟩
  · intro piece hpiece
    exact hcut.not_infix (Text.toList_ne_nil hseparator) _ (List.mem_map_of_mem hpiece)
  · obtain ⟨positions, hleftmost, hcount⟩ :=
      hcut.exists_leftmost text.toList 0 rfl
    refine ⟨positions, ?_, fun others => ⟨fun hothers => hothers.unique hleftmost, ?_⟩⟩
    · rwa [List.length_map] at hcount
    · rintro rfl
      exact hleftmost
  · intro new
    refine ⟨Text.replace separator new text, fun m' => rfl, ?_⟩
    rw [ev.callBuiltin_join loc _ hitems, hsplit, Text.replace_eq_intercalate hseparator]

/-- An evaluator that is asked for nothing. -/
def idleEvaluator : Evaluator :=
  { settings := ⟨1, .empty⟩, rounds := 0, run := fun _ => Eval.outOfBound }

/-- Of three occurrences that overlap, two are where the text is split. -/
theorem split_join_replace_consistent_overlapping :
    "aba" ≠ "" ∧ ∃ (cell : Nat) (m : Machine) (positions : List Nat),
      idleEvaluator.callBuiltin .split [.str "abababa", .str "aba"] default {} =
        .done (.array cell) m ∧
      m.heap.items cell = #[.str "", .str "b", .str ""] ∧
      idleEvaluator.callBuiltin .join [.array cell, .str "aba"] default m =
        .done (.str "abababa") m ∧
      Text.Leftmost "aba".toList "abababa".toList 0 positions ∧ positions.length = 2 := by
  have hpieces : Builtin.pieces "aba" "abababa" = ["", "b", ""] := by decide +kernel
  obtain ⟨cell, m, hsplit, hitems, hjoin, hrest⟩ :=
    split_join_replace_consistent idleEvaluator default {} "abababa" "aba"
  obtain ⟨-, ⟨positions, hcount, hleftmost⟩, -⟩ := hrest (by decide)
  rw [hpieces] at hitems hcount
  exact ⟨by decide, cell, m, positions, hsplit, hitems, hjoin, (hleftmost _).mpr rfl,
    (Nat.succ.inj hcount).symm⟩

end Script
