import Script.Proofs.Value.Pairing
import Script.Proofs.Value.Printing

/-!
# The order of the entries of a map

The entries of a map are somewhere in memory, and nothing that is shown of them depends
on where.  Where the entries are gone through, they are sorted by the texts of their keys,
and where a map is printed, the texts of its entries are sorted.  A map is compared with
another one by looking up keys.
-/

namespace Script

open Std (ExtTreeMap)

/-! ### Sorting by texts -/

section

variable {α : Type} (text : α → String)

theorem pairwise_mergeSort_text (xs : List α) :
    (xs.mergeSort fun x y => !decide (text y < text x)).Pairwise
      fun x y => text x ≤ text y := by
  let le : α → α → Bool := fun x y => !decide (text y < text x)
  have hle : ∀ x y, le x y = true ↔ text x ≤ text y := fun x y => by
    simp only [le, Bool.not_eq_true', decide_eq_false_iff_not, String.not_lt]
  have hsorted : (xs.mergeSort le).Pairwise fun x y => le x y = true :=
    List.pairwise_mergeSort
      (fun x y z hxy hyz => (hle x z).mpr
        (String.le_trans ((hle x y).mp hxy) ((hle y z).mp hyz)))
      (fun x y => by
        rw [Bool.or_eq_true, hle, hle]
        exact String.le_total (text x) (text y)) xs
  exact hsorted.imp fun hxy => (hle _ _).mp hxy

/-- What is sorted by texts that tell the items apart does not depend on the order that
it had. -/
theorem mergeSort_text_eq_of_perm {xs ys : List α} (hperm : xs.Perm ys)
    (hdistinct : ∀ x ∈ xs, ∀ y ∈ xs, text x = text y → x = y) :
    (xs.mergeSort fun x y => !decide (text y < text x)) =
      ys.mergeSort fun x y => !decide (text y < text x) := by
  have hxs := List.mergeSort_perm xs fun x y => !decide (text y < text x)
  have hys := List.mergeSort_perm ys fun x y => !decide (text y < text x)
  refine List.Perm.eq_of_pairwise (fun x y hx hy hle hge => ?_)
    (pairwise_mergeSort_text text xs) (pairwise_mergeSort_text text ys)
    (hxs.trans (hperm.trans hys.symm))
  exact hdistinct x (hxs.mem_iff.mp hx) y (hperm.mem_iff.mpr (hys.mem_iff.mp hy))
    (String.le_antisymm hle hge)

end

theorem sortTexts_eq_of_perm {texts texts' : List String} (hperm : texts.Perm texts') :
    sortTexts texts = sortTexts texts' :=
  mergeSort_text_eq_of_perm id hperm fun _ _ _ _ heq => heq

namespace Heap

/-! ### Heaps with entries in another order -/

/-- The heaps hold the same, with the entries of each map in whatever order. -/
structure Shuffled (h h' : Heap) : Prop where
  items : ∀ cell, h'.items cell = h.items cell
  entries : ∀ cell, h'.entries cell = h.entries cell
  instances : ∀ cell, h'.instanceAt cell = h.instanceAt cell

variable {h h' : Heap} {path path' : List Ref} {a b : Nat}

theorem Shuffled.refl (h : Heap) : h.Shuffled h where
  items := fun _ => rfl
  entries := fun _ => rfl
  instances := fun _ => rfl

/-- Maps with the same entries have them in memory in some order each. -/
theorem storedEntries_perm (hsame : h.entries a = h'.entries b) :
    (h.storedEntries a).Perm (h'.storedEntries b) := by
  rw [storedEntries, storedEntries, hsame]
  exact (List.mergeSort_perm _ _).trans (List.mergeSort_perm _ _).symm

theorem Shuffled.fieldAt_eq (hshuffled : h.Shuffled h') (cell : Nat) :
    h'.fieldAt cell = h.fieldAt cell := by
  funext name
  rw [fieldAt, fieldAt, hshuffled.instances]

theorem Shuffled.parts_perm (hshuffled : h.Shuffled h') (r : Ref) :
    (h'.parts r).Perm (h.parts r) := by
  cases r with
  | array cell => rw [parts, parts, hshuffled.items]
  | map cell => exact (storedEntries_perm (hshuffled.entries cell)).map _
  | record cell =>
    rw [parts, parts, hshuffled.instances, hshuffled.fieldAt_eq]

/-- A container is printed in the same way if its parts are. -/
theorem Shuffled.shape_text (hshuffled : h.Shuffled h') (r : Ref) (text : Value → String) :
    (h'.shape r).text ((h'.parts r).map fun part => text part.2) =
      (h.shape r).text ((h.parts r).map fun part => text part.2) := by
  cases r with
  | array cell => rw [map_parts_array, map_parts_array, hshuffled.items]; rfl
  | map cell =>
    rw [map_parts_map, map_parts_map, shape, shape, Shape.text, Shape.text,
      List.zipWith_map, List.zipWith_map, List.zipWith_self, List.zipWith_self,
      sortTexts_eq_of_perm ((storedEntries_perm (hshuffled.entries cell)).map _)]
  | record cell =>
    rw [map_parts_record, map_parts_record, shape, shape, hshuffled.instances,
      hshuffled.fieldAt_eq]

theorem Shuffled.shape_dots (hshuffled : h.Shuffled h') (r : Ref) :
    (h'.shape r).dots = (h.shape r).dots := by
  cases r with
  | array | map => rfl
  | record cell => rw [shape, shape, hshuffled.instances]

/-- The text of a value depends on the path only as far as the containers on it can be
reached from the value.  By induction on the number of containers off the path. -/
theorem Shuffled.textOn_eq (hshuffled : h.Shuffled h') {n : Nat}
    (hn : offPath h.refs path < n) {v : Value}
    (hpath : ∀ way r, h.Leads v way r.value → (r ∈ path ↔ r ∈ path')) (quoted : Bool) :
    h'.textOn quoted path' v = h.textOn quoted path v := by
  induction n generalizing path path' v quoted with
  | zero => cases hn
  | succ n ih =>
    cases hcontainer : v.ref? with
    | none =>
      have hplain := Value.ref?_eq_none_iff.mp hcontainer
      rw [textOn_plain h hplain, textOn_plain h' hplain]
    | some r =>
      obtain rfl := Value.eq_of_ref? hcontainer
      by_cases hseen : r ∈ path
      · rw [textOn_seen hseen, textOn_seen ((hpath [] r (.here _)).mp hseen),
          hshuffled.shape_dots]
      · have hnew : r ∉ path' := fun hmem => hseen ((hpath [] r (.here _)).mpr hmem)
        rw [textOn_new hseen, textOn_new hnew,
          ← hshuffled.shape_text r (h.textOn true (r :: path))]
        refine congrArg (h'.shape r).text (List.map_congr_left fun part hpart => ?_)
        have hmem := (hshuffled.parts_perm r).mem_iff.mp hpart
        have hfewer := offPath_cons_lt (mem_refs_of_part hmem) hseen
        refine ih (by omega) (fun way r' hway => ?_) true
        have hwhole := hpath (part.1 :: way) r' (.through hcontainer hmem hway)
        rw [List.mem_cons, List.mem_cons, hwhole]

/-! ### Maps with the same entries -/

/-- No two keys of a map have the same text. -/
def KeysApart (h : Heap) (cell : Nat) : Prop :=
  ∀ x ∈ (h.entries cell).toList, ∀ y ∈ (h.entries cell).toList,
    h.repr x.2.key = h.repr y.2.key → x = y

theorem repr_key {key : Value} {id : MapKey} (hkey : key.mapKey? = some id) :
    h.repr key = key.plainText true := by
  refine textOn_plain h (Value.ref?_eq_none_iff.mp ?_)
  cases key with
  | array | map | record => cases hkey
  | _ => rfl

theorem sortedEntries_eq_of_entries_eq (hkeyed : Keyed (h.entries a))
    (hapart : h.KeysApart a) (hsame : h.entries a = h'.entries b) :
    h.sortedEntries a = h'.sortedEntries b := by
  refine mergeSort_text_eq_of_perm (fun entry : MapEntry => entry.key.plainText true)
    ((storedEntries_perm hsame).map _) fun x hx y hy htext => ?_
  obtain ⟨x, hx', rfl⟩ := List.mem_map.mp hx
  obtain ⟨y, hy', rfl⟩ := List.mem_map.mp hy
  replace hx' : x ∈ (h.entries a).toList := List.mem_mergeSort.mp hx'
  replace hy' : y ∈ (h.entries a).toList := List.mem_mergeSort.mp hy'
  rw [← repr_key (hkeyed.of_mem hx'), ← repr_key (hkeyed.of_mem hy')] at htext
  rw [hapart x hx' y hy' htext]

/-- Two maps with the same entries are printed in the same way, if neither of them is
inside of an entry. -/
theorem Shuffled.display_map_eq (hshuffled : h.Shuffled h')
    (hsame : h.entries a = h'.entries b)
    (houtside : ∀ entry ∈ (h.entries a).toList, ∀ way,
      ¬ h.Leads entry.2.value way (.map a) ∧ ¬ h.Leads entry.2.value way (.map b)) :
    h.display (.map a) = h'.display (.map b) := by
  rw [display, display, textOn_map h List.not_mem_nil, textOn_map h' List.not_mem_nil,
    ← sortTexts_eq_of_perm ((storedEntries_perm hsame).map _)]
  have hvalues : ∀ entry ∈ h.storedEntries a,
      h'.textOn true [.map b] entry.2.value = h.textOn true [.map a] entry.2.value := by
    intro entry hentry
    refine hshuffled.textOn_eq (Nat.lt_succ_self _) (fun way r hway => ?_) true
    obtain ⟨ha, hb⟩ := houtside entry (List.mem_mergeSort.mp hentry) way
    have hnew : r ≠ .map a ∧ r ≠ .map b :=
      ⟨by rintro rfl; exact ha hway, by rintro rfl; exact hb hway⟩
    simp [hnew]
  refine congrArg (fun texts => "\x7b" ++ ", ".intercalate (sortTexts texts) ++ "\x7d")
    (List.map_congr_left fun entry hentry => ?_)
  rw [hvalues entry hentry]

/-- Two maps with the same entries are equal if their values are equal to
themselves. -/
theorem equal?_map_of_entries_eq (hsame : h.entries a = h.entries b)
    (hnan : ∀ entry ∈ (h.entries a).toList, entry.2.value.isNaN = false) :
    h.equal? (.map a) (.map b) = some true := by
  by_cases hseen : Ref.map a = .map b ∨ (Ref.map a, Ref.map b) ∈ []
  · exact equalOn?_seen (r := .map a) (s := .map b) rfl hseen
  have hkeys : (beside? MapEntry.value (h.entries a) (h.entries b)).isSome :=
    isSome_beside?_iff.mpr fun key hkey => hsame ▸ hkey
  obtain ⟨pairs, hpairs⟩ := Option.isSome_iff_exists.mp hkeys
  have hwhole : h.pairs? (.map a) (.map b) = some pairs :=
    (if_pos (by rw [hsame])).trans hpairs
  refine (equalOn?_new (r := .map a) (s := .map b) rfl hseen).trans (congrArg some ?_)
  rw [hwhole, allEqual, List.all_eq_true]
  rintro ⟨u, u'⟩ hpair
  obtain ⟨key, x, y, hx, hy, rfl, rfl⟩ := (mem_of_beside?_eq_some hpairs).mp hpair
  -- the entry under the same key of the other map is the same entry
  obtain rfl : x = y := Option.some.inj (hx.symm.trans (hsame ▸ hy))
  rw [beq_iff_eq]
  exact equalOn?_self (hnan _ (ExtTreeMap.mem_toList_iff_getElem?_eq_some.mpr hx))

end Heap

end Script
