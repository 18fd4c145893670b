import Script.Proofs.Value.Paths

/-!
# Printing shared and cyclic data

What is printed of a value goes from containers to their parts, and it keeps the path of
containers that it is inside of.  Each step to a new container leaves fewer of them off
the path, so printing ends however the containers are tied together.  Where no container
is a part of itself, none is met again, and the text is that of the tree which the value
unfolds to: what is shared stands in it as often as it is reached.
-/

namespace Script

/-! ### The text around the parts -/

/-- What is printed of a container besides its parts. -/
inductive Shape where
  | array
  | map (keys : List Value)
  | record (name : String) (fields : List String)

namespace Shape

/-- The text of a container with the given texts of its parts. -/
def text : Shape → List String → String
  | array, parts => "[" ++ ", ".intercalate parts ++ "]"
  | map keys, parts =>
    "\x7b" ++ ", ".intercalate (sortTexts (keys.zipWith
      (fun key part => key.plainText true ++ ": " ++ part) parts)) ++ "\x7d"
  | record name fields, parts =>
    name ++ " \x7b" ++ ", ".intercalate (fields.zipWith
      (fun field part => field ++ ": " ++ part) parts) ++ "\x7d"

/-- What stands for a container inside of itself. -/
def dots : Shape → String
  | array => "[...]"
  | map _ => "\x7b...\x7d"
  | record name _ => name ++ " \x7b...\x7d"

end Shape

namespace Heap

variable (h : Heap)

def shape : Ref → Shape
  | .array _ => .array
  | .map cell => .map ((h.storedEntries cell).map (·.2.key))
  | .record cell =>
    .record (h.instanceAt cell).struct.name (h.instanceAt cell).struct.fields

variable {h} {quoted : Bool} {path : List Ref} {r : Ref}

theorem textOn_seen (hseen : r ∈ path) :
    h.textOn quoted path r.value = (h.shape r).dots := by
  cases r <;> exact (textOn.eq_def ..).trans (if_pos hseen)

/-- A container that has not been met is printed with its parts inside of it. -/
theorem textOn_new (hnew : r ∉ path) :
    h.textOn quoted path r.value =
      (h.shape r).text ((h.parts r).map fun part => h.textOn true (r :: path) part.2) := by
  cases r with
  | array cell => rw [Ref.value, textOn_array h hnew, map_parts_array, shape, Shape.text]
  | map cell =>
    rw [Ref.value, textOn_map h hnew, map_parts_map, shape, Shape.text, List.zipWith_map,
      List.zipWith_self]
  | record cell =>
    have hfield (name : String) : h.fieldText (.record cell :: path)
        (h.instanceAt cell).fields name =
          name ++ ": " ++ h.textOn true (.record cell :: path) (h.fieldAt cell name) := by
      rw [fieldText, fieldAt]
      cases (h.instanceAt cell).fields[name]? with
      | none =>
        rw [Option.getD_none, textOn_plain h (of_decide_eq_true rfl), String.append_assoc]
        rfl
      | some value => rfl
    rw [Ref.value, textOn_record h hnew, map_parts_record, shape, Shape.text,
      List.zipWith_map_right, List.zipWith_self, funext hfield]

/-! ### Printing ends -/

variable (h) in
/-- The text of a value, if it is found with fewer than that many containers inside one
another. -/
def textWithin? : Nat → Bool → List Ref → Value → Option String
  | 0, _, _, _ => none
  | n + 1, quoted, path, v =>
    match v.ref? with
    | none => some (v.plainText quoted)
    | some r =>
      if r ∈ path then some (h.shape r).dots
      else
        ((h.parts r).mapM fun part => textWithin? n true (r :: path) part.2).map
          (h.shape r).text

/-- By induction on the bound, which is larger than the number of containers that are
not on the path. -/
theorem textWithin?_eq {n : Nat} {v : Value} (hn : offPath h.refs path < n) :
    h.textWithin? n quoted path v = some (h.textOn quoted path v) := by
  induction n generalizing quoted path v with
  | zero => cases hn
  | succ n ih =>
    rw [textWithin?]
    cases hcontainer : v.ref? with
    | none => rw [textOn_plain h (Value.ref?_eq_none_iff.mp hcontainer)]
    | some r =>
      rw [Value.eq_of_ref? hcontainer]
      by_cases hseen : r ∈ path
      · rw [textOn_seen hseen]
        exact if_pos hseen
      · have hparts : ∀ part ∈ h.parts r, h.textWithin? n true (r :: path) part.2 =
            some (h.textOn true (r :: path) part.2) := fun part hpart =>
          ih (by have := offPath_cons_lt (mem_refs_of_part hpart) hseen; omega)
        rw [textOn_new hseen]
        dsimp only
        rw [if_neg hseen, mapM_eq_some_map hparts, Option.map_some]

/-! ### Printing is faithful -/

variable (h) in
/-- While a value is printed, the other one is printed inside the containers of the
path. -/
inductive Prints (v : Value) : List Ref → Value → Prop where
  | start : Prints v [] v
  | part {path : List Ref} {w u : Value} {r : Ref} {s : Selector}
    (hprints : Prints v path w) (hcontainer : w.ref? = some r) (hnew : r ∉ path)
    (hpart : (s, u) ∈ h.parts r) : Prints v (r :: path) u

/-- What is printed can be reached, and from each container on the path there leads a
path on to it. -/
theorem Prints.leads {v w : Value} (hprints : h.Prints v path w) :
    (∃ way, h.Leads v way w) ∧ ∀ r ∈ path, ∃ way, way ≠ [] ∧ h.Leads r.value way w := by
  induction hprints with
  | start => exact ⟨⟨[], .here v⟩, by simp⟩
  | part _ hcontainer _ hpart ih =>
    obtain ⟨⟨way, hway⟩, habove⟩ := ih
    have hstep := leads_part hcontainer hpart
    refine ⟨⟨_, hway.trans hstep⟩, fun r hr => ?_⟩
    rcases List.mem_cons.mp hr with rfl | hr
    · exact ⟨_, by simp, Value.eq_of_ref? hcontainer ▸ hstep⟩
    · obtain ⟨way', -, hway'⟩ := habove r hr
      exact ⟨_, by simp, hway'.trans hstep⟩

variable (h) in
/-- Nothing that can be reached from the value is reached from itself. -/
def Acyclic (v : Value) : Prop :=
  ∀ path w, h.Leads v path w → ∀ loop, h.Leads w loop w → loop = []

/-- Where every container stands above its parts, nothing is reached from itself. -/
theorem acyclic_of_rank (rank : Value → Nat)
    (hrank : ∀ r ∈ h.refs, ∀ part ∈ h.parts r, rank part.2 < rank r.value) (v : Value) :
    h.Acyclic v := by
  have hdown : ∀ {w path u}, h.Leads w path u → path = [] ∨ rank u < rank w := by
    intro w path u hleads
    induction hleads with
    | here w => exact Or.inl rfl
    | @through w next u r s path hcontainer hpart _ ih =>
      have hstep := hrank r (mem_refs_of_part hpart) _ hpart
      rw [← Value.eq_of_ref? hcontainer] at hstep
      rcases ih with rfl | hless
      · cases ‹h.Leads next [] u›
        exact Or.inr hstep
      · exact Or.inr (Nat.lt_trans hless hstep)
  exact fun path w _ loop hloop => (hdown hloop).resolve_right (Nat.lt_irrefl _)

/-- No container is met again. -/
theorem Acyclic.prints_new {v w : Value} (hacyclic : h.Acyclic v)
    (hprints : h.Prints v path w) (hcontainer : w.ref? = some r) : r ∉ path := by
  intro hseen
  obtain ⟨⟨way, hway⟩, habove⟩ := hprints.leads
  obtain ⟨loop, hloop, hback⟩ := habove r hseen
  rw [← Value.eq_of_ref? hcontainer] at hback
  exact hloop (hacyclic way w hway loop hback)

end Heap

/-- A value with all that can be reached from it, as often as it is reached. -/
inductive Tree where
  | leaf (v : Value)
  | node (shape : Shape) (parts : List Tree)

/-- The text of a tree; it is quoted inside of containers. -/
def Tree.text (quoted : Bool) : Tree → String
  | leaf v => v.plainText quoted
  | node shape parts => shape.text (parts.map (text true))

namespace Heap

variable {h : Heap} {path : List Ref}

variable (h) in
/-- The tree that a value unfolds to, if it has fewer levels than that. -/
def tree? : Nat → Value → Option Tree
  | 0, _ => none
  | n + 1, v =>
    match v.ref? with
    | none => some (.leaf v)
    | some r => ((h.parts r).mapM fun part => tree? n part.2).map (.node (h.shape r))

/-- By induction on the bound again: what is printed unfolds to a tree, whose text it
has. -/
theorem Acyclic.tree?_of_prints {v : Value} (hacyclic : h.Acyclic v) {n : Nat}
    {w : Value} (hprints : h.Prints v path w) (hn : offPath h.refs path < n) :
    ∃ t, h.tree? n w = some t ∧ ∀ quoted, h.textOn quoted path w = t.text quoted := by
  induction n generalizing path w with
  | zero => cases hn
  | succ n ih =>
    rw [tree?]
    cases hcontainer : w.ref? with
    | none =>
      refine ⟨_, rfl, fun quoted => ?_⟩
      rw [textOn_plain h (Value.ref?_eq_none_iff.mp hcontainer), Tree.text]
    | some r =>
      have hnew := hacyclic.prints_new hprints hcontainer
      have hparts : ∀ part ∈ h.parts r, ∃ t, h.tree? n part.2 = some t ∧
          h.textOn true (r :: path) part.2 = t.text true := fun part hpart => by
        have hfewer := offPath_cons_lt (mem_refs_of_part hpart) hnew
        obtain ⟨t, hunfold, htext⟩ := ih (hprints.part hcontainer hnew hpart) (by omega)
        exact ⟨t, hunfold, htext true⟩
      obtain ⟨ts, hts, htexts⟩ := mapM_eq_some_of_forall hparts
      refine ⟨.node (h.shape r) ts, by simp only [hts, Option.map_some], fun quoted => ?_⟩
      rw [Value.eq_of_ref? hcontainer, textOn_new hnew, htexts, Tree.text]

/-- Printing a value ends whatever it contains: as many levels as there are containers
in the heap are enough, and one more for what is in the last one.  If nothing contains
itself, no container is printed inside of itself, so no dots stand for one, and the
text is that of the tree which the value unfolds to. -/
theorem printing_ends_and_unfolds (h : Heap) (v : Value) :
    (∀ bound, h.refs.length < bound →
      h.textWithin? bound false [] v = some (h.display v) ∧
      h.textWithin? bound true [] v = some (h.repr v)) ∧
    (h.Acyclic v →
      (∀ path w r, h.Prints v path w → w.ref? = some r → r ∉ path) ∧
      ∀ bound, h.refs.length < bound → ∃ t, h.tree? bound v = some t ∧
        h.display v = t.text false ∧ h.repr v = t.text true) := by
  rw [← offPath_nil h.refs]
  refine ⟨fun bound hbound => ⟨textWithin?_eq hbound, textWithin?_eq hbound⟩,
    fun hacyclic => ⟨fun path w r => hacyclic.prints_new, fun bound hbound => ?_⟩⟩
  obtain ⟨t, hunfold, htext⟩ := hacyclic.tree?_of_prints .start hbound
  exact ⟨t, hunfold, htext false, htext true⟩

/-- An array that stands in another one twice. -/
def twiceInside : Heap := { arrays := #[#[.int 2], #[.array 0, .array 0]] }

/-- What is in an array of `twiceInside` ranks below the array. -/
def twiceInside.rank : Value → Nat
  | .array cell => cell + 1
  | _ => 0

theorem printing_ends_and_unfolds_twiceInside :
    twiceInside.Acyclic (.array 1) ∧ twiceInside.display (.array 1) = "[[2], [2]]" := by
  have hrank : ∀ r ∈ twiceInside.refs, ∀ part ∈ twiceInside.parts r,
      twiceInside.rank part.2 < twiceInside.rank r.value := by decide
  have hacyclic := acyclic_of_rank twiceInside.rank hrank (.array 1)
  let inner := Tree.node .array [.leaf (.int 2)]
  have hinner : twiceInside.tree? 3 (.array 1) = some (.node .array [inner, inner]) := rfl
  obtain ⟨t, hunfold, hdisplay, -⟩ :=
    ((printing_ends_and_unfolds twiceInside (.array 1)).2 hacyclic).2 3 (by decide)
  rw [hinner, Option.some.injEq] at hunfold
  subst hunfold
  refine ⟨hacyclic, hdisplay.trans ?_⟩
  simp only [Tree.text, List.map, inner]
  decide +kernel

end Heap

end Script
