import Script.Value.Heap

/-!
# Equality of values

When two values are equal, and whether they can be compared at all.  Containers
are equal if their contents are.  Where the comparison comes back to a pair of
containers that it is comparing already, they have matched so far and count as
equal.
-/

namespace Script

open Std (ExtTreeMap)

/-- Compares two values that are not containers; nothing if they cannot be
compared. -/
def Value.plainEqual? : Value → Value → Option Bool
  | .null, .null => some true
  | .null, _ => some false
  | _, .null => some false
  | .int a, .int b => some (a == b)
  | .float a, .float b => some (a == b)
  | .int a, .float b => some (a.toFloat == b)
  | .float a, .int b => some (a == b.toFloat)
  | .bool a, .bool b => some (a == b)
  | .str a, .str b => some (a == b)
  | .char a, .char b => some (a == b)
  | .rune a, .rune b => some (a == b)
  | .char c, .str text => some (text.toList == [c])
  | .str text, .char c => some (text.toList == [c])
  | .byte a, .byte b => some (a == b)
  | .variant a, .variant b => some (a == b)
  | .range a b, .range c d => some (a == c && b == d)
  | .function f, .function g => some (f.id == g.id)
  | .arrow f, .arrow g => some (f.id == g.id)
  | .builtin f, .builtin g => some (f == g)
  | .struct d, .struct e => some (d.id == e.id)
  | .enum d, .enum e => some (d.id == e.id)
  | _, _ => none

namespace Heap

/-- All pairs of containers. -/
def refPairs (h : Heap) : List (Ref × Ref) :=
  h.refs.flatMap fun left => h.refs.map fun right => (left, right)

theorem mem_refPairs {h : Heap} {left right : Ref} (hleft : left ∈ h.refs)
    (hright : right ∈ h.refs) : (left, right) ∈ h.refPairs := by
  simp [refPairs, hleft, hright]

/-- Compares two values, while the pairs of containers on the path are being
compared. -/
def equalOn? (h : Heap) (path : List (Ref × Ref)) (v w : Value) : Option Bool :=
  match v, w with
  | .array a, .array b =>
    if a = b ∨ (.array a, .array b) ∈ path then some true
    else
      let path' := (Ref.array a, Ref.array b) :: path
      some ((h.items a).size == (h.items b).size &&
        ((h.items a).toList.zip (h.items b).toList).attach.all
          fun ⟨pair, _hpair⟩ => (h.equalOn? path' pair.1 pair.2).getD false)
  | .map a, .map b =>
    if a = b ∨ (.map a, .map b) ∈ path then some true
    else
      let path' := (Ref.map a, Ref.map b) :: path
      some ((h.entries a).size == (h.entries b).size &&
        (h.entries a).toList.attach.all fun ⟨entry, _hentry⟩ =>
          match _hfind : (h.entries b)[entry.1]? with
          | none => false
          | some other =>
            (h.equalOn? path' entry.2.value other.value).getD false)
  | .record a, .record b =>
    if a = b ∨ (.record a, .record b) ∈ path then some true
    else
      let path' := (Ref.record a, Ref.record b) :: path
      some ((h.instanceAt a).struct.id == (h.instanceAt b).struct.id &&
        (h.instanceAt a).fields.toList.attach.all fun ⟨field, _hfield⟩ =>
          match _hfind : (h.instanceAt b).fields[field.1]? with
          | none => false
          | some other => (h.equalOn? path' field.2 other).getD false)
  | v, w => v.plainEqual? w
termination_by offPath h.refPairs path
decreasing_by
  · have hpair := List.of_mem_zip _hpair
    exact offPath_cons_lt
      (mem_refPairs (array_mem_refs hpair.1) (array_mem_refs hpair.2))
      (not_or.mp ‹_›).2
  · have hentry := ExtTreeMap.mem_toList_iff_getElem?_eq_some.mp _hentry
    exact offPath_cons_lt
      (mem_refPairs (map_mem_refs hentry) (map_mem_refs _hfind))
      (not_or.mp ‹_›).2
  · have hfield := ExtTreeMap.mem_toList_iff_getElem?_eq_some.mp _hfield
    exact offPath_cons_lt
      (mem_refPairs (record_mem_refs hfield) (record_mem_refs _hfind))
      (not_or.mp ‹_›).2

/-- Whether two values are equal; nothing if they cannot be compared. -/
def equal? (h : Heap) (v w : Value) : Option Bool := h.equalOn? [] v w

/-- Whether two values can be compared and are equal. -/
def same (h : Heap) (v w : Value) : Bool := h.equal? v w == some true

end Heap

end Script
