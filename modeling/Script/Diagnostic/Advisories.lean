import Script.Diagnostic

/-!
# Advisories

Warnings and notes about running programs, in the order they came up.  A filter
keeps back what has been reported about a place already.
-/

namespace Script

structure Advisories where
  reports : Array Diagnostic
  /-- The codes and places that are not reported again. -/
  seen : List (Code × Location)
  /-- What is kept back has been reported. -/
  reported : ∀ code loc, (code, loc) ∈ seen →
    ∃ d ∈ reports, d.code = code ∧ d.location? = some loc

namespace Advisories

/-- Nothing has been reported. -/
def empty : Advisories where
  reports := #[]
  seen := []
  reported _ _ hseen := absurd hseen List.not_mem_nil

instance : Inhabited Advisories := ⟨empty⟩

def toList (a : Advisories) : List Diagnostic := a.reports.toList

def size (a : Advisories) : Nat := a.reports.size

instance : Membership Diagnostic Advisories := ⟨fun a d => d ∈ a.reports⟩

def push (a : Advisories) (d : Diagnostic) : Advisories where
  reports := a.reports.push d
  seen := a.seen
  reported code loc hseen := by
    obtain ⟨e, he, hsame⟩ := a.reported code loc hseen
    exact ⟨e, Array.mem_push_of_mem d he, hsame⟩

/-- Adds a report about a place that is not made again. -/
def pushOnce (a : Advisories) (d : Diagnostic) (loc : Location)
    (hplace : d.location? = some loc) : Advisories where
  reports := a.reports.push d
  seen := (d.code, loc) :: a.seen
  reported code loc' hseen := by
    rcases List.mem_cons.mp hseen with heq | hseen
    · obtain ⟨rfl, rfl⟩ := Prod.mk.inj heq
      exact ⟨d, Array.mem_push_self, rfl, hplace⟩
    · exact (a.push d).reported code loc' hseen

/-- Records a report, once for its code and its place; `source` is the text of the
running program.  A report without a place is always recorded, as it is. -/
def record (a : Advisories) (source : Option String) (d : Diagnostic) : Advisories :=
  match hplace : d.location? with
  | none => a.push d
  | some loc =>
    if (d.code, loc) ∈ a.seen then a
    else a.pushOnce (d.showing source) loc (by simpa using hplace)

theorem mem_toList_iff {a : Advisories} {d : Diagnostic} : d ∈ a.toList ↔ d ∈ a :=
  Array.mem_toList_iff

@[simp]
theorem toList_pushOnce (a : Advisories) (d : Diagnostic) (loc : Location)
    (hplace : d.location? = some loc) :
    (a.pushOnce d loc hplace).toList = a.toList ++ [d] :=
  Array.toList_push

theorem record_of_seen {a : Advisories} (source : Option String) {d : Diagnostic}
    {loc : Location} (hplace : d.location? = some loc) (hseen : (d.code, loc) ∈ a.seen) :
    a.record source d = a := by
  unfold record
  split
  · next hnone => simp [hplace] at hnone
  · next found hfound =>
    rw [hplace, Option.some.injEq] at hfound
    subst hfound
    exact if_pos hseen

/-- What is new at its place is added with the text of the running program. -/
theorem record_of_not_seen {a : Advisories} (source : Option String) {d : Diagnostic}
    {loc : Location} (hplace : d.location? = some loc) (hnew : (d.code, loc) ∉ a.seen) :
    a.record source d = a.pushOnce (d.showing source) loc (by simpa using hplace) := by
  unfold record
  split
  · next hnone => simp [hplace] at hnone
  · next found hfound =>
    rw [hplace, Option.some.injEq] at hfound
    subst hfound
    exact if_neg hnew

end Advisories

end Script
