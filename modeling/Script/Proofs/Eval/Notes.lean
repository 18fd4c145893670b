import Script.Eval.Declaration

/-!
# What is noticed

Noting something about a place and entering a loop always succeed.  Here is what
they leave behind.
-/

namespace Script

/-- Whether there is a report of the kind about the place. -/
def Eval.isKnown (advisories : Advisories) (code : Code) (loc : Location) : Bool :=
  advisories.toList.any fun d => d.code = code && d.location? = some loc

/-- What has been noticed, together with a problem at a place. -/
def Eval.noted (problem : Problem) (loc : Location) (m : Machine) : Advisories :=
  m.advisories.record m.source (problem.report loc)

/-- What is kept back is known already. -/
theorem Eval.isKnown_of_mem_seen {a : Advisories} {code : Code} {loc : Location}
    (hseen : (code, loc) ∈ a.seen) : isKnown a code loc = true := by
  obtain ⟨d, hd, hcode, hloc⟩ := a.reported code loc hseen
  exact List.any_eq_true.mpr ⟨d, Advisories.mem_toList_iff.mpr hd, by simp [hcode, hloc]⟩

/-- The report about a problem at a place, with the text of the running program. -/
def Machine.note (m : Machine) (problem : Problem) (loc : Location) : Diagnostic :=
  (problem.report loc).showing m.source

namespace Machine

variable (m : Machine) (problem : Problem) (loc : Location)

@[simp]
theorem code_note : (m.note problem loc).code = problem.code :=
  Diagnostic.code_showing _ _

@[simp]
theorem location?_note : (m.note problem loc).location? = some loc :=
  Diagnostic.location?_showing _ _

@[simp]
theorem source_note : (m.note problem loc).source = m.source :=
  (Diagnostic.source_showing _ _).trans Option.or_none

end Machine

/-- Nothing new has been noticed, or the problem has been added. -/
theorem Eval.noted_cases (problem : Problem) (loc : Location) (m : Machine) :
    (noted problem loc m = m.advisories ∧ (problem.code, loc) ∈ m.advisories.seen) ∨
    (noted problem loc m =
        m.advisories.pushOnce (m.note problem loc) loc (m.location?_note problem loc) ∧
      (problem.code, loc) ∉ m.advisories.seen) := by
  by_cases hseen : (problem.code, loc) ∈ m.advisories.seen
  · exact Or.inl ⟨Advisories.record_of_seen m.source rfl hseen, hseen⟩
  · exact Or.inr ⟨Advisories.record_of_not_seen m.source rfl hseen, hseen⟩

theorem Eval.mem_noted {problem : Problem} {loc : Location} {m : Machine} {d : Diagnostic}
    (hd : d ∈ noted problem loc m) : d ∈ m.advisories ∨ d.location? = some loc := by
  rcases noted_cases problem loc m with ⟨hsame, -⟩ | ⟨hnew, -⟩
  · rw [hsame] at hd
    exact Or.inl hd
  · rw [hnew] at hd
    rcases Array.mem_push.mp hd with hd | rfl
    · exact Or.inl hd
    · exact Or.inr (m.location?_note problem loc)

/-- Noting a problem makes its code known at the place, and makes nothing else known. -/
theorem Eval.isKnown_noted_iff (problem : Problem) (loc : Location) (m : Machine)
    (code : Code) (place : Location) :
    isKnown (noted problem loc m) code place = true ↔
      isKnown m.advisories code place = true ∨ place = loc ∧ code = problem.code := by
  rcases noted_cases problem loc m with ⟨hsame, hseen⟩ | ⟨hnew, -⟩
  · rw [hsame]
    refine ⟨Or.inl, fun h => h.elim id ?_⟩
    rintro ⟨rfl, rfl⟩
    exact isKnown_of_mem_seen hseen
  · rw [hnew, isKnown, isKnown, Advisories.toList_pushOnce, List.any_append,
      Bool.or_eq_true]
    refine or_congr_right ?_
    simp only [List.any_cons, List.any_nil, Bool.or_false, Bool.and_eq_true,
      decide_eq_true_eq, Machine.code_note, Machine.location?_note, Option.some.injEq]
    constructor
    · rintro ⟨rfl, rfl⟩
      exact ⟨rfl, rfl⟩
    · rintro ⟨rfl, rfl⟩
      exact ⟨rfl, rfl⟩

theorem Eval.advise_eq (problem : Problem) (loc : Location) (m : Machine) :
    advise problem loc m =
      .done () { m with advisories := noted problem loc m } := rfl

/-- The machine inside a loop. -/
def Machine.enterLoop (loc : Location) (m : Machine) : Machine :=
  { m with
    loopDepth := m.loopDepth + 1
    advisories :=
      if Eval.deepNesting ≤ m.loopDepth + 1 then
        Eval.noted (.nestedLoops (m.loopDepth + 1)) loc m
      else m.advisories }

theorem Eval.enterLoop_eq (loc : Location) (m : Machine) :
    enterLoop loc m = .done () (m.enterLoop loc) := by
  simp only [enterLoop, Machine.enterLoop]
  split
  · rw [advise_eq]
    rfl
  · rfl

/-- The second machine differs from the first in what has been noticed at most. -/
def Machine.Noted (m m' : Machine) : Prop := ∃ advisories, m' = { m with advisories }

theorem Machine.Noted.refl (m : Machine) : m.Noted m := ⟨m.advisories, rfl⟩

theorem Eval.advise_noted (problem : Problem) (loc : Location) (m : Machine) :
    ∃ m', advise problem loc m = .done () m' ∧ m.Noted m' :=
  ⟨_, advise_eq problem loc m, _, rfl⟩

/-- The second machine differs from the first in what has been noticed at most, and the
codes that `new` is true of are what is known in addition, about the place. -/
structure Machine.Records (m : Machine) (loc : Location) (new : Code → Prop) (m' : Machine) :
    Prop where
  noted : m.Noted m'
  isKnown_iff : ∀ code place, Eval.isKnown m'.advisories code place = true ↔
    Eval.isKnown m.advisories code place = true ∨ place = loc ∧ new code

theorem Eval.adviseAll_records (problems : List Problem) (loc : Location) (m : Machine) :
    ∃ m', adviseAll problems loc m = .done () m' ∧
      m.Records loc (fun code => ∃ problem ∈ problems, code = problem.code) m' := by
  induction problems generalizing m with
  | nil => exact ⟨m, rfl, .refl m, by simp⟩
  | cons problem problems ih =>
    obtain ⟨m', hall, ⟨advisories, rfl⟩, hknown⟩ :=
      ih { m with advisories := noted problem loc m }
    refine ⟨_, ?_, ⟨advisories, rfl⟩, fun code place => ?_⟩
    · unfold adviseAll Eval.bind
      rw [advise_eq]
      exact hall
    · rw [hknown, isKnown_noted_iff, or_assoc, ← and_or_left]
      simp only [List.mem_cons, exists_eq_or_imp]

theorem Eval.adviseAll_noted (problems : List Problem) (loc : Location) (m : Machine) :
    ∃ m', adviseAll problems loc m = .done () m' ∧ m.Noted m' := by
  obtain ⟨m', hall, hrecords⟩ := adviseAll_records problems loc m
  exact ⟨m', hall, hrecords.noted⟩

/-- A function that calls itself more than once is noted, and else nothing is. -/
theorem Eval.noteRecursion_cases (v : Value) :
    (∀ loc, noteRecursion v loc = Pure.pure ()) ∨
    ∃ problem, ∀ loc, noteRecursion v loc = advise problem loc := by
  unfold noteRecursion
  split
  · next f =>
    cases f.code.name with
    | none => exact Or.inl fun _ => rfl
    | some name =>
      dsimp only
      split
      · exact Or.inr ⟨_, fun _ => rfl⟩
      · exact Or.inl fun _ => rfl
  · exact Or.inl fun _ => rfl

theorem Eval.noteRecursion_noted (v : Value) (loc : Location) (m : Machine) :
    ∃ m', noteRecursion v loc m = .done () m' ∧ m.Noted m' := by
  rcases noteRecursion_cases v with heq | ⟨problem, heq⟩
  · exact ⟨m, heq loc ▸ rfl, .refl m⟩
  · rw [heq]
    exact advise_noted problem loc m

end Script
