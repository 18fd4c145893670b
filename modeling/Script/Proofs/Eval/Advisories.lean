import Script.Proofs.Eval.Balance
import Script.Proofs.Eval.Regions

/-!
# Advisories are recorded once

What is noticed is kept in a list and in a filter.  The two are in step at every point
of a session: the filter has the codes and places of the list and no others, so nothing
is recorded twice and nothing new is kept back.  A run only adds to the list.  To take
the list away empties the filter too, and what was in it can be recorded again.
-/

namespace Script

open Machine (Licensed Region Silent)

namespace Advisories

variable {a b c : Advisories}

/-- There is a report with the code about the place. -/
def Lists (a : Advisories) (code : Code) (loc : Location) : Prop :=
  ∃ d ∈ a, d.code = code ∧ d.location? = some loc

/-- The filter has the codes and places of the reports and no others.  Each report has a
place, and no two have the same code and the same place. -/
structure InStep (a : Advisories) : Prop where
  mem_seen_iff : ∀ code loc, (code, loc) ∈ a.seen ↔ a.Lists code loc
  located : ∀ d ∈ a, ∃ loc, d.location? = some loc
  distinct : a.toList.Pairwise fun d e =>
    (d.code, d.location?) ≠ (e.code, e.location?)

theorem not_lists_empty (code : Code) (loc : Location) :
    ¬ Advisories.empty.Lists code loc := by
  rintro ⟨d, hd, -⟩
  exact Array.not_mem_empty d hd

theorem inStep_empty : Advisories.empty.InStep where
  mem_seen_iff code loc := iff_of_false List.not_mem_nil (not_lists_empty code loc)
  located d hd := absurd hd (Array.not_mem_empty d)
  distinct := List.Pairwise.nil

section

variable {d : Diagnostic} {loc : Location} (hplace : d.location? = some loc)

theorem mem_pushOnce {e : Diagnostic} : e ∈ a.pushOnce d loc hplace ↔ e ∈ a ∨ e = d :=
  Array.mem_push

theorem lists_pushOnce {code : Code} {place : Location} :
    (a.pushOnce d loc hplace).Lists code place ↔
      (code, place) = (d.code, loc) ∨ a.Lists code place := by
  constructor
  · rintro ⟨e, he, rfl, hloc⟩
    rcases (mem_pushOnce hplace).mp he with he | rfl
    · exact Or.inr ⟨e, he, rfl, hloc⟩
    · rw [hplace, Option.some.injEq] at hloc
      exact Or.inl (by rw [hloc])
  · rintro (heq | ⟨e, he, hsame⟩)
    · obtain ⟨rfl, rfl⟩ := Prod.mk.inj heq
      exact ⟨d, (mem_pushOnce hplace).mpr (Or.inr rfl), rfl, hplace⟩
    · exact ⟨e, (mem_pushOnce hplace).mpr (Or.inl he), hsame⟩

/-- What the filter lets through keeps the two in step. -/
theorem InStep.pushOnce (h : a.InStep) (hnew : (d.code, loc) ∉ a.seen) :
    (a.pushOnce d loc hplace).InStep where
  mem_seen_iff code place :=
    calc (code, place) ∈ (d.code, loc) :: a.seen
      _ ↔ (code, place) = (d.code, loc) ∨ (code, place) ∈ a.seen := List.mem_cons
      _ ↔ (code, place) = (d.code, loc) ∨ a.Lists code place :=
        or_congr_right (h.mem_seen_iff code place)
      _ ↔ (a.pushOnce d loc hplace).Lists code place := (lists_pushOnce hplace).symm
  located e he := by
    rcases (mem_pushOnce hplace).mp he with he | rfl
    · exact h.located e he
    · exact ⟨loc, hplace⟩
  distinct := by
    rw [toList_pushOnce, List.pairwise_append]
    refine ⟨h.distinct, List.pairwise_singleton _ _, fun e he d' hd' => ?_⟩
    obtain rfl := List.mem_singleton.mp hd'
    intro hsame
    obtain ⟨hcode, hloc⟩ := Prod.mk.inj hsame
    exact hnew ((h.mem_seen_iff _ _).mpr
      ⟨e, mem_toList_iff.mp he, hcode, hloc.trans hplace⟩)

end

/-- The second one is in step, and it comes from the first by adding reports. -/
structure Since (a b : Advisories) : Prop where
  appended : a.toList <+: b.toList
  inStep : b.InStep

theorem Since.refl (h : a.InStep) : a.Since a where
  appended := List.prefix_refl _
  inStep := h

theorem Since.trans (hfirst : a.Since b) (hsecond : b.Since c) : a.Since c where
  appended := hfirst.appended.trans hsecond.appended
  inStep := hsecond.inStep

end Advisories

/-! ### What a run does to them -/

namespace Machine

variable {limit : Nat} {kept : Array Nat} {l : Licence} {m m' : Machine}
  {before : Advisories}

/-- A problem that is listed at its place is not recorded, and any other is added at the
end. -/
theorem noted_of_inStep (h : m.advisories.InStep) (problem : Problem) (loc : Location) :
    (m.advisories.Lists problem.code loc ∧
      Eval.noted problem loc m = m.advisories) ∨
    (¬ m.advisories.Lists problem.code loc ∧
      (Eval.noted problem loc m).toList =
        m.advisories.toList ++ [m.note problem loc]) := by
  have hseen := h.mem_seen_iff problem.code loc
  rcases Eval.noted_cases problem loc m with ⟨hsame, hknown⟩ | ⟨hadded, hnew⟩
  · exact Or.inl ⟨hseen.mp hknown, hsame⟩
  · refine Or.inr ⟨fun hlists => hnew (hseen.mpr hlists), ?_⟩
    rw [hadded, Advisories.toList_pushOnce]

theorem since_noted (h : m.advisories.InStep) (problem : Problem) (loc : Location) :
    m.advisories.Since (Eval.noted problem loc m) := by
  rcases Eval.noted_cases problem loc m with ⟨hsame, -⟩ | ⟨hadded, hnew⟩
  · rw [hsame]
    exact .refl h
  · rw [hadded]
    constructor
    · rw [Advisories.toList_pushOnce]
      exact List.prefix_append _ _
    · apply h.pushOnce
      rw [code_note]
      exact hnew

theorem Silent.since (hsilent : Silent m m') (h : m.advisories.InStep) :
    m.advisories.Since m'.advisories := by
  cases hsilent with
  | note problem loc => exact since_noted h problem loc
  | heap | read | print => exact .refl h

theorem Licensed.since (hlicensed : Licensed limit kept l m m') (h : m.advisories.InStep) :
    m.advisories.Since m'.advisories := by
  induction hlicensed with
  | silent l hsilent => exact hsilent.since h
  | widen _ _ ih => exact ih h
  | seq _ _ ihfirst ihsecond =>
    have hbetween := ihfirst h
    exact hbetween.trans (ihsecond hbetween.inStep)
  | frame l outer _ ih => exact ih h
  | call _ _ ih => exact ih h
  | loop _ ih => exact ih h
  | rest | pin | drop | update | introduce | declare | setUp => exact .refl h

/-- The machines whose advisories come from those before by adding reports. -/
def noticingSince (limit : Nat) (kept : Array Nat) (before : Advisories) :
    Region limit kept where
  Holds := fun _ m => before.Since m.advisories
  stays := fun hsince hlicensed => hsince.trans (hlicensed.since hsince.inStep)
  narrows := fun _ hsince => hsince
  opens := fun _ hsince => hsince
  calls := fun hsince => hsince
  loops := fun hsince => hsince

end Machine

namespace Machine

variable {settings : Settings} {m m' : Machine}

theorem since_of_runSource {bound : Nat} {file source : String}
    {result : Except RunFailure Value} (h : m.advisories.InStep)
    (hrun : m.runSource settings bound file source = some (result, m')) :
    m.advisories.Since m'.advisories :=
  (licensed_of_runSource #[] hrun).since h

theorem InSession.inStep (hm : m.InSession settings) : m.advisories.InStep := by
  induction hm with
  | start => exact Advisories.inStep_empty
  | take _ _ => exact Advisories.inStep_empty
  | run _ hrun ih => exact (since_of_runSource ih hrun).inStep

end Machine

/-- In every session of programs, also where a program fails or has its failures caught,
and at every point of a run, the filter has the codes and places of the recorded
advisories and no others, and no two of these have the same code and the same place.  A
run only adds to the end of the list.  To take the advisories empties the list and the
filter, so that what is raised next is recorded, whatever it is about.  In all these
states an advisory is added at the end unless its code is recorded for its place. -/
theorem advisories_recorded_once (settings : Settings) :
    (∀ m : Machine, m.InSession settings →
      m.advisories.InStep ∧
      (∀ (bound : Nat) (file source : String),
        (∀ result m', m.runSource settings bound file source = some (result, m') →
          m.advisories.Since m'.advisories) ∧
        ∀ p, parse file source = .ok p →
          ThroughoutProgram settings (KeptBy fun m' => m.advisories.Since m'.advisories)
            bound p { m with source := some source }) ∧
      m.takeAdvisories.1 = m.advisories.toList ∧
      m.takeAdvisories.2.advisories.toList = [] ∧
      m.takeAdvisories.2.advisories.seen = [] ∧
      ∀ problem loc, ∃ m', Eval.advise problem loc m.takeAdvisories.2 = .done () m' ∧
        m'.advisories.toList = [m.note problem loc]) ∧
    ∀ (m : Machine) (problem : Problem) (loc : Location), m.advisories.InStep →
      ∃ m', Eval.advise problem loc m = .done () m' ∧ m.Noted m' ∧
        m.advisories.Since m'.advisories ∧
        (m.advisories.Lists problem.code loc → m'.advisories = m.advisories) ∧
        (¬ m.advisories.Lists problem.code loc →
          m'.advisories.toList = m.advisories.toList ++ [m.note problem loc]) := by
  constructor
  · intro m hm
    have hstep := hm.inStep
    refine ⟨hstep, fun bound file source => ⟨fun result m' hrun =>
      Machine.since_of_runSource hstep hrun, fun p _ => ?_⟩, rfl, rfl, rfl, ?_⟩
    · exact throughoutProgram_keptBy
        (R := Machine.noticingSince _ #[] m.advisories) (fun _ _ => Iff.rfl) bound p (.refl hstep)
    · intro problem loc
      refine ⟨_, Eval.advise_eq problem loc _, ?_⟩
      obtain ⟨hlists, -⟩ | ⟨-, hadded⟩ :=
        Machine.noted_of_inStep hm.take.inStep problem loc
      · exact absurd hlists (Advisories.not_lists_empty _ _)
      · exact hadded
  · intro m problem loc hstep
    refine ⟨_, Eval.advise_eq problem loc m, ⟨_, rfl⟩, Machine.since_noted hstep _ _, ?_⟩
    rcases Machine.noted_of_inStep hstep problem loc with ⟨hlists, hsame⟩ | ⟨hnew, hadded⟩
    · exact ⟨fun _ => hsame, fun hnot => absurd hlists hnot⟩
    · exact ⟨fun hlists => absurd hlists hnew, fun _ => hadded⟩

/-- A function that is called twice, with a remainder that is warned about. -/
def remainderTwice : String := "define f() \x7b return -7 % 3; \x7d f(); f();"

/-- The machine behind these calls, and the one behind a later call of the same function,
with the advisories taken in between. -/
def remaindersApart : Option (Machine × Machine) := do
  let (_, m) ← (Machine.start "").runSource ⟨8, .standard⟩ 20 "a.vic" remainderTwice
  let (_, m') ← m.takeAdvisories.2.runSource ⟨8, .standard⟩ 20 "b.vic" "f();"
  return (m, m')

/-- Two calls raise one advisory, and the later call raises it again. -/
theorem advisories_recorded_once_takenBetween :
    ∃ m m' : Machine, m.InSession ⟨8, .standard⟩ ∧ m.advisories.InStep ∧
      m'.InSession ⟨8, .standard⟩ ∧ m'.advisories.InStep ∧
      m.advisories.seen.map (·.1) = [.moduloWithNegative] ∧
      m'.advisories.seen = m.advisories.seen := by
  have hruns : remaindersApart.map (fun (m, m') =>
      (m.advisories.seen.map (·.1) == [.moduloWithNegative],
        m'.advisories.seen == m.advisories.seen)) = some (true, true) := by
    decide +kernel
  obtain ⟨⟨m, m'⟩, hpair, hseen⟩ := Option.map_eq_some_iff.mp hruns
  simp only [remaindersApart, Option.bind_eq_bind, Option.bind_eq_some_iff] at hpair
  obtain ⟨⟨_, m₁⟩, hfirst, ⟨_, m₂⟩, hsecond, hpair⟩ := hpair
  obtain ⟨rfl, rfl⟩ := Prod.mk.inj (Option.some.inj hpair)
  have hm : m₁.InSession ⟨8, .standard⟩ := .run (.start "" _) hfirst
  have hm' : m₂.InSession ⟨8, .standard⟩ := .run hm.take hsecond
  have honce := (advisories_recorded_once ⟨8, .standard⟩).1
  obtain ⟨hcodes, hsame⟩ := Prod.mk.inj hseen
  exact ⟨m₁, m₂, hm, (honce m₁ hm).1, hm', (honce m₂ hm').1, eq_of_beq hcodes,
    eq_of_beq hsame⟩

end Script
