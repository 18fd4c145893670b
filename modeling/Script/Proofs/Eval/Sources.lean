import Script.Proofs.Eval.Balance
import Script.Proofs.Eval.Identical
import Script.Proofs.Syntax.Spans
import Script.Proofs.Syntax.Staying

/-!
# Whose text a report shows

A run gives its own text to what it reports, and a report points into the file of the
code that it is about.  That code may be a function of an earlier program.  So what is
reported shows the right text where it points into the running program, and another
text where it points into an earlier one.

That reports point into files of the session is seen from runs beside themselves: code
from certain files is not changed by moving the other locations, so a run of it makes
its reports in these files.
-/

namespace Script

open Scope (Arena)
open Comparison

/-! ### The text -/

namespace Machine

/-- The text stays, and it is given to what is newly noticed. -/
structure NotesText (m m' : Machine) : Prop where
  source : m'.source = m.source
  noted : ∃ noted, m'.advisories.toList = m.advisories.toList ++ noted ∧
    ∀ d ∈ noted, d.source = m.source

variable {m m' m'' : Machine} {limit : Nat} {kept : Array Nat} {l : Licence}

theorem notesText_of_eq (hsource : m'.source = m.source)
    (hadvisories : m'.advisories = m.advisories) : NotesText m m' :=
  ⟨hsource, [], by rw [hadvisories, List.append_nil],
    fun _ hd => absurd hd List.not_mem_nil⟩

theorem NotesText.trans (hfirst : NotesText m m') (hsecond : NotesText m' m'') :
    NotesText m m'' := by
  obtain ⟨noted, hnoted, htexts⟩ := hfirst.noted
  obtain ⟨noted', hnoted', htexts'⟩ := hsecond.noted
  refine ⟨hsecond.source.trans hfirst.source, noted ++ noted', ?_, fun d hd => ?_⟩
  · rw [hnoted', hnoted, List.append_assoc]
  · rcases List.mem_append.mp hd with hd | hd
    · exact htexts d hd
    · exact (htexts' d hd).trans hfirst.source

theorem Silent.notesText (hsilent : Silent m m') : NotesText m m' := by
  cases hsilent with
  | note problem loc =>
    refine ⟨rfl, ?_⟩
    rcases Eval.noted_cases problem loc m with ⟨hsame, -⟩ | ⟨hnew, -⟩
    · exact ⟨[], by simp [hsame], by simp⟩
    · exact ⟨[_], by simp [hnew], fun d hd =>
        List.mem_singleton.mp hd ▸ m.source_note problem loc⟩
  | _ => exact notesText_of_eq rfl rfl

theorem Licensed.notesText (hlicensed : Licensed limit kept l m m') : NotesText m m' := by
  induction hlicensed with
  | silent _ hsilent => exact hsilent.notesText
  | widen _ _ ih => exact ih
  | seq _ _ ihfirst ihsecond => exact ihfirst.trans ihsecond
  | frame _ _ _ ih | call _ _ ih | loop _ ih =>
    exact ⟨ih.source, ih.noted⟩
  | _ => exact notesText_of_eq rfl rfl

end Machine

/-! ### The files -/

/-- No location in one of the files is moved. -/
def Location.Keeps (files : List String) (move : Location → Location) : Prop :=
  ∀ loc, loc.file ∈ files → move loc = loc

theorem Location.Keeps.mono {files files' : List String} {move : Location → Location}
    (hkeeps : Keeps files' move) (hsub : files ⊆ files') : Keeps files move :=
  fun loc hloc => hkeeps loc (hsub hloc)

/-- Moves the locations outside of the files into one of them. -/
def Location.into (files : List String) (file : String) (loc : Location) : Location :=
  if loc.file ∈ files then loc else { loc with file }

theorem Location.keeps_into (files : List String) (file : String) :
    Keeps files (into files file) :=
  fun _ hloc => if_pos hloc

theorem Location.file_into_mem {files : List String} {file : String} (hfile : file ∈ files)
    (loc : Location) : (into files file loc).file ∈ files := by
  unfold into
  split
  · assumption
  · exact hfile

/-- The report points into one of the files. -/
def Diagnostic.PointsInto (files : List String) (d : Diagnostic) : Prop :=
  ∃ loc, d.location? = some loc ∧ loc.file ∈ files

/-- All code in the machine is from the files, and so is what has been noticed. -/
structure Machine.CodeFrom (files : List String) (m : Machine) : Prop where
  scopes : ∀ move, Location.Keeps files move →
    recode (.relocation move) m.scopes = m.scopes
  heap : ∀ move, Location.Keeps files move → recode (.relocation move) m.heap = m.heap
  noticed : ∀ d ∈ m.advisories, d.PointsInto files

/-- A library without functions that were written in the language. -/
def Library.Plain (library : Library) : Prop :=
  ∀ name bindings, library name = some bindings →
    ∀ b ∈ bindings, b.2.kind ≠ .function ∧ b.2.kind ≠ .arrow

theorem Library.plain_standard : Library.standard.Plain := by
  intro name bindings hfound
  unfold standard at hfound
  split at hfound
  · cases hfound
    decide
  · cases hfound
    decide
  · cases hfound

theorem recode_eq_of_kind {v : Value} (ρ : Recoding) (hfunction : v.kind ≠ .function)
    (harrow : v.kind ≠ .arrow) : recode ρ v = v := by
  cases v with
  | function => exact absurd rfl hfunction
  | arrow => exact absurd rfl harrow
  | _ => rfl

theorem Library.Plain.recode_eq {library : Library} (hplain : library.Plain)
    (ρ : Recoding) (name : String) : recode ρ (library name) = library name := by
  cases hfound : library name with
  | none => rfl
  | some bindings =>
    refine congrArg some (map_eq_self (f := recode ρ) fun b hb => Prod.ext rfl ?_)
    obtain ⟨hfunction, harrow⟩ := hplain name bindings hfound b hb
    exact recode_eq_of_kind ρ hfunction harrow

namespace Comparison

/-- A run beside itself with some locations moved. -/
def beside (move : Location → Location) (placed : Option Location → Prop)
    (placed_move : ∀ loc, placed (some (move loc))) (printed : String) : Comparison where
  move := move
  guard := .still .recursionDepth
  guard_loc := Recoding.still_loc _
  exact := False
  exact_move := False.elim
  printed := (printed, printed)
  stopping := .together
  placed := placed
  placed_move := placed_move

namespace beside

variable {move : Location → Location} {placed : Option Location → Prop}
  {placed_move : ∀ loc, placed (some (move loc))} {printed : String} {depth : Nat}

theorem related_self {α : Type} [Recodable α] [Fixes (.still .recursionDepth) α] {x : α}
    (hx : recode (.relocation move) x = x) :
    (beside move placed placed_move printed).Related x x :=
  ⟨hx, Fixes.recode_eq (ρ := .still .recursionDepth) x⟩

theorem agree_self {m : Machine} (hscopes : recode (.relocation move) m.scopes = m.scopes)
    (hheap : recode (.relocation move) m.heap = m.heap)
    (hplaced : ∀ d ∈ m.advisories, placed d.location?) :
    (beside move placed placed_move m.output).Agree m.callDepth m m where
  scopes := related_self hscopes
  heap := related_self hheap
  input := rfl
  output := ⟨"", String.append_empty.symm, String.append_empty.symm⟩
  firstDepth := rfl
  secondDepth := rfl
  noticed := False.elim
  placed := hplaced

theorem followsAll {settings : Settings} (hplain : settings.library.Plain) (n depth : Nat) :
    (beside move placed placed_move printed).FollowsAll (.bounded settings n)
      (.bounded settings n) depth :=
  .bounded (Recoding.still_keeps _) rfl (by nofun) rfl
    (fun name => related_self (hplain.recode_eq _ name)) (Or.inl rfl) depth

/-- A program whose locations stay does the same beside itself. -/
theorem program_matches {settings : Settings} (hplain : settings.library.Plain)
    (bound : Nat) {p : Program} (hp : p.relocate move = p) {m : Machine}
    (hagree : (beside move placed placed_move m.output).Agree m.callDepth m m) :
    (beside move placed placed_move m.output).Matches m.callDepth noJump
      ((Evaluator.bounded settings bound).program p m)
      ((Evaluator.bounded settings bound).program p m) := by
  have hprogram := (followsAll hplain bound m.callDepth).program p m m hagree
  rwa [show p.relocate (beside move placed placed_move m.output).move = p from hp]
    at hprogram

theorem agree_of_matches {α : Type} [Recodable α] {jumps : Jump → Prop} {o : Outcome α}
    {m : Machine} (h : (beside move placed placed_move printed).Matches depth jumps o o)
    (hend : o.machine? = some m) :
    (beside move placed placed_move printed).Agree depth m m := by
  cases h with
  | done _ hagree | left _ _ hagree =>
    cases hend
    exact hagree
  | exhausted => cases hend

theorem loc_of_matches {α : Type} [Recodable α] {jumps : Jump → Prop} {m : Machine}
    {problem : Problem} {loc : Location}
    (h : (beside move placed placed_move printed).Matches depth jumps
      (.left (.failed problem loc) m : Outcome α) (.left (.failed problem loc) m)) :
    move loc = loc := by
  cases h with
  | left hexit => exact (Exit.failed.inj hexit.moved).2

end beside

end Comparison

namespace Machine.CodeFrom

variable {files files' : List String} {m : Machine} {settings : Settings} {p : Program}

theorem start (input : String) (layout : Layout) :
    (Machine.start input layout).CodeFrom [] where
  scopes _ _ := Arena.new_map _
  heap _ _ := Heap.recode_empty _ layout
  noticed _ hd := absurd hd (Array.not_mem_empty _)

theorem mono (hm : m.CodeFrom files) (hsub : files ⊆ files') : m.CodeFrom files' where
  scopes move hkeeps := hm.scopes move (hkeeps.mono hsub)
  heap move hkeeps := hm.heap move (hkeeps.mono hsub)
  noticed d hd := by
    obtain ⟨loc, hloc, hfile⟩ := hm.noticed d hd
    exact ⟨loc, hloc, hsub hfile⟩

theorem relocate_eq_self {move : Location → Location} (hkeeps : Location.Keeps files move)
    (hp : Site.Every (fun x => x.loc.file ∈ files) (.program p)) : p.relocate move = p :=
  Program.relocate_eq_self (hp.mono fun x hx => hkeeps x.loc hx)

/-- The run of a program from the files, beside itself with the other locations moved
into one of them. -/
theorem matches_into (hm : m.CodeFrom files) (hplain : settings.library.Plain)
    (hp : Site.Every (fun x => x.loc.file ∈ files) (.program p)) {file : String}
    (hfile : file ∈ files) (bound : Nat) :
    let placed (loc? : Option Location) : Prop := ∃ loc, loc? = some loc ∧ loc.file ∈ files
    (beside (Location.into files file) placed
        (fun loc => ⟨_, rfl, Location.file_into_mem hfile loc⟩) m.output).Matches
      m.callDepth noJump ((Evaluator.bounded settings bound).program p m)
      ((Evaluator.bounded settings bound).program p m) := by
  intro placed
  have hkeeps := Location.keeps_into files file
  exact beside.program_matches hplain bound (relocate_eq_self hkeeps hp)
    (beside.agree_self (hm.scopes _ hkeeps) (hm.heap _ hkeeps) hm.noticed)

/-- What a program from the files leaves behind is from them. -/
theorem program (hm : m.CodeFrom files) (hplain : settings.library.Plain)
    (hp : Site.Every (fun x => x.loc.file ∈ files) (.program p)) {file : String}
    (hfile : file ∈ files) {bound : Nat} {m' : Machine}
    (hend : ((Evaluator.bounded settings bound).program p m).machine? = some m') :
    m'.CodeFrom files := by
  have hmoved : ∀ move, Location.Keeps files move →
      (beside move (fun _ => True) (fun _ => trivial) m.output).Agree m.callDepth m' m' := by
    intro move hkeeps
    refine beside.agree_of_matches (beside.program_matches hplain bound
      (relocate_eq_self hkeeps hp) ?_) hend
    exact beside.agree_self (hm.scopes move hkeeps) (hm.heap move hkeeps)
      fun _ _ => trivial
  exact ⟨fun move hkeeps => (hmoved move hkeeps).scopes.moved,
    fun move hkeeps => (hmoved move hkeeps).heap.moved,
    (beside.agree_of_matches (hm.matches_into hplain hp hfile bound) hend).placed⟩

/-- A program from the files fails in one of them. -/
theorem failed (hm : m.CodeFrom files) (hplain : settings.library.Plain)
    (hp : Site.Every (fun x => x.loc.file ∈ files) (.program p)) {file : String}
    (hfile : file ∈ files) {bound : Nat} {m' : Machine} {problem : Problem}
    {loc : Location}
    (hfailed : (Evaluator.bounded settings bound).program p m =
      .left (.failed problem loc) m') : loc.file ∈ files := by
  have hmatches := hm.matches_into hplain hp hfile bound
  rw [hfailed] at hmatches
  rw [← beside.loc_of_matches hmatches]
  exact Location.file_into_mem hfile loc

end Machine.CodeFrom

/-- All sites of an accepted text are in its file. -/
theorem files_of_parse {file source : String} {p : Program}
    (hparse : parse file source = .ok p) {files : List String} (hfile : file ∈ files) :
    Site.Every (fun x => x.loc.file ∈ files) (.program p) :=
  (Parser.laid_of_parse hparse).mono fun x hx => by rwa [hx.1.proper.file]

/-! ### Sessions -/

namespace Machine

/-- The machines of a session between two programs, with the files and texts of the
programs that have been run, the last one first.  Each has a file of its own. -/
inductive HasRun (settings : Settings) : List (String × String) → Machine → Prop where
  | start (input : String) (layout : Layout) :
    HasRun settings [] (start input layout)
  | take {programs : List (String × String)} {m : Machine}
      (hm : HasRun settings programs m) : HasRun settings programs m.takeAdvisories.2
  | run {programs : List (String × String)} {m m' : Machine} {bound : Nat}
      {file source : String} {result : Except RunFailure Value}
      (hm : HasRun settings programs m) (hfile : file ∉ programs.map (·.1))
      (hrun : m.runSource settings bound file source = some (result, m')) :
      HasRun settings ((file, source) :: programs) m'

variable {settings : Settings} {m m' : Machine} {bound : Nat} {file source : String}
  {result : Except RunFailure Value}

/-- A run leaves code from its own file and from those of the code that was there. -/
theorem CodeFrom.runSource {files : List String} (hm : m.CodeFrom files)
    (hplain : settings.library.Plain)
    (hrun : m.runSource settings bound file source = some (result, m')) :
    m'.CodeFrom (file :: files) ∧
      ∀ d, result = .error (.failed d) → d.PointsInto (file :: files) := by
  have hloaded : { m with source := some source }.CodeFrom (file :: files) := by
    have hall := hm.mono (List.subset_cons_self file files)
    exact ⟨hall.scopes, hall.heap, hall.noticed⟩
  have hfile : file ∈ file :: files := List.mem_cons_self
  unfold Machine.runSource at hrun
  simp only at hrun
  split at hrun
  · cases hrun
    exact ⟨hloaded, fun _ h => nomatch h⟩
  · next p hparse =>
    have hp := files_of_parse hparse hfile
    unfold runProgram at hrun
    split at hrun
    · next hdone =>
      cases hrun
      exact ⟨hloaded.program hplain hp hfile (by rw [hdone]; rfl), fun _ h => nomatch h⟩
    · next problem loc m' hfailed =>
      cases hrun
      refine ⟨hloaded.program hplain hp hfile (by rw [hfailed]; rfl), ?_⟩
      rintro d ⟨⟩
      exact ⟨loc, Diagnostic.location?_showing _ _,
        hloaded.failed hplain hp hfile hfailed⟩
    · next hleft =>
      cases hrun
      exact ⟨hloaded.program hplain hp hfile (by rw [hleft]; rfl), fun _ h => nomatch h⟩
    · cases hrun

theorem HasRun.codeFrom {programs : List (String × String)}
    (hm : m.HasRun settings programs) (hplain : settings.library.Plain) :
    m.CodeFrom (programs.map (·.1)) := by
  induction hm with
  | start input layout => exact CodeFrom.start input layout
  | take _ ih => exact ⟨ih.scopes, ih.heap, fun _ hd => absurd hd (Array.not_mem_empty _)⟩
  | run _ _ hrun ih => exact (ih.runSource hplain hrun).1

/-- What a run reports shows its own text. -/
theorem notesText_of_runSource
    (hrun : m.runSource settings bound file source = some (result, m')) :
    NotesText { m with source := some source } m' ∧
      ∀ d, result = .error (.failed d) → d.source = some source := by
  have hnotes := (licensed_of_runSource #[] hrun).notesText
  refine ⟨hnotes, ?_⟩
  rintro d rfl
  unfold Machine.runSource at hrun
  simp only at hrun
  split at hrun
  · cases hrun
  · unfold runProgram at hrun
    split at hrun <;> cases hrun
    exact (Diagnostic.source_showing _ _).trans (by rw [hnotes.source]; rfl)

end Machine

/-- The report shows the text of the program that it points into. -/
def Diagnostic.ShowsItsFile (programs : List (String × String)) (d : Diagnostic) : Prop :=
  ∃ loc source, d.location? = some loc ∧ (loc.file, source) ∈ programs ∧
    d.source = some source

/-- In a session of programs with different files, an error that ends a run and all
that is noticed during it point into the file of the running program or of an earlier
one, and they show the text of the running program.  So a report shows the text of the
file that it points into if that is the running program, and else only if the earlier
program has the same text. -/
theorem reports_show_running_text {settings : Settings} (hplain : settings.library.Plain)
    {programs : List (String × String)} {m m' : Machine}
    (hm : m.HasRun settings programs) {bound : Nat} {file source : String}
    {result : Except RunFailure Value} (hfile : file ∉ programs.map (·.1))
    (hrun : m.runSource settings bound file source = some (result, m')) :
    ∃ noted, m'.advisories.toList = m.advisories.toList ++ noted ∧
      ∀ d, d ∈ noted ∨ result = .error (.failed d) →
        d.source = some source ∧ ∃ loc, d.location? = some loc ∧
          loc.file ∈ file :: programs.map (·.1) ∧
          (d.ShowsItsFile ((file, source) :: programs) ↔
            loc.file = file ∨ (loc.file, source) ∈ programs) := by
  obtain ⟨hcode, hfailed⟩ := (hm.codeFrom hplain).runSource hplain hrun
  obtain ⟨⟨-, noted, hnoted, htexts⟩, hfailedText⟩ :=
    Machine.notesText_of_runSource hrun
  refine ⟨noted, hnoted, fun d hd => ?_⟩
  have htext : d.source = some source := hd.elim (htexts d) (hfailedText d)
  obtain ⟨loc, hloc, hfiles⟩ : d.PointsInto (file :: programs.map (·.1)) := by
    refine hd.elim (fun hd => hcode.noticed d ?_) (hfailed d)
    rw [← Advisories.mem_toList_iff, hnoted]
    exact List.mem_append_right _ hd
  refine ⟨htext, loc, hloc, hfiles, ?_⟩
  constructor
  · rintro ⟨loc', source', hloc', hmem, hsource⟩
    obtain rfl := Option.some.inj (hloc.symm.trans hloc')
    obtain rfl := Option.some.inj (htext.symm.trans hsource)
    rcases List.mem_cons.mp hmem with heq | hmem
    · exact Or.inl (congrArg Prod.fst heq)
    · exact Or.inr hmem
  · intro hshown
    refine ⟨loc, source, hloc, ?_, htext⟩
    rcases hshown with rfl | hmem
    · exact List.mem_cons_self
    · exact List.mem_cons_of_mem _ hmem

/-- A function that fails where it is called. -/
def failingFunction : String := "define f() \x7b return 1 / 0; \x7d"

/-- How a program fails in a second file behind that function, with the machines before
and after it. -/
def failureBehind (source : String) : Option (Machine × Diagnostic × Machine) := do
  let (_, m) ← (Machine.start "").runSource ⟨8, .standard⟩ 20 "a.vic" failingFunction
  let (.error (.failed d), m') ← m.runSource ⟨8, .standard⟩ 20 "b.vic" source | none
  return (m, d, m')

theorem failureBehind_eq_some {source : String} {m m' : Machine} {d : Diagnostic}
    (h : failureBehind source = some (m, d, m')) :
    m.HasRun ⟨8, .standard⟩ [("a.vic", failingFunction)] ∧
      m.runSource ⟨8, .standard⟩ 20 "b.vic" source = some (.error (.failed d), m') := by
  simp only [failureBehind, Option.bind_eq_bind, Option.bind_eq_some_iff] at h
  obtain ⟨⟨_, m₁⟩, hfirst, ⟨result, m₂⟩, hsecond, hresult⟩ := h
  split at hresult
  · next heq =>
    cases heq
    cases hresult
    exact ⟨.run (.start "" _) List.not_mem_nil hfirst, hsecond⟩
  · cases hresult

/-- A program that fails on its own shows its text, also behind another program. -/
theorem reports_show_running_text_ownFailure :
    ∃ (m m' : Machine) (d : Diagnostic),
      m.HasRun ⟨8, .standard⟩ [("a.vic", failingFunction)] ∧
      m.runSource ⟨8, .standard⟩ 20 "b.vic" "missing;" = some (.error (.failed d), m') ∧
      d.ShowsItsFile [("b.vic", "missing;"), ("a.vic", failingFunction)] := by
  have hfails : (failureBehind "missing;").map
      (fun (_, d, _) => d.location?.map (·.file)) = some (some "b.vic") := by
    decide +kernel
  obtain ⟨⟨m, d, m'⟩, hbehind, hfile⟩ := Option.map_eq_some_iff.mp hfails
  obtain ⟨hm, hrun⟩ := failureBehind_eq_some hbehind
  have hnew : "b.vic" ∉ [("a.vic", failingFunction)].map (·.1) := by decide
  obtain ⟨noted, -, hreports⟩ :=
    reports_show_running_text Library.plain_standard hm hnew hrun
  obtain ⟨-, loc, hloc, -, hshows⟩ := hreports d (Or.inr rfl)
  change d.location?.map (·.file) = some "b.vic" at hfile
  rw [hloc] at hfile
  exact ⟨m, m', d, hm, hrun, hshows.mpr (Or.inl (Option.some.inj hfile))⟩

/-- A function of another file that fails is reported with the text of the program that
calls it, which is not the text of that file. -/
theorem reports_show_running_text_earlierFunction :
    ∃ (m m' : Machine) (d : Diagnostic),
      m.HasRun ⟨8, .standard⟩ [("a.vic", failingFunction)] ∧
      m.runSource ⟨8, .standard⟩ 20 "b.vic" "f();" = some (.error (.failed d), m') ∧
      ¬ d.ShowsItsFile [("b.vic", "f();"), ("a.vic", failingFunction)] := by
  have hfails : (failureBehind "f();").map
      (fun (_, d, _) => (d.location?.map (·.file), d.source)) =
        some (some "a.vic", some "f();") := by
    decide +kernel
  obtain ⟨⟨m, d, m'⟩, hbehind, hreport⟩ := Option.map_eq_some_iff.mp hfails
  obtain ⟨hm, hrun⟩ := failureBehind_eq_some hbehind
  refine ⟨m, m', d, hm, hrun, ?_⟩
  rintro ⟨loc, source, hloc, hmem, hsource⟩
  obtain ⟨hfile, htext⟩ := Prod.mk.inj hreport
  rw [hloc] at hfile
  rw [show loc.file = "a.vic" from Option.some.inj hfile,
    show source = "f();" from Option.some.inj (hsource.symm.trans htext)] at hmem
  revert hmem
  decide

end Script
