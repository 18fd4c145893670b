import Script.Proofs.Syntax.Accepted
import Script.Proofs.Syntax.PrintedBare
import Script.Proofs.Syntax.Trees

/-!
# Printing and reading back

A printed program is read as the same program, if the program is printable, and
a program that was read once only has to be faithful for that.
-/

namespace Script

open Node (EveryOf Every WellFormed Faithful KeepsMode Printable)

namespace Node

theorem everyOf_printable {p : Program} (hwf : EveryOf WellFormed p)
    (hfaithful : EveryOf Faithful p) (hmode : EveryOf KeepsMode p) :
    EveryOf Printable p :=
  fun b n hn => (hwf b n hn).and ((hfaithful b n hn).and (hmode b n hn))

end Node

theorem parse_print_of_printable {p : Program} (hp : EveryOf Printable p)
    (file : String) : ∃ q, parse file p.print = .ok q ∧ q.bare = p.bare :=
  parse_of_lexemes hp (lexemes_tokenize_print hp) file

/-! ### Trees -/

/-- A printable program is read back from its printed form. -/
theorem parse_print {p : Program} (hwf : EveryOf WellFormed p)
    (hfaithful : EveryOf Faithful p) (hmode : EveryOf KeepsMode p)
    (file : String) : ∃ q, parse file p.print = .ok q ∧ q.bare = p.bare :=
  parse_print_of_printable (Node.everyOf_printable hwf hfaithful hmode) file

section

variable (values : List Expr)

/-- A `switch` with one case, whose body is empty. -/
def singleCase : Expr :=
  .switch (.int 1 default)
    [{ values, body := { statements := [], loc := default }, loc := default }]
    none default

def singleCaseProgram : Program :=
  { statements := [.expr (singleCase values) default], loc := default }

end

/-- A `switch` with a name as the last value of a case. -/
def nameInCase : Program :=
  singleCaseProgram [.int 1 default, .name { text := "x", loc := default }]

theorem parse_print_nameInCase : EveryOf WellFormed nameInCase ∧
    EveryOf Faithful nameInCase ∧ EveryOf KeepsMode nameInCase ∧
    ∃ q, parse "" nameInCase.print = .ok q ∧ q.bare = nameInCase.bare := by
  have hwf : EveryOf WellFormed nameInCase :=
    Node.everyOf_of_checks 9 (by decide +kernel)
  have hfaithful : EveryOf Faithful nameInCase :=
    Node.everyOf_of_checks 9 (by decide +kernel)
  have hmode : EveryOf KeepsMode nameInCase :=
    Node.everyOf_of_checks 9 (by decide +kernel)
  exact ⟨hwf, hfaithful, hmode, parse_print hwf hfaithful hmode ""⟩

/-- The same behind another `switch` among the values. -/
def nameBehindSwitch : Program :=
  singleCaseProgram
    [singleCase [.int 1 default], .name { text := "x", loc := default }]

/-- A `switch` among the values of a case turns their mode off, so a name behind
it takes the brace of the body. -/
theorem parse_print_nameBehindSwitch : EveryOf WellFormed nameBehindSwitch ∧
    EveryOf Faithful nameBehindSwitch ∧
    ∀ q, parse "" nameBehindSwitch.print ≠ .ok q := by
  refine ⟨Node.everyOf_of_checks 9 (by decide +kernel),
    Node.everyOf_of_checks 9 (by decide +kernel), ?_⟩
  have hrefused : (parse "" nameBehindSwitch.print).toBool = false := by
    decide +kernel
  intro q hq
  rw [hq] at hrefused
  cases hrefused

/-! ### Sources -/

theorem parse_print_of_parse {file source : String} {p : Program}
    (hparse : parse file source = .ok p) (hfaithful : EveryOf Faithful p)
    (hmode : EveryOf KeepsMode p) :
    ∃ q, parse file p.print = .ok q ∧ q.bare = p.bare ∧ q.print = p.print := by
  have hprintable := Node.everyOf_printable (wellFormed_of_parse hparse)
    hfaithful hmode
  obtain ⟨q, hq, hbare⟩ := parse_print_of_printable hprintable file
  exact ⟨q, hq, hbare, Program.print_eq_of_bare_eq hbare⟩

theorem parse_print_of_parse_spreadArgument :
    ∃ p, parse "" "let x = f(...a)[1..2];" = .ok p ∧ EveryOf Faithful p ∧
      EveryOf KeepsMode p ∧
      ∃ q, parse "" p.print = .ok q ∧ q.bare = p.bare ∧ q.print = p.print := by
  have hchecks : (match parse "" "let x = f(...a)[1..2];" with
      | .ok p => Node.checksProgram Faithful 9 p &&
        Node.checksProgram KeepsMode 9 p
      | .error _ => false) = true := by
    decide +kernel
  split at hchecks
  · next p hparse =>
    rw [Bool.and_eq_true] at hchecks
    have hfaithful := Node.everyOf_of_checks 9 hchecks.1
    have hmode := Node.everyOf_of_checks 9 hchecks.2
    exact ⟨p, hparse, hfaithful, hmode,
      parse_print_of_parse hparse hfaithful hmode⟩
  · cases hchecks

/-- Behind the two points of a range the point of a number makes them three. -/
theorem parse_print_of_parse_leadingPoint :
    ∃ p, parse "" "let x = a..(.5);" = .ok p ∧
      ∀ q, parse "" p.print ≠ .ok q := by
  have hrefused : (match parse "" "let x = a..(.5);" with
      | .ok p => (parse "" p.print).toBool
      | .error _ => true) = false := by
    decide +kernel
  split at hrefused
  · next p hparse =>
    refine ⟨p, hparse, fun q hq => ?_⟩
    rw [hq] at hrefused
    cases hrefused
  · cases hrefused

end Script
