import Script.Proofs.Syntax.Reports
import Script.Proofs.Syntax.Sites

/-!
# Where the sites of a result stand

A state is `Over` a list of tokens if its own tokens are those from the current one on.
Between two states a parser `Holds` sites: they are laid out as they should be, and they
stand between the start of the first current token and the end of the last one.
-/

namespace Script

/-- What is to be shown of every site of a program. -/
def Site.Laid (file : String) (all : List Token) : Site → Prop :=
  Every fun x => x.Nests file ∧ x.Marked all

/-- The statements of a site follow one another, and a function is marked as it should
be. -/
structure Site.Orderly (all : List Token) (x : Site) : Prop where
  ordered : x.statements.Pairwise fun st st' => st.loc.stop ≤ st'.loc.start
  marked : x.Marked all

/-- The order of two tokens, which may be the end of input both. -/
structure Token.Before (t t' : Token) : Prop where
  start : t.start ≤ t'.start
  stop : t.stop ≤ t'.stop
  apart : t.kind ≠ .eof → t.stop ≤ t'.start

namespace Parser

variable {α β σ : Type} {file : String} {all : List Token} {s s' s'' : State}

namespace State

/-- The state stands over some tokens of a file. -/
structure Over (file : String) (all : List Token) (s : State) : Prop where
  file : s.file = file
  ended : s.Ended
  placed : ∀ t ∈ s.tokens, t.Placed
  ordered : s.tokens.Pairwise Token.Before
  known : ∀ t ∈ s.tokens, t ∈ all
  ahead : ∀ t ∈ all, t.kind ≠ .eof → s.current.start ≤ t.start → t ∈ s.tokens

/-! ### Moving on -/

theorem advanced_file (s : State) : s.advanced.file = s.file := by
  unfold State.advanced
  split <;> rfl

/-- The tokens of the next state are those behind the current one. -/
theorem mem_tokens_advanced {t : Token} :
    t ∈ s.advanced.tokens ↔ t ∈ s.next :: s.rest := by
  rw [tokens_advanced]
  split
  · next hrest => simp [hrest]
  · rfl

namespace Over

variable (hs : s.Over file all)

include hs

theorem current : s.current.Placed := hs.placed _ List.mem_cons_self

theorem before_next : s.current.Before s.next :=
  (List.pairwise_cons.mp hs.ordered).1 _ List.mem_cons_self

theorem congr (htokens : s'.tokens = s.tokens) (hfile : s'.file = s.file) :
    s'.Over file all := by
  have hcurrent : s'.current = s.current := (List.cons.inj htokens).1
  refine ⟨hfile.trans hs.file, hs.ended.congr htokens, ?_, ?_, ?_, ?_⟩
  · rw [htokens]
    exact hs.placed
  · rw [htokens]
    exact hs.ordered
  · rw [htokens]
    exact hs.known
  · rw [htokens, hcurrent]
    exact hs.ahead

theorem advanced : s.advanced.Over file all := by
  have htail := List.pairwise_cons.mp hs.ordered
  refine ⟨s.advanced_file.trans hs.file, hs.ended.advanced, fun t ht => ?_, ?_,
    fun t ht => ?_, fun t ht hmore hstart => ?_⟩
  · exact hs.placed t (List.mem_cons_of_mem _ (mem_tokens_advanced.mp ht))
  · rw [tokens_advanced]
    split
    · next hrest =>
      have hnext : s.next.kind = .eof := by
        have hlast := hs.ended.last
        rw [State.tokens, hrest] at hlast
        exact hlast s.next rfl
      simp only [List.pairwise_cons, List.mem_singleton, forall_eq, List.not_mem_nil,
        false_imp_iff, implies_true, List.Pairwise.nil, and_true]
      exact ⟨le_refl _, le_refl _, fun hne => absurd hnext hne⟩
    · exact htail.2
  · exact hs.known t (List.mem_cons_of_mem _ (mem_tokens_advanced.mp ht))
  · rw [advanced_current] at hstart
    have hmem := hs.ahead t ht hmore (hs.before_next.start.trans hstart)
    rw [mem_tokens_advanced]
    rcases List.mem_cons.mp hmem with rfl | hmem
    · have hapart := (hs.before_next.apart hmore).trans hstart
      exact absurd hs.current.nonempty hapart.not_gt
    · exact hmem

omit hs in
theorem forward (hs : s.Over file all) (h : s.Forward s') (hfile : s'.file = s.file) :
    s'.Over file all := by
  induction h with
  | stay htokens => exact hs.congr htokens hfile
  | @move s s' _ ih => exact ih hs.advanced (hfile.trans s.advanced_file.symm)

omit hs in
/-- The current token only comes to stand further behind. -/
theorem before_forward (h : s.Forward s') (hs : s.Over file all) :
    s.current.start ≤ s'.current.start ∧ s.current.stop ≤ s'.current.stop := by
  induction h with
  | stay htokens =>
    have hcurrent := (List.cons.inj htokens).1
    rw [hcurrent]
    exact ⟨le_refl _, le_refl _⟩
  | @move s s' _ ih =>
    obtain ⟨hstart, hstop⟩ := ih hs.advanced
    rw [advanced_current] at hstart hstop
    exact ⟨hs.before_next.start.trans hstart, hs.before_next.stop.trans hstop⟩

/-- Behind a token that is not the end of input. -/
theorem apart (hcurrent : s.current.kind ≠ .eof) :
    s.current.stop ≤ s.advanced.current.start := by
  rw [advanced_current]
  exact hs.before_next.apart hcurrent

theorem start_lt (hcurrent : s.current.kind ≠ .eof) :
    s.current.start < s.advanced.current.start :=
  hs.current.nonempty.trans_le (hs.apart hcurrent)

end Over

/-! ### Sites between two states -/

/-- Between two states there are these sites. -/
structure Holds (file : String) (all : List Token) (s s' : State) (xs : List Site) :
    Prop where
  base : s.Over file all
  top : s'.Over file all
  forward : s.Forward s'
  laid : ∀ x ∈ xs, x.Laid file all
  starts : ∀ x ∈ xs, s.current.start ≤ x.loc.start
  stops : ∀ x ∈ xs, x.loc.stop ≤ s'.current.stop

/-- The same where the second state is not at the end of input. -/
structure Lays (file : String) (all : List Token) (s s' : State) (xs : List Site) : Prop
    extends Holds file all s s' xs where
  more : s'.current.kind ≠ .eof

variable {xs ys : List Site} {x : Site}

theorem Over.holds (hs : s.Over file all) : s.Holds file all s [] :=
  ⟨hs, hs, .refl s, by simp, by simp, by simp⟩

theorem Over.proper_here (hs : s.Over file all) :
    (locationOf s s.current).Proper file :=
  ⟨hs.file, hs.current.line, hs.current.column, hs.current.nonempty⟩

namespace Holds

theorem sub (h : s.Holds file all s' xs) (hsub : ys ⊆ xs) : s.Holds file all s' ys :=
  ⟨h.base, h.top, h.forward, fun y hy => h.laid y (hsub hy),
    fun y hy => h.starts y (hsub hy), fun y hy => h.stops y (hsub hy)⟩

theorem add (h : s.Holds file all s' xs) (h' : s'.Holds file all s'' ys) :
    s.Holds file all s'' (xs ++ ys) := by
  have hstart := (Over.before_forward h.forward h.base).1
  have hstop := (Over.before_forward h'.forward h.top).2
  refine ⟨h.base, h'.top, h.forward.trans h'.forward, fun x hx => ?_, fun x hx => ?_,
    fun x hx => ?_⟩
  · exact (List.mem_append.mp hx).elim (h.laid x) (h'.laid x)
  · exact (List.mem_append.mp hx).elim (h.starts x) fun hx => hstart.trans (h'.starts x hx)
  · exact (List.mem_append.mp hx).elim (fun hx => (h.stops x hx).trans hstop) (h'.stops x)

theorem step (h : s.Holds file all s' xs) : s.Holds file all s'.advanced xs := by
  have hstep : s'.Holds file all s'.advanced [] :=
    ⟨h.top, h.top.advanced, s'.forward_advanced, by simp, by simp, by simp⟩
  simpa using h.add hstep

/-- Sites behind a step. -/
theorem of_step (h : s.advanced.Holds file all s' xs) (hs : s.Over file all) :
    s.Holds file all s' xs :=
  hs.holds.step.add h

/-- A site between two states if its parts are. -/
theorem close (h : s.Holds file all s' xs) (hproper : x.loc.Proper file)
    (hstarts : s.current.start ≤ x.loc.start) (hstops : x.loc.stop ≤ s'.current.stop)
    (hparts : ∀ y ∈ x.parts, y ∈ xs ∧ y.loc.Within x.loc) (horderly : x.Orderly all) :
    s.Holds file all s' [x] := by
  have hlaid : x.Laid file all :=
    .intro ⟨⟨hproper, fun y hy => (hparts y hy).2, horderly.ordered⟩, horderly.marked⟩
      fun y hy => h.laid y (hparts y hy).1
  refine ⟨h.base, h.top, h.forward, ?_, ?_, ?_⟩ <;> intro y hy <;>
    obtain rfl := List.mem_singleton.mp hy
  · exact hlaid
  · exact hstarts
  · exact hstops

/-- A site that starts with the current token and goes on to `stop`. -/
theorem reach {stop : Location} (h : s.Holds file all s' xs)
    (hloc : x.loc = (locationOf s s.current).through stop)
    (hstop : stop.stop ≤ s'.current.stop)
    (hparts : ∀ y ∈ x.parts, y ∈ xs ∧ y.loc.stop ≤ stop.stop)
    (horderly : x.Orderly all) : s.Holds file all s' [x] := by
  have hstart : x.loc.start = s.current.start := by
    rw [hloc, Location.start_through]
    rfl
  have hmax : x.loc.stop = max s.current.stop stop.stop := by
    rw [hloc, Location.stop_through]
    rfl
  refine h.close (hloc ▸ h.base.proper_here.through stop) hstart.ge ?_ (fun y hy => ?_) horderly
  · rw [hmax]
    exact max_le (Over.before_forward h.forward h.base).2 hstop
  · obtain ⟨hmem, hle⟩ := hparts y hy
    refine ⟨hmem, hstart ▸ h.starts y hmem, ?_⟩
    rw [hmax]
    exact hle.trans (le_max_right _ _)

/-- A site from the first current token to the last one. -/
theorem span (h : s.Holds file all s' xs)
    (hloc : x.loc = (locationOf s s.current).through (locationOf s' s'.current))
    (hparts : x.parts ⊆ xs) (horderly : x.Orderly all) : s.Holds file all s' [x] :=
  h.reach hloc (le_refl _) (fun y hy => ⟨hparts hy, h.stops y (hparts hy)⟩) horderly

/-- A site that starts where the one in front of the current token does. -/
theorem extend {first : State} {left : Site} {stop : Location}
    (hleft : first.Holds file all s [left]) (hbefore : left.loc.stop ≤ s.current.start)
    (h : s.Holds file all s' xs) (hloc : x.loc = left.loc.through stop)
    (hstop : stop.stop ≤ s'.current.stop)
    (hparts : ∀ y ∈ x.parts, y = left ∨ y ∈ xs ∧ y.loc.stop ≤ stop.stop)
    (horderly : x.Orderly all) : first.Holds file all s' [x] := by
  have hmem := List.mem_singleton_self left
  have hproper : left.loc.Proper file := (hleft.laid _ hmem).here.1.proper
  have hstart : x.loc.start = left.loc.start := by rw [hloc, Location.start_through]
  have hmax : x.loc.stop = max left.loc.stop stop.stop := by
    rw [hloc, Location.stop_through]
  have hall := hleft.add h
  refine hall.close (hloc ▸ hproper.through stop) (hstart ▸ hleft.starts _ hmem) ?_
    (fun y hy => ?_) horderly
  · rw [hmax]
    exact max_le (hall.stops _ (List.mem_append_left _ hmem)) hstop
  · rcases hparts y hy with rfl | ⟨hy, hle⟩
    · refine ⟨List.mem_append_left _ hmem, hstart.le, ?_⟩
      rw [hmax]
      exact le_max_left _ _
    · refine ⟨List.mem_append_right _ hy, ?_, ?_⟩
      · rw [hstart]
        exact hproper.nonempty.le.trans (hbefore.trans (h.starts y hy))
      · rw [hmax]
        exact hle.trans (le_max_right _ _)

/-- A site without parts at the current token. -/
theorem leaf (hs : s.Over file all) (hloc : x.loc = locationOf s s.current)
    (hparts : x.parts = []) (horderly : x.Orderly all) : s.Holds file all s [x] := by
  refine hs.holds.close (hloc ▸ hs.proper_here) ?_ ?_ (by simp [hparts]) horderly
  · rw [hloc]
    exact le_refl _
  · rw [hloc]
    exact le_refl _

/-- The current token as a name. -/
theorem name (h : s.Holds file all s' xs) : s.Holds file all s'
    (xs ++ [Site.name { text := s'.current.text, loc := locationOf s' s'.current }]) :=
  h.add (leaf h.top rfl rfl ⟨.nil, trivial⟩)

/-- A site around a single other one. -/
theorem wrap {y : Site} (h : s.Holds file all s' [y]) (hloc : x.loc = y.loc)
    (hparts : x.parts = [y]) (horderly : x.Orderly all) : s.Holds file all s' [x] := by
  have hy := List.mem_singleton_self y
  refine h.close (hloc ▸ (h.laid y hy).here.1.proper) (hloc ▸ h.starts y hy)
    (hloc ▸ h.stops y hy) (fun z hz => ?_) horderly
  rw [hparts] at hz
  obtain rfl := List.mem_singleton.mp hz
  exact ⟨hy, hloc ▸ .refl _⟩

theorem of_forall (h : s.Holds file all s' ys) (hxs : ∀ x ∈ xs, s.Holds file all s' [x]) :
    s.Holds file all s' xs :=
  ⟨h.base, h.top, h.forward,
    fun x hx => (hxs x hx).laid x (List.mem_singleton_self x),
    fun x hx => (hxs x hx).starts x (List.mem_singleton_self x),
    fun x hx => (hxs x hx).stops x (List.mem_singleton_self x)⟩

theorem of_mem (h : s.Holds file all s' xs) (hx : x ∈ xs) : s.Holds file all s' [x] :=
  h.sub fun _ hy => List.mem_singleton.mp hy ▸ hx

theorem union (h : s.Holds file all s' xs) (h' : s.Holds file all s' ys) :
    s.Holds file all s' (xs ++ ys) := by
  refine h.of_forall fun x hx => ?_
  rcases List.mem_append.mp hx with hx | hx
  · exact h.of_mem hx
  · exact h'.of_mem hx

/-- A type may stand where a name does. -/
theorem typeAt {id : Name} {text : String} (h : s.Holds file all s' [.name id]) :
    s.Holds file all s' [.type (.named text id.loc)] := by
  have hid := List.mem_singleton_self (Site.name id)
  exact h.close (h.laid _ hid).here.1.proper (h.starts (.name id) hid)
    (h.stops (.name id) hid) (by simp [Site.parts, Site.ofType]) ⟨.nil, trivial⟩

/-- A state that a failure has left. -/
theorem skip (h : s.Holds file all s' xs) (hforward : s'.Forward s'')
    (hfile : s''.file = s'.file) : s.Holds file all s'' xs := by
  have hskip : s'.Holds file all s'' [] :=
    ⟨h.top, h.top.forward hforward hfile, hforward, by simp, by simp, by simp⟩
  simpa using h.add hskip

/-- The mode for the values of a case does not matter. -/
theorem inCase {b b' : Bool} (h : ({ s with inCase := b } : State).Holds file all s' xs)
    (hs : s.Over file all) :
    s.Holds file all ({ s' with inCase := b' } : State) xs := by
  have hbefore : s.Forward ({ s with inCase := b } : State) := .stay rfl
  have hbehind : s'.Forward ({ s' with inCase := b' } : State) := .stay rfl
  exact ⟨hs, h.top.congr rfl rfl, (hbefore.trans h.forward).trans hbehind, h.laid,
    h.starts, h.stops⟩

theorem lays {kind : Token.Kind} (h : s.Holds file all s' xs)
    (hcurrent : s'.current.kind = kind) (hkind : kind ≠ .eof) : s.Lays file all s' xs :=
  ⟨h, hcurrent ▸ hkind⟩

/-- Behind an expected token that is not the end of input. -/
theorem lays_step {kind : Token.Kind} (h : s.Holds file all s' xs)
    (hnext : s'.next.kind = kind) (hkind : kind ≠ .eof) :
    s.Lays file all s'.advanced xs := by
  apply h.step.lays _ hkind
  rw [advanced_current, hnext]

end Holds

/-! ### Colons between two states -/

/-- A colon has been passed between two states. -/
def PassesColon (all : List Token) (s s' : State) : Prop :=
  ∃ t ∈ all, t.kind = .colon ∧ s.current.start < t.start ∧ t.start ≤ s'.current.start

theorem not_passesColon_refl (s : State) : ¬ PassesColon all s s :=
  fun ⟨_, _, _, hlt, hle⟩ => (hlt.trans_le hle).false

theorem passesColon_trans (hs : s.Over file all) (h : s.Forward s')
    (hs' : s'.Over file all) (h' : s'.Forward s'') :
    PassesColon all s s'' ↔ PassesColon all s s' ∨ PassesColon all s' s'' := by
  have hle := (Over.before_forward h hs).1
  have hle' := (Over.before_forward h' hs').1
  refine ⟨fun ⟨t, ht, hcolon, hlt, hend⟩ => ?_, ?_⟩
  · rcases le_or_gt t.start s'.current.start with hfirst | hsecond
    · exact Or.inl ⟨t, ht, hcolon, hlt, hfirst⟩
    · exact Or.inr ⟨t, ht, hcolon, hsecond, hend⟩
  · rintro (⟨t, ht, hcolon, hlt, hend⟩ | ⟨t, ht, hcolon, hlt, hend⟩)
    · exact ⟨t, ht, hcolon, hlt, hend.trans hle'⟩
    · exact ⟨t, ht, hcolon, hle.trans_lt hlt, hend⟩

theorem passesColon_advanced (hs : s.Over file all) :
    PassesColon all s s.advanced ↔ s.next.kind = .colon := by
  rw [PassesColon, advanced_current]
  refine ⟨fun ⟨t, ht, hcolon, hlt, hend⟩ => ?_, fun hcolon => ?_⟩
  · have hmore : t.kind ≠ .eof := by
      rw [hcolon]
      decide
    rcases List.mem_cons.mp (hs.ahead t ht hmore hlt.le) with rfl | hmem
    · exact absurd hlt (lt_irrefl _)
    · rcases List.mem_cons.mp hmem with rfl | hmem
      · exact hcolon
      · have htail := (List.pairwise_cons.mp hs.ordered).2
        have hbefore := (List.pairwise_cons.mp htail).1 t hmem
        have hstays := (List.pairwise_cons.mp hs.ended.stays).2
        have hnext : s.next.kind ≠ .eof := fun heof =>
          hmore ((List.pairwise_cons.mp hstays).1 t hmem heof)
        have hnonempty := (hs.placed s.next (List.mem_cons_of_mem _ List.mem_cons_self)).nonempty
        exact absurd (hnonempty.trans_le (hbefore.apart hnext)) hend.not_gt
  · have hcurrent : s.current.kind ≠ .eof := fun heof => by
      rw [hs.ended.next_eof heof] at hcolon
      cases hcolon
    refine ⟨s.next, hs.known _ (List.mem_cons_of_mem _ List.mem_cons_self), hcolon, ?_,
      le_refl _⟩
    exact hs.current.nonempty.trans_le (hs.before_next.apart hcurrent)

namespace Holds

variable (h : s.Holds file all s' xs)

include h

theorem passesColon_step :
    PassesColon all s s'.advanced ↔ PassesColon all s s' ∨ s'.next.kind = .colon := by
  rw [passesColon_trans h.base h.forward h.top s'.forward_advanced,
    passesColon_advanced h.top]

theorem passesColon_add (h' : s'.Holds file all s'' ys) :
    PassesColon all s s'' ↔ PassesColon all s s' ∨ PassesColon all s' s'' :=
  passesColon_trans h.base h.forward h.top h'.forward

end Holds

end State

open State

/-! ### Steps -/

variable {E : Prop} {p : Parser α} {R : β → State → Prop}

theorem leads_spanFrom_bind {f : Location → Parser β} {start : Location} :
    Leads E (spanFrom start >>= f) s R ↔
      Leads E (f (start.through (locationOf s s.current))) s R := Iff.rfl

theorem leads_insideCase_bind {f : Bool → Parser β} :
    Leads E (insideCase >>= f) s R ↔ Leads E (f s.inCase) s R := Iff.rfl

theorem leads_expect_bind {f : Unit → Parser β} {kind : Token.Kind}
    (h : s.next.kind = kind → Leads E (f ()) s.advanced R) :
    Leads E (expect kind >>= f) s R := by
  refine leads_expect.bind ?_
  rintro _ s' _ ⟨rfl, hnext⟩
  exact h hnext

/-- A choice by the next token. -/
theorem leads_nextIs {kind : Token.Kind} {yes no : Parser β}
    (hyes : s.next.kind = kind → Leads E yes s R) (hno : Leads E no s R) :
    Leads E (nextIs kind >>= fun b => if b = true then yes else no) s R := by
  rw [leads_nextIs_bind]
  split
  · next hkind => exact hyes (beq_iff_eq.mp hkind)
  · exact hno

theorem takeComma_eq (s : State) : takeComma s =
    if s.next.kind = .comma then .ok true s.advanced else .ok false s := by
  change (if (s.next.kind == .comma) = true then
      (advance >>= fun _ => Pure.pure true : Parser Bool) else Pure.pure false) s = _
  simp only [beq_iff_eq]
  split
  · exact bind_ok (advance_eq s)
  · rfl

theorem leads_takeComma_bind {f : Bool → Parser β}
    (hyes : s.next.kind = .comma → Leads E (f true) s.advanced R)
    (hno : Leads E (f false) s R) : Leads E (takeComma >>= f) s R := by
  unfold Leads
  by_cases hcomma : s.next.kind = .comma
  · rw [bind_ok ((takeComma_eq s).trans (if_pos hcomma))]
    exact (hyes hcomma).trans s.forward_advanced
  · rw [bind_ok ((takeComma_eq s).trans (if_neg hcomma))]
    exact hno

theorem leads_inCaseValues {Q T : α → State → Prop}
    (h : Leads E p { s with inCase := true } Q)
    (hQ : ∀ a s', Q a s' → T a { s' with inCase := false }) :
    Leads E (inCaseValues p) s T := by
  have hsame : s.Forward { s with inCase := true } := .stay rfl
  unfold Leads at h ⊢
  unfold Parser.inCaseValues
  cases hrun : p { s with inCase := true } with
  | ok a s' =>
    rw [hrun] at h
    exact ⟨(hsame.trans h.1).trans (.stay rfl), hQ a s' h.2⟩
  | failed s' =>
    rw [hrun] at h
    exact (hsame.trans h).trans (.stay rfl)
  | exhausted =>
    rw [hrun] at h
    exact h

theorem leads_optional {Q : α → State → Prop} {T : Option α → State → Prop}
    (h : Leads E p s Q) (hsome : ∀ a s', Q a s' → T (some a) s')
    (hnone : ∀ s', p s = .failed s' → s.Forward s' → T none s') :
    Leads E (optional p) s T := by
  unfold Leads at h ⊢
  unfold Parser.optional
  cases hrun : p s with
  | ok a s' =>
    rw [hrun] at h
    exact ⟨h.1, hsome a s' h.2⟩
  | failed s' =>
    rw [hrun] at h
    exact ⟨h, hnone s' hrun h⟩
  | exhausted =>
    rw [hrun] at h
    exact h

/-- What a pass keeps up, and what it ends with. -/
def Pass.Keeps (I : σ → State → Prop) (Q : β → State → Prop) : Pass σ β → State → Prop
  | .again state, s => I state s
  | .done result, s => Q result s

theorem leads_iterate_of {body : σ → Parser (Pass σ β)} {I : σ → State → Prop}
    {Q : β → State → Prop}
    (hbody : ∀ state s, I state s → Leads True (body state) s (Pass.Keeps I Q))
    (fuel : List Token) {state : σ} (h : I state s) :
    Leads True (iterate body fuel state) s Q := by
  induction fuel generalizing state s with
  | nil => trivial
  | cons t fuel ih =>
    have hpass := hbody state s h
    unfold Leads at hpass ih ⊢
    unfold iterate
    cases hrun : body state s with
    | ok pass s' =>
      rw [hrun] at hpass
      cases pass with
      | again state' => exact (ih hpass.2).trans hpass.1
      | done result => exact hpass
    | failed s' =>
      rw [hrun] at hpass
      exact hpass
    | exhausted => trivial

/-- A loop ends as its passes do, if what they keep up holds in front of it. -/
theorem leads_repeated_of {body : σ → Parser (Pass σ β)} {I : σ → State → Prop}
    {Q : β → State → Prop} {state : σ}
    (hbody : ∀ state s, I state s → Leads True (body state) s (Pass.Keeps I Q))
    (h : I state s) : Leads True (repeated body state) s Q :=
  leads_iterate_of hbody _ h

end Parser

end Script
