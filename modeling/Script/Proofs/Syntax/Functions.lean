import Script.Proofs.Syntax.Blocks

/-!
# Reading functions

Parameters, return types and a body.  Nothing in front of the body changes the
mode for case values.
-/

namespace Script

open Lexeme (sign word listed further)
open Node (inCaseAfter)
open Syntax (annotationLexemes returnLexemes)
open Script.Parser

variable {n : Nat} {s : State} {b : Bool} {x : Lexeme} {r : List Lexeme}
  {loc : Location}

/-! ### Types -/

theorem TypeExpr.inCaseAfter_lexemes {t : TypeExpr}
    (ht : t.isWellFormed = true) : inCaseAfter b t.lexemes = b := by
  induction t with
  | named name loc =>
    rw [lexemes, Node.inCaseAfter_cons
      (Syntax.kind_word_ne ht (by simp) rfl), Node.inCaseAfter_nil]
  | array element loc ih => simp [lexemes, ih ht]
  | map key value loc ihkey ihvalue =>
    rw [isWellFormed, Bool.and_eq_true] at ht
    simp [lexemes, ihkey ht.1, ihvalue ht.2]

theorem Syntax.inCaseAfter_annotation {type : Option TypeExpr}
    (htype : type.all TypeExpr.isWellFormed = true) :
    inCaseAfter b (annotationLexemes type) = b := by
  cases type with
  | none => exact Node.inCaseAfter_nil
  | some t => simp [annotationLexemes, TypeExpr.inCaseAfter_lexemes htype]

/-- A type behind the current token. -/
theorem Parser.runs_nextType {t : TypeExpr} (ht : t.isWellFormed = true)
    (hn : t.lexemes.length < n) (hx : x.kind ≠ .lbracket) :
    ReadsItem (grammar n).nextType TypeExpr.bare t.lexemes t.bare x b := by
  intro s r hs
  rw [TypeExpr.inCaseAfter_lexemes ht]
  cases n with
  | zero => omega
  | succ n =>
    unfold Grammar.nextType
    rw [runs_advance_bind]
    exact runs_typeHere ht (by omega) hx
      (hs.advanced_append t.lexemes_ne_nil)

/-- A type behind a colon, or nothing. -/
theorem Parser.runs_typeMark {type : Option TypeExpr}
    (htype : type.all TypeExpr.isWellFormed = true)
    (hn : (annotationLexemes type).length ≤ n) (hcolon : x.kind ≠ .colon)
    (hbracket : x.kind ≠ .lbracket)
    (hs : s.Faces b (annotationLexemes type ++ x :: r)) :
    Runs (grammar n).typeMark? s fun type' s' =>
      type'.map TypeExpr.bare = type.map TypeExpr.bare ∧ s'.Faces b (x :: r) := by
  unfold Grammar.typeMark?
  rw [runs_nextIs_bind]
  cases type with
  | none =>
    have hnext : s.next.kind ≠ .colon := by
      rw [hs.next_kind]
      exact hcolon
    rw [if_neg (by simpa using hnext), runs_pure_iff]
    exact ⟨rfl, hs⟩
  | some t =>
    simp only [annotationLexemes, List.length_cons, List.cons_append] at hn hs
    have hnext : s.next.kind = .colon := hs.next_kind
    have htype' : s.advanced.Faces b (t.lexemes ++ x :: r) := hs.step (by simp)
    have ht : t.isWellFormed = true := htype
    have hlength : t.lexemes.length < n := by omega
    have hrun := runs_nextType ht hlength hbracket s.advanced r htype'
    rw [hnext, if_pos (by rfl), runs_advance_bind]
    unfold Grammar.nextType at hrun
    rw [runs_advance_bind, TypeExpr.inCaseAfter_lexemes ht] at hrun
    rw [runs_advance_bind]
    refine Runs.bind hrun ?_
    rintro t' s' ⟨ht', hfaces⟩
    rw [runs_pure_iff]
    exact ⟨by simp [ht'], hfaces⟩

/-! ### Parameters -/

/-- Items that leave the mode for case values as it is can be read in any
order. -/
theorem Parser.readsEach_of_steady {α γ δ : Type} {item : Parser α} {f : α → δ}
    {lexemes : γ → List Lexeme} {value : γ → δ} {cs : List γ}
    (hsteady : ∀ c ∈ cs, inCaseAfter b (lexemes c) = b)
    (hcomma : ∀ c ∈ cs, ReadsItem item f (lexemes c) (value c) (sign .comma) b)
    (hlast : ∀ c ∈ cs, ReadsItem item f (lexemes c) (value c) x b) :
    ReadsEach item f lexemes value x b cs := by
  induction cs with
  | nil => trivial
  | cons c cs ih =>
    have hrest := ih (fun d hd => hsteady d (List.mem_cons_of_mem c hd))
      (fun d hd => hcomma d (List.mem_cons_of_mem c hd))
      (fun d hd => hlast d (List.mem_cons_of_mem c hd))
    cases cs with
    | nil => exact hlast c List.mem_cons_self
    | cons d cs =>
      refine ⟨hcomma c List.mem_cons_self, ?_⟩
      rw [hsteady c List.mem_cons_self]
      exact hrest

/-- Lists of such items leave the mode as it is, too. -/
theorem Node.inCaseAfter_listed {items : List (List Lexeme)}
    (hsteady : ∀ item ∈ items, inCaseAfter b item = b) :
    inCaseAfter b (listed items) = b := by
  induction items with
  | nil => exact inCaseAfter_nil
  | cons item items ih =>
    rw [listed, inCaseAfter_append, inCaseAfter_further,
      hsteady item List.mem_cons_self]
    exact ih fun item' hitem' => hsteady item' (List.mem_cons_of_mem item hitem')

namespace Params

/-- A parameter with its type, if it has one. -/
abbrev Marked : Type := Name × Option TypeExpr

def Marked.bare (p : Marked) : Marked := (p.1.bare, p.2.map TypeExpr.bare)

def Marked.lexemes (p : Marked) : List Lexeme :=
  p.1.lexeme :: annotationLexemes p.2

def Marked.isWellFormed (p : Marked) : Bool :=
  p.1.isIdentifier && p.2.all TypeExpr.isWellFormed

/-- The parameters one by one. -/
def marked : Params → List Marked
  | plain names => names.map fun name => (name, none)
  | typed params => params.map fun p => (p.name, some p.type)

theorem lexemes_eq_marked (params : Params) :
    params.lexemes = sign .lparen ::
      (listed (params.marked.map Marked.lexemes) ++ [sign .rparen]) := by
  cases params with
  | plain names =>
    simp [lexemes, marked, Function.comp_def, Marked.lexemes,
      annotationLexemes]
  | typed params =>
    have hlexemes : (fun p : TypedName => Marked.lexemes (p.name, some p.type)) =
        TypedName.lexemes := rfl
    simp [lexemes, marked, Function.comp_def, hlexemes]

theorem isWellFormed_marked {params : Params}
    (hparams : params.isWellFormed = true) :
    ∀ p ∈ params.marked, Marked.isWellFormed p = true := by
  cases params with
  | plain names =>
    intro p hp
    obtain ⟨name, hname, rfl⟩ := List.mem_map.mp hp
    have := List.all_eq_true.mp hparams name hname
    simpa [Marked.isWellFormed] using this
  | typed params =>
    rw [isWellFormed, Bool.and_eq_true] at hparams
    intro p hp
    obtain ⟨param, hparam, rfl⟩ := List.mem_map.mp hp
    exact List.all_eq_true.mp hparams.2 param hparam

/-- The types of parameters that all have one. -/
theorem map_getD_of_marked {read : List Marked} {params : List TypedName}
    (hread : read.map Marked.bare =
      params.map fun p => (p.name.bare, some p.type.bare)) :
    (read.map fun p => TypedName.bare
      { name := p.1, type := p.2.getD (.named "any" p.1.loc) }) =
      params.map TypedName.bare := by
  induction read generalizing params with
  | nil =>
    cases params with
    | nil => rfl
    | cons param params => cases hread
  | cons p read ih =>
    cases params with
    | nil => cases hread
    | cons param params =>
      rw [List.map_cons, List.map_cons] at hread
      obtain ⟨hfirst, hrest⟩ := List.cons.inj hread
      rw [List.map_cons, List.map_cons, ih hrest]
      obtain ⟨name, _ | type⟩ := p
      · cases congrArg Prod.snd hfirst
      · have hname : name.bare = param.name.bare := congrArg Prod.fst hfirst
        have htype : type.bare = param.type.bare :=
          Option.some.inj (congrArg Prod.snd hfirst)
        simp [TypedName.bare, hname, htype]

/-- Parameters are settled as they were written. -/
theorem bare_settleParams {params : Params} {read : List Marked}
    (hparams : params.isWellFormed = true)
    (hread : read.map Marked.bare = params.marked.map Marked.bare) :
    (Grammar.settleParams read).bare = params.bare := by
  have hsome : read.any (·.2.isSome) = params.marked.any (·.2.isSome) := by
    have := congrArg (·.any (·.2.isSome)) hread
    simpa [List.any_map, Function.comp_def, Marked.bare] using this
  unfold Grammar.settleParams
  rw [hsome]
  cases params with
  | plain names =>
    rw [if_neg (by simp [marked])]
    have hnames := congrArg (List.map Prod.fst) hread
    simp only [marked, List.map_map, Function.comp_def, Marked.bare] at hnames
    simpa [bare, Function.comp_def] using hnames
  | typed params =>
    rw [isWellFormed, Bool.and_eq_true] at hparams
    cases params with
    | nil => cases hparams.1
    | cons param params =>
      rw [if_pos (by simp [marked])]
      have hmarked : read.map Marked.bare = (param :: params).map fun p =>
          (p.name.bare, some p.type.bare) := by
        rw [hread, marked, List.map_map]
        rfl
      have htyped := map_getD_of_marked hmarked
      simpa [bare, Function.comp_def] using htyped

theorem Marked.inCaseAfter_lexemes {p : Marked} (hp : p.isWellFormed = true) :
    inCaseAfter b p.lexemes = b := by
  rw [isWellFormed, Bool.and_eq_true] at hp
  rw [lexemes, Node.inCaseAfter_cons (by rw [Name.kind_lexeme hp.1]; simp),
    Syntax.inCaseAfter_annotation hp.2]

end Params

open Params (Marked)

theorem Parser.runs_parameter {p : Marked} (hp : p.isWellFormed = true)
    (hn : p.lexemes.length ≤ n) (hcolon : x.kind ≠ .colon)
    (hbracket : x.kind ≠ .lbracket) :
    ReadsItem (grammar n).parameter Marked.bare p.lexemes p.bare x b := by
  intro s r hs
  rw [Marked.inCaseAfter_lexemes hp]
  rw [Marked.isWellFormed, Bool.and_eq_true] at hp
  simp only [Marked.lexemes, List.length_cons, List.cons_append] at hn hs
  have hname := hs.advanced (by simp)
  unfold Grammar.parameter
  rw [runs_expect_bind (by rw [hs.next_kind, Name.kind_lexeme hp.1]),
    runs_nameHere_bind]
  refine Runs.bind (runs_typeMark hp.2 (by omega) hcolon hbracket
    hname.faces) ?_
  rintro type' s' ⟨htype', hfaces⟩
  rw [runs_pure_iff]
  exact ⟨by simp [Marked.bare, htype', Name.bare_mk hname.current_text], hfaces⟩

/-- Parameters in parentheses, up to the closing one. -/
theorem Parser.runs_parameters {params : Params}
    (hparams : params.isWellFormed = true) (hn : params.lexemes.length ≤ n)
    (hs : s.Views b (params.lexemes ++ x :: r)) :
    Runs (grammar n).parameters s fun params' s' =>
      params'.bare = params.bare ∧ s'.Faces b (x :: r) := by
  have hwf := Params.isWellFormed_marked hparams
  rw [Params.lexemes_eq_marked] at hn hs
  simp only [List.length_cons, List.length_append, List.cons_append,
    List.append_assoc, List.nil_append] at hn hs
  unfold Grammar.parameters
  rw [runs_nextIs_bind]
  cases hmarked : params.marked with
  | nil =>
    rw [hmarked] at hs
    have hnext : s.next.kind = .rparen := hs.faces.next_kind
    rw [hnext, if_pos (by rfl), runs_advance_bind, runs_pure_iff]
    refine ⟨?_, hs.faces.step (by simp)⟩
    have hread : ([] : List Marked).map Marked.bare =
        params.marked.map Marked.bare := by rw [hmarked]
    exact Params.bare_settleParams hparams hread
  | cons p ps =>
    rw [hmarked] at hn hs hwf
    have hident : p.1.lexeme.kind = .ident := by
      have hp := hwf p List.mem_cons_self
      rw [Marked.isWellFormed, Bool.and_eq_true] at hp
      exact Name.kind_lexeme hp.1
    have hnext : s.next.kind = .ident := by
      rw [List.map_cons, listed, Marked.lexemes] at hs
      exact hs.faces.next_kind.trans hident
    have heach : ReadsEach (grammar n).parameter Marked.bare Marked.lexemes
        Marked.bare (sign .rparen) b (p :: ps) := by
      have hlength : ∀ c ∈ p :: ps, c.lexemes.length ≤ n := fun c hc => by
        have := Lexeme.length_le_listed (List.mem_map_of_mem (f := Marked.lexemes) hc)
        omega
      exact readsEach_of_steady
        (fun c hc => Marked.inCaseAfter_lexemes (hwf c hc))
        (fun c hc => runs_parameter (hwf c hc) (hlength c hc) (by simp) (by simp))
        (fun c hc => runs_parameter (hwf c hc) (hlength c hc) (by simp) (by simp))
    have hsteady : inCaseAfter b (listed ((p :: ps).map Marked.lexemes)) = b := by
      refine Node.inCaseAfter_listed fun item hitem => ?_
      obtain ⟨c, hc, rfl⟩ := List.mem_map.mp hitem
      exact Marked.inCaseAfter_lexemes (hwf c hc)
    rw [hnext, if_neg (by decide)]
    refine Runs.bind (runs_commaList (by simp) heach hs.faces) ?_
    rintro read s' ⟨hread, hfaces⟩
    rw [hsteady] at hfaces
    rw [runs_expect_bind hfaces.next_sign, runs_pure_iff]
    refine ⟨Params.bare_settleParams hparams ?_, hfaces.step (by simp)⟩
    rw [hread, hmarked]

/-! ### Return types and body -/

/-- The return types, which a brace follows. -/
theorem Parser.runs_returnTypes {returns : List TypeExpr}
    (hreturns : returns.all TypeExpr.isWellFormed = true)
    (hn : (returnLexemes returns).length ≤ n)
    (hs : s.Faces b (returnLexemes returns ++ sign .lbrace :: r)) :
    Runs (grammar n).returnTypes s fun returns' s' =>
      returns'.map TypeExpr.bare = returns.map TypeExpr.bare ∧
      s'.Faces b (sign .lbrace :: r) := by
  unfold Grammar.returnTypes
  rw [runs_nextIs_bind]
  match returns with
  | [] =>
    have hnext : s.next.kind = .lbrace := hs.next_kind
    rw [hnext, if_neg (by decide), runs_pure_iff]
    exact ⟨rfl, hs⟩
  | [single] =>
    rw [List.all_cons, Bool.and_eq_true] at hreturns
    simp only [returnLexemes, List.length_cons, List.cons_append] at hn hs
    have hnext : s.next.kind = .arrow := hs.next_kind
    have htype : s.advanced.Faces b
        (single.lexemes ++ sign .lbrace :: r) := hs.step (by simp)
    have hparen : s.advanced.next.kind ≠ .lparen := by
      obtain ⟨l, ls, hl, hkind⟩ := TypeExpr.first_kind hreturns.1
      rw [hl, List.cons_append] at htype
      rw [htype.next_kind]
      rintro heq
      simp [heq, Token.Kind.isType] at hkind
    rw [hnext, if_pos (by rfl), runs_advance_bind, runs_nextIs_bind,
      if_neg (by simpa using hparen)]
    refine Runs.bind (runs_nextType hreturns.1 (by omega) (by simp) _ r
      htype) ?_
    rintro single' s' ⟨hsingle, hfaces⟩
    rw [TypeExpr.inCaseAfter_lexemes hreturns.1] at hfaces
    rw [runs_pure_iff]
    exact ⟨by simp [hsingle], hfaces⟩
  | t :: t' :: ts =>
    have hwf := List.all_eq_true.mp hreturns
    simp only [returnLexemes, List.length_cons, List.length_append,
      List.cons_append, List.append_assoc, List.nil_append] at hn hs
    have hnext : s.next.kind = .arrow := hs.next_kind
    have hopen := hs.step (by simp)
    have hparen : s.advanced.next.kind = .lparen := hopen.next_kind
    have heach : ReadsEach (grammar n).nextType TypeExpr.bare TypeExpr.lexemes
        TypeExpr.bare (sign .rparen) b (t :: t' :: ts) := by
      have hlength : ∀ c ∈ t :: t' :: ts, c.lexemes.length < n := fun c hc => by
        have := Lexeme.length_le_listed (List.mem_map_of_mem (f := TypeExpr.lexemes) hc)
        omega
      exact readsEach_of_steady
        (fun c hc => TypeExpr.inCaseAfter_lexemes (hwf c hc))
        (fun c hc => runs_nextType (hwf c hc) (hlength c hc) (by simp))
        (fun c hc => runs_nextType (hwf c hc) (hlength c hc) (by simp))
    have hsteady : inCaseAfter b
        (listed ((t :: t' :: ts).map TypeExpr.lexemes)) = b := by
      refine Node.inCaseAfter_listed fun item hitem => ?_
      obtain ⟨c, hc, rfl⟩ := List.mem_map.mp hitem
      exact TypeExpr.inCaseAfter_lexemes (hwf c hc)
    rw [hnext, if_pos (by rfl), runs_advance_bind, runs_nextIs_bind, hparen,
      if_pos (by rfl), runs_advance_bind]
    refine Runs.bind (runs_commaList (by simp) heach
      (hopen.step (by simp))) ?_
    rintro returns' s' ⟨hreturns', hfaces⟩
    rw [hsteady] at hfaces
    rw [runs_expect_bind hfaces.next_sign, runs_pure_iff]
    exact ⟨hreturns', hfaces.step (by simp)⟩

theorem Syntax.inCaseAfter_returns {returns : List TypeExpr}
    (hreturns : returns.all TypeExpr.isWellFormed = true) :
    inCaseAfter b (returnLexemes returns) = b := by
  have hlisted : inCaseAfter b (listed (returns.map TypeExpr.lexemes)) = b := by
    refine Node.inCaseAfter_listed fun item hitem => ?_
    obtain ⟨t, ht, rfl⟩ := List.mem_map.mp hitem
    exact TypeExpr.inCaseAfter_lexemes (List.all_eq_true.mp hreturns t ht)
  match returns with
  | [] => exact Node.inCaseAfter_nil
  | [single] =>
    rw [List.all_cons, Bool.and_eq_true] at hreturns
    simp [returnLexemes, TypeExpr.inCaseAfter_lexemes hreturns.1]
  | t :: t' :: ts => simpa [returnLexemes] using hlisted

theorem Params.inCaseAfter_lexemes {params : Params}
    (hparams : params.isWellFormed = true) :
    inCaseAfter b params.lexemes = b := by
  have hlisted : inCaseAfter b
      (listed (params.marked.map Marked.lexemes)) = b := by
    refine Node.inCaseAfter_listed fun item hitem => ?_
    obtain ⟨p, hp, rfl⟩ := List.mem_map.mp hitem
    exact Marked.inCaseAfter_lexemes (isWellFormed_marked hparams p hp)
  rw [lexemes_eq_marked]
  simpa using hlisted

theorem Function.inCaseAfter_tailLexemes {f : Function}
    (hparams : f.params.isWellFormed = true)
    (hreturns : f.returns.all TypeExpr.isWellFormed = true) :
    inCaseAfter b f.tailLexemes = inCaseAfter b f.body.lexemes := by
  cases f
  simp [tailLexemes, Params.inCaseAfter_lexemes hparams,
    Syntax.inCaseAfter_returns hreturns]

theorem Function.reads_of_body {f : Function}
    (hparams : f.params.isWellFormed = true)
    (hreturns : f.returns.all TypeExpr.isWellFormed = true)
    (hbody : f.body.Reads b) : f.Reads b := by
  refine ⟨fun {n name start s x r} hn hs => ?_⟩
  rw [inCaseAfter_tailLexemes hparams hreturns]
  obtain ⟨fname, params, returns, ⟨statements, bodyLoc⟩, loc⟩ := f
  simp only [tailLexemes, List.length_append, List.append_assoc] at hn hs
  dsimp only at hparams hreturns hbody ⊢
  unfold Grammar.functionRest
  -- Behind the parameters comes the arrow or the brace.
  obtain ⟨y, ys, hy⟩ : ∃ y ys, returnLexemes returns ++
      ((Block.mk statements bodyLoc).lexemes ++ x :: r) = y :: ys := by
    refine List.exists_cons_of_ne_nil ?_
    simp
  rw [hy] at hs
  refine Runs.bind (runs_parameters hparams (by omega) hs) ?_
  rintro params' s' ⟨hparams', hfaces⟩
  rw [← hy] at hfaces
  refine Runs.bind (runs_returnTypes hreturns (by omega)
    (r := statementsLexemes statements ++ [sign .rbrace] ++ x :: r) hfaces) ?_
  rintro returns' s' ⟨hreturns', hfaces'⟩
  refine Runs.bind (hbody.runs (by omega) s' r hfaces') ?_
  rintro body' s'' ⟨hbody', hfaces''⟩
  rw [runs_spanFrom_bind, runs_pure_iff]
  refine ⟨?_, hfaces''⟩
  simp [Function.bare, hparams', hreturns', hbody']

end Script
