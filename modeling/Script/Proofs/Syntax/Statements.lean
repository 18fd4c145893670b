import Script.Proofs.Syntax.Control

/-!
# Reading statements
-/

namespace Script

open Lexeme (sign word listed further)
open Node (inCaseAfter)
open Syntax (annotationLexemes numberLexemes)
open Script.Parser

variable {n : Nat} {s : State} {b : Bool} {x : Lexeme} {r : List Lexeme}
  {loc : Location} {st : Stmt}

attribute [local simp] Stmt.lexemes Stmt.bare

/-! ### Statements with and without a semicolon -/

/-- A statement that ends with a semicolon. -/
theorem Stmt.reads_of_semicolon (l : Lexeme) (ls : List Lexeme)
    (hlexemes : st.lexemes = l :: (ls ++ [sign .semicolon]))
    (hstart : l.kind.startsStatement = true)
    (h : ∀ {n : Nat} {s : State} {r : List Lexeme},
      2 * (l :: ls).length < n → s.Views b (l :: (ls ++ sign .semicolon :: r)) →
      Runs (grammar n).statementBody s fun st' s' => st'.bare = st.bare ∧
        s'.Faces (inCaseAfter b (l :: ls)) (sign .semicolon :: r)) :
    st.Reads b where
  opens := ⟨l, ls ++ [sign .semicolon], hlexemes, hstart⟩
  two := by simp [hlexemes]
  runs := by
    intro n s x r hn hs _
    rw [hlexemes] at hn hs ⊢
    simp only [List.length_cons, List.length_append, List.cons_append,
      List.append_assoc, List.nil_append] at hn hs
    unfold Grammar.statementHere
    refine Runs.bind (h (by simp only [List.length_cons]; omega) hs) ?_
    rintro st' s' ⟨hst', hfaces⟩
    have hnext : s'.next.kind = .semicolon := hfaces.next_kind
    rw [runs_nextIs_bind, hnext, if_pos (by rfl), runs_advance_bind,
      runs_pure_iff]
    refine ⟨hst', ?_⟩
    rw [← List.cons_append, Node.inCaseAfter_append,
      Node.inCaseAfter_sign (by simp), Node.inCaseAfter_nil]
    exact hfaces.step (by simp)

/-- A statement that ends with a brace. -/
theorem Stmt.reads_of_brace (l : Lexeme) (ls : List Lexeme)
    (hlexemes : st.lexemes = l :: ls) (hls : ls ≠ [])
    (hstart : l.kind.startsStatement = true)
    (h : ∀ {n : Nat} {s : State} {x : Lexeme} {r : List Lexeme},
      2 * (l :: ls).length ≤ n → s.Views b (l :: (ls ++ x :: r)) →
      x.kind.endsStatement = true →
      Runs (grammar n).statementBody s fun st' s' => st'.bare = st.bare ∧
        s'.Faces (inCaseAfter b (l :: ls)) (x :: r)) :
    st.Reads b where
  opens := ⟨l, ls, hlexemes, hstart⟩
  two := by
    have := List.length_pos_iff.mpr hls
    rw [hlexemes, List.length_cons]
    omega
  runs := by
    intro n s x r hn hs hx
    rw [hlexemes] at hn hs ⊢
    unfold Grammar.statementHere
    refine Runs.bind (h hn hs hx) ?_
    rintro st' s' ⟨hst', hfaces⟩
    have hnext : s'.next.kind ≠ .semicolon := by
      rw [hfaces.next_kind]
      rintro heq
      rw [heq] at hx
      cases hx
    rw [runs_nextIs_bind, if_neg (by simpa using hnext), runs_pure_iff]
    exact ⟨hst', hfaces⟩

/-! ### Variables, functions and methods -/

/-- A binding is written as one, unless it defines a function. -/
theorem Stmt.lexemes_bind {constant : Bool} {name : Name}
    {type : Option TypeExpr} {value : Expr}
    (hplain : constant = false → type = none → ∀ f, value = .function f →
      f.name ≠ some name.text) :
    (Stmt.bind constant name type value loc).lexemes =
      sign (if constant then .constWord else .letWord) :: (name.lexeme ::
        (annotationLexemes type ++ sign .assign :: value.lexemes) ++
        [sign .semicolon]) := by
  unfold Stmt.lexemes
  split
  · next f _ heq =>
    cases heq
    rw [if_neg (hplain rfl rfl f rfl)]
    simp [annotationLexemes, Expr.lexemes]
  · next heq =>
    cases heq
    simp
  all_goals next heq => cases heq

theorem Stmt.reads_bind {constant : Bool} {name : Name} {type : Option TypeExpr}
    {value : Expr}
    (hplain : constant = false → type = none → ∀ f, value = .function f →
      f.name ≠ some name.text)
    (hname : name.isIdentifier = true)
    (htype : type.all TypeExpr.isWellFormed = true) (hvalue : value.Reads b) :
    (Stmt.bind constant name type value loc).Reads b := by
  refine reads_of_semicolon _ _ (lexemes_bind hplain)
    (by cases constant <;> rfl) ?_
  intro n s r hn hs
  simp only [List.length_cons, List.length_append, List.cons_append,
    List.append_assoc] at hn hs
  rw [Node.inCaseAfter_sign (by cases constant <;> simp),
    inCaseAfter_binding hname htype]
  have hrun := runs_binding constant loc hname htype hvalue (n := n) (by omega)
    hs.faces
  unfold Grammar.statementBody
  rw [runs_current_bind, hs.current_sign]
  cases constant <;> exact hrun

/-- The name behind `define`. -/
theorem Parser.runs_definition_name {name : Name} {R : Stmt → State → Prop}
    (hname : name.isIdentifier = true) {y : Lexeme} {ys : List Lexeme}
    (hs : s.Views b (sign .defineWord :: name.lexeme :: y :: ys)) :
    Runs (grammar n).statementBody s R ↔ Runs (grammar n).definition s R := by
  have hnext : s.next.kind = .ident :=
    hs.next_kind.trans (Name.kind_lexeme hname)
  unfold Grammar.statementBody
  rw [runs_current_bind, hs.current_sign]
  change Runs (nextIs .lparen >>= _) _ _ ↔ _
  rw [runs_nextIs_bind, hnext, if_neg (by decide)]

/-- A function that is bound to its own name. -/
theorem Stmt.reads_define {name : Name} {f : Function}
    (hown : f.name = some name.text) (hname : name.isIdentifier = true)
    (hf : f.Reads b) :
    (Stmt.bind false name none (.function f) loc).Reads b := by
  have hlexemes : (Stmt.bind false name none (.function f) loc).lexemes =
      sign .defineWord :: name.lexeme :: f.tailLexemes := by
    rw [Stmt.lexemes, if_pos hown]
  refine reads_of_brace _ _ hlexemes (by simp) rfl ?_
  intro n s x r hn hs _
  simp only [List.length_cons, List.cons_append] at hn hs
  rw [Node.inCaseAfter_sign (by simp),
    Node.inCaseAfter_cons (by rw [Name.kind_lexeme hname]; simp)]
  obtain ⟨ls, hls⟩ := f.exists_tailLexemes
  have hident : s.advanced.Views b
      (name.lexeme :: f.tailLexemes ++ x :: r) :=
    hs.faces.advanced_append (List.cons_ne_nil _ _)
  have hopen : s.advanced.next.kind = .lparen := by
    rw [hls] at hident
    exact hident.next_kind
  rw [hls, List.cons_append] at hs
  rw [runs_definition_name hname hs]
  unfold Grammar.definition
  rw [runs_here_bind,
    runs_expect_bind (hs.next_kind.trans (Name.kind_lexeme hname)),
    runs_nameHere_bind, runs_nextIs_bind, hopen, if_neg (by decide),
    runs_expect_bind hopen]
  refine Runs.bind (hf.runs (by omega)
    (hident.faces.advanced_append (by rw [hls]; simp))) ?_
  rintro f' s' ⟨hf', hfaces⟩
  rw [runs_spanFrom_bind, runs_pure_iff]
  refine ⟨?_, hfaces⟩
  have hsame : f'.bare = f.bare := by
    rw [hf', hident.current_text]
    obtain ⟨fname, params, returns, body, floc⟩ := f
    rw [Name.lexeme, Lexeme.word_text, ← hown]
    rfl
  rw [Stmt.bare, Stmt.bare, Expr.bare, Expr.bare, hsame,
    Name.bare_mk hident.current_text]

theorem Stmt.reads_method {struct : Name} {f : Function}
    (hstruct : struct.isIdentifier = true) {name : String}
    (hown : f.name = some name) (hname : Syntax.isIdentifier name = true)
    (hf : f.Reads b) : (Stmt.method struct f loc).Reads b := by
  have hlexemes : (Stmt.method struct f loc).lexemes =
      sign .defineWord :: struct.lexeme :: sign .dot :: word name ::
        f.tailLexemes := by
    rw [Stmt.lexemes, hown]
    rfl
  have hident : (word name).kind = .ident :=
    Syntax.kind_word_of_isIdentifier hname
  refine reads_of_brace _ _ hlexemes (by simp) rfl ?_
  intro n s x r hn hs _
  simp only [List.length_cons, List.cons_append] at hn hs
  rw [Node.inCaseAfter_sign (by simp),
    Node.inCaseAfter_cons (by rw [Name.kind_lexeme hstruct]; simp),
    Node.inCaseAfter_sign (by simp),
    Node.inCaseAfter_cons (by rw [hident]; simp)]
  obtain ⟨ls, hls⟩ := f.exists_tailLexemes
  have hfirst := hs.faces.advanced (by simp)
  have hdot : s.advanced.next.kind = .dot := hfirst.next_kind
  have hmethod := hfirst.faces.step (by simp)
  have hword := hmethod.advanced (by simp)
  have hopen : s.advanced.advanced.advanced.next.kind = .lparen := by
    rw [hls] at hword
    exact hword.next_kind
  rw [runs_definition_name hstruct hs]
  unfold Grammar.definition
  rw [runs_here_bind,
    runs_expect_bind (hs.next_kind.trans (Name.kind_lexeme hstruct)),
    runs_nameHere_bind, runs_nextIs_bind, hdot, if_pos (by rfl),
    runs_advance_bind, runs_expect_bind (hmethod.next_kind.trans hident),
    runs_current_bind, runs_expect_bind hopen]
  refine Runs.bind (hf.runs (by omega)
    (hword.faces.advanced_append (by rw [hls]; simp))) ?_
  rintro f' s' ⟨hf', hfaces⟩
  rw [runs_spanFrom_bind, runs_pure_iff]
  refine ⟨?_, hfaces⟩
  have hsame : f'.bare = f.bare := by
    rw [hf', hword.current_text]
    obtain ⟨fname, params, returns, body, floc⟩ := f
    rw [Lexeme.word_text, ← hown]
    rfl
  rw [Stmt.bare, Stmt.bare, hsame, Name.bare_mk hfirst.current_text]

/-! ### Jumps, `try` and expressions -/

theorem Stmt.reads_brk : (Stmt.brk loc).Reads b := by
  refine reads_of_semicolon (sign .breakWord) ([]) rfl rfl ?_
  intro n s r _ hs
  unfold Grammar.statementBody
  rw [runs_current_bind, hs.current_sign]
  exact runs_pure_iff.mpr ⟨rfl, by simpa using hs.faces⟩

theorem Stmt.reads_cont : (Stmt.cont loc).Reads b := by
  refine reads_of_semicolon (sign .continueWord) ([]) rfl rfl ?_
  intro n s r _ hs
  unfold Grammar.statementBody
  rw [runs_current_bind, hs.current_sign]
  exact runs_pure_iff.mpr ⟨rfl, by simpa using hs.faces⟩

theorem Stmt.reads_ret {value : Option Expr}
    (hvalue : ∀ e ∈ value, e.Reads b) : (Stmt.ret value loc).Reads b := by
  refine reads_of_semicolon (sign .returnWord) (optionLexemes value)
    (by simp [Stmt.lexemes]) rfl ?_
  intro n s r hn hs
  rw [List.length_cons] at hn
  rw [Node.inCaseAfter_sign (by simp)]
  unfold Grammar.statementBody
  rw [runs_current_bind, hs.current_sign]
  change Runs (grammar n).returning _ _
  unfold Grammar.returning
  rw [runs_here_bind, runs_nextKind_bind]
  cases value with
  | none =>
    have hnext : s.next.kind = .semicolon := hs.next_kind
    rw [hnext]
    exact runs_pure_iff.mpr ⟨rfl, by simpa [optionLexemes] using hs.faces⟩
  | some e =>
    have he := hvalue e rfl
    have hfaces := hs.faces
    rw [optionLexemes] at hn hfaces
    have hrun : Runs (do
        let value ← (grammar n).operand
        return Stmt.ret (some value) (← spanFrom (locationOf s s.current))) s
        fun st' s' => st'.bare = (Stmt.ret (some e) loc).bare ∧
          s'.Faces (inCaseAfter b (optionLexemes (some e)))
            (sign .semicolon :: r) := by
      refine Runs.bind (he.operand (by omega) (Expr.follows_of_endsOperand rfl)
        rfl s _ hfaces) ?_
      rintro e' s' ⟨he', hfaces'⟩
      rw [runs_spanFrom_bind, runs_pure_iff]
      exact ⟨by rw [Stmt.bare, Stmt.bare, bareExpr?, bareExpr?, he'], hfaces'⟩
    obtain ⟨l, ls, hl, hkind, -⟩ := he.opens
    rw [hl, List.cons_append] at hfaces
    have hnext := hfaces.next_kind
    split
    · next heq => rw [← hnext, heq] at hkind; cases hkind
    · next heq => rw [← hnext, heq] at hkind; cases hkind
    · next heq => rw [← hnext, heq] at hkind; cases hkind
    · exact hrun

theorem Stmt.reads_attempt {t : Attempt} (h : t.Reads b)
    (ht : Node.attemptIsWellFormed t = true) : (Stmt.attempt t).Reads b := by
  obtain ⟨ls, hls⟩ : ∃ ls, t.lexemes = sign .tryWord :: ls := by
    obtain ⟨body, param, handler, loc⟩ := t
    exact ⟨_, rfl⟩
  have hlexemes : (Stmt.attempt t).lexemes = sign .tryWord :: ls := by
    rw [Stmt.lexemes, hls]
  refine reads_of_brace _ _ hlexemes ?_ rfl ?_
  · rintro rfl
    obtain ⟨⟨statements, bodyLoc⟩, param, handler, loc⟩ := t
    simp [Attempt.lexemes, Block.lexemes] at hls
  · intro n s x r hn hs hx
    rw [← hls] at hn
    unfold Grammar.statementBody
    rw [runs_current_bind, hs.current_sign]
    rw [← List.cons_append, ← hls] at hs
    change Runs ((grammar n).attempt >>= _) _ _
    refine Runs.bind (h.runs ht hn ?_ hs) ?_
    · rintro heq
      rw [heq] at hx
      cases hx
    · rintro t' s' ⟨ht', hfaces⟩
      rw [runs_pure_iff, ← hls]
      exact ⟨by rw [Stmt.bare, Stmt.bare, ht'], hfaces⟩

/-- An expression that does not look like another statement. -/
theorem Stmt.reads_expr {e : Expr} (he : e.Reads b)
    (hfirst : ∀ l ls, e.lexemes = l :: ls → l.kind ≠ .tryWord ∧
      (l.kind = .defineWord → ∃ ls', ls = sign .lparen :: ls')) :
    (Stmt.expr e loc).Reads b := by
  obtain ⟨l, ls, hl, hkind, -⟩ := he.opens
  obtain ⟨htry, hdefine⟩ := hfirst l ls hl
  refine reads_of_semicolon l ls (by simp [Stmt.lexemes, hl])
    ?_ ?_
  · generalize l.kind = kind at hkind
    cases kind <;> first
      | rfl
      | cases hkind
  · intro n s r hn hs
    have hcurrent := hs.current_kind
    have hrun : Runs (grammar n).expressionStatement s fun st' s' =>
        st'.bare = (Stmt.expr e loc).bare ∧
        s'.Faces (inCaseAfter b (l :: ls)) (sign .semicolon :: r) := by
      rw [← hl] at hn ⊢
      rw [← List.cons_append, ← hl] at hs
      exact runs_expressionStatement loc he hn hs
    unfold Grammar.statementBody
    rw [runs_current_bind]
    split
    case h_11 heq =>
      rw [hcurrent] at heq
      obtain ⟨ls', rfl⟩ := hdefine heq
      have hnext : s.next.kind = .lparen := hs.next_kind
      rw [runs_nextIs_bind, hnext, if_pos (by rfl)]
      exact hrun
    case h_12 => exact hrun
    case h_5 heq => exact absurd (hcurrent.symm.trans heq) htry
    all_goals
      next heq =>
        rw [← hcurrent, heq] at hkind
        cases hkind

/-! ### Includes -/

theorem Parser.runs_nextString (module : String) :
    ReadsItem nextString id [{ kind := .str, text := module }] module x b := by
  intro s r hs
  have hstring := hs.advanced_cons
  unfold nextString
  rw [runs_expect_bind hs.next_kind, runs_current_bind, runs_pure_iff,
    Node.inCaseAfter_cons (by simp), Node.inCaseAfter_nil]
  exact ⟨hstring.current_text, hstring.faces⟩

theorem Stmt.reads_includes {modules : List String} {grouped : Bool}
    (hmodules : modules ≠ []) (hone : grouped = true ∨ modules.length = 1) :
    (Stmt.includes modules grouped loc).Reads b := by
  obtain ⟨module, modules, rfl⟩ := List.exists_cons_of_ne_nil hmodules
  cases grouped with
  | false =>
    have hnil : modules = [] := by simpa using hone
    subst hnil
    refine reads_of_semicolon (sign .includeWord) _
      rfl rfl ?_
    intro n s r _ hs
    have hnext : s.next.kind = .str := hs.next_kind
    unfold Grammar.statementBody
    rw [runs_current_bind, hs.current_sign]
    change Runs inclusion _ _
    unfold inclusion
    rw [runs_here_bind, runs_nextIs_bind, hnext, if_neg (by decide)]
    refine Runs.bind (runs_nextString module s r hs.faces) ?_
    rintro module' s' ⟨hmodule, hfaces⟩
    rw [runs_spanFrom_bind, runs_pure_iff, Node.inCaseAfter_sign (by simp)]
    exact ⟨by rw [← show module' = module from hmodule]; rfl, hfaces⟩
  | true =>
    refine reads_of_semicolon (sign .includeWord)
      (sign .lparen :: (listed ((module :: modules).map fun module =>
        [{ kind := .str, text := module }]) ++ [sign .rparen]))
      (by simp [Stmt.lexemes]) rfl ?_
    intro n s r _ hs
    simp only [List.cons_append, List.append_assoc, List.nil_append] at hs
    have hnext : s.next.kind = .lparen := hs.next_kind
    have hsteady : ∀ b, inCaseAfter b (listed ((module :: modules).map
        fun module => [{ kind := .str, text := module }])) = b := by
      intro b
      refine Node.inCaseAfter_listed fun item hitem => ?_
      obtain ⟨c, -, rfl⟩ := List.mem_map.mp hitem
      rw [Node.inCaseAfter_cons (by simp), Node.inCaseAfter_nil]
    unfold Grammar.statementBody
    rw [runs_current_bind, hs.current_sign]
    change Runs inclusion _ _
    unfold inclusion
    rw [runs_here_bind, runs_nextIs_bind, hnext, if_pos (by rfl),
      runs_advance_bind]
    refine Runs.bind (runs_commaList (by simp)
      (readsEach_of_steady (f := id)
        (fun c _ => by rw [Node.inCaseAfter_cons (by simp), Node.inCaseAfter_nil])
        (fun c _ => runs_nextString c) (fun c _ => runs_nextString c))
      (hs.faces.step (by simp))) ?_
    rintro modules' s' ⟨hmodules', hfaces⟩
    rw [hsteady] at hfaces
    rw [runs_expect_bind hfaces.next_sign, runs_spanFrom_bind, runs_pure_iff]
    refine ⟨?_, ?_⟩
    · rw [List.map_id] at hmodules'
      simp only [List.map_id'] at hmodules'
      rw [hmodules']
      rfl
    · rw [Node.inCaseAfter_sign (by simp), Node.inCaseAfter_sign (by simp),
        Node.inCaseAfter_append, hsteady, Node.inCaseAfter_sign (by simp),
        Node.inCaseAfter_nil]
      exact hfaces.step (by simp)

/-! ### Structs and enumerations -/

namespace Parser

section Members

variable {α γ δ : Type} {item : Parser α} {f : α → δ}
  {lexemes : γ → List Lexeme} {value : γ → δ}
  {pass : List α → Parser (Pass (List α) (List α))}

/-- One pass over the members of a declaration does what the current token
says. -/
structure ReadsMembers (item : Parser α)
    (pass : List α → Parser (Pass (List α) (List α))) : Prop where
  close : ∀ {s : State} {read : List α}, s.current.kind = .rbrace →
    pass read s = .ok (.done read.reverse) s
  member : ∀ {s : State} {read : List α}, s.current.kind = .ident →
    pass read s = (do
      let a ← item
      advance
      return Pass.again (a :: read)) s
  comma : ∀ {s : State} {read : List α}, s.current.kind = .comma →
    pass read s = .ok (.again read) s.advanced

/-- A member starts with a name, and is read up to a comma or a brace. -/
structure ReadsMember (item : Parser α) (f : α → δ) (lexemes : List Lexeme)
    (value : δ) (b : Bool) : Prop where
  ident : ∃ l ls, lexemes = l :: ls ∧ l.kind = .ident
  runs : ∀ {s : State} {x : Lexeme} {r : List Lexeme}, x.kind ≠ .assign →
    s.Views b (lexemes ++ x :: r) →
    Runs item s fun a s' => f a = value ∧ s'.Faces b (x :: r)

/-- The pass over one member, which takes it and the token behind it. -/
theorem runs_iterate_member (hpass : ReadsMembers item pass) {c : γ}
    (hc : ReadsMember item f (lexemes c) (value c) b) {read : List α}
    {fuel : List Token} {y : Lexeme} {ys : List Lexeme} (hy : y.kind ≠ .assign)
    (hys : ys ≠ []) (hs : s.Views b (lexemes c ++ y :: ys))
    (hfuel : s.ahead.length ≤ fuel.length) {R : List α → State → Prop}
    (hrest : ∀ a s' fuel', f a = value c → s'.Views b (y :: ys) →
      s'.ahead.length ≤ fuel'.length → Runs (iterate pass fuel' (a :: read)) s' R) :
    Runs (iterate pass fuel read) s R := by
  obtain ⟨l, ls, hl, hident⟩ := hc.ident
  have hcurrent : s.current.kind = .ident := by
    rw [hl] at hs
    exact hs.current_kind.trans hident
  have hlength : ys.length < s.ahead.length := by
    have hview := congrArg List.length hs.view
    rw [hl] at hview
    simp only [List.length_append, List.length_cons] at hview
    omega
  refine runs_iterate_again hfuel ?_
  unfold Runs
  rw [hpass.member hcurrent]
  refine Runs.bind (hc.runs hy hs) ?_
  rintro a s' ⟨ha, hfaces⟩
  rw [runs_advance_bind, runs_pure_iff]
  refine ⟨_, rfl, ?_, fun fuel' => hrest a _ fuel' ha (hfaces.advanced hys)⟩
  rw [(hfaces.step hys).ahead]
  exact hlength

/-- The members behind a first one, each with its comma. -/
theorem runs_members_further (hpass : ReadsMembers item pass) {cs : List γ}
    (hitem : ∀ c ∈ cs, ReadsMember item f (lexemes c) (value c) b)
    {read : List α} {fuel : List Token}
    (hs : s.Views b (further (cs.map lexemes) ++ sign .rbrace :: x :: r))
    (hfuel : s.ahead.length ≤ fuel.length) :
    Runs (iterate pass fuel read) s fun as s' =>
      as.map f = (read.map f).reverse ++ cs.map value ∧
      s'.Faces b (x :: r) := by
  induction cs generalizing s read fuel with
  | nil =>
    refine runs_iterate_done hfuel ⟨_, _, hpass.close hs.current_kind, ?_⟩
    exact ⟨_, rfl, by simp, hs.faces⟩
  | cons c cs ih =>
    simp only [List.map_cons, further, List.cons_append,
      List.append_assoc] at hs
    have hmember : s.advanced.Views b (lexemes c ++
        (further (cs.map lexemes) ++ sign .rbrace :: x :: r)) := by
      have hfaces := hs.faces
      rw [← List.append_assoc] at hfaces ⊢
      exact hfaces.advanced_two
    obtain ⟨y, ys, hy, hkind, hys⟩ : ∃ y ys, further (cs.map lexemes) ++
        sign .rbrace :: x :: r = y :: ys ∧ y.kind ≠ .assign ∧ ys ≠ [] := by
      cases cs with
      | nil => exact ⟨_, _, rfl, by simp, by simp⟩
      | cons d cs => exact ⟨_, _, rfl, by simp, by simp⟩
    rw [hy] at hmember
    -- The comma takes a pass of its own.
    refine runs_iterate_again hfuel ⟨_, _, hpass.comma hs.current_kind, ?_⟩
    refine ⟨_, rfl, ?_, fun fuel' hfuel' => ?_⟩
    · have hview := congrArg List.length hmember.view
      rw [hs.faces.ahead, hy]
      simp only [List.length_append, List.length_cons] at hview ⊢
      omega
    · refine runs_iterate_member hpass (hitem c List.mem_cons_self) hkind hys
        hmember hfuel' fun a s' fuel'' ha hs' hfuel'' => ?_
      rw [← hy] at hs'
      refine (ih (fun d hd => hitem d (List.mem_cons_of_mem c hd)) hs'
        hfuel'').mono ?_
      rintro as s'' ⟨has, hfaces⟩
      exact ⟨by simp [has, ha], hfaces⟩

variable (item f value) in
/-- The members of a declaration, up to its closing brace. -/
theorem runs_members (hpass : ReadsMembers item pass) {cs : List γ}
    (hitem : ∀ c ∈ cs, ReadsMember item f (lexemes c) (value c) b)
    (hs : s.Views b (listed (cs.map lexemes) ++ sign .rbrace :: x :: r)) :
    Runs (repeated pass []) s fun as s' =>
      as.map f = cs.map value ∧ s'.Faces b (x :: r) := by
  refine runs_repeated fun fuel hfuel => ?_
  cases cs with
  | nil =>
    refine runs_iterate_done hfuel ⟨_, _, hpass.close hs.current_kind, ?_⟩
    exact ⟨_, rfl, rfl, hs.faces⟩
  | cons c cs =>
    simp only [List.map_cons, listed, List.append_assoc] at hs
    obtain ⟨y, ys, hy, hkind, hys⟩ : ∃ y ys, further (cs.map lexemes) ++
        sign .rbrace :: x :: r = y :: ys ∧ y.kind ≠ .assign ∧ ys ≠ [] := by
      cases cs with
      | nil => exact ⟨_, _, rfl, by simp, by simp⟩
      | cons d cs => exact ⟨_, _, rfl, by simp, by simp⟩
    rw [hy] at hs
    refine runs_iterate_member hpass (hitem c List.mem_cons_self) hkind hys hs
      hfuel fun a s' fuel' ha hs' hfuel' => ?_
    rw [← hy] at hs'
    refine (runs_members_further hpass
      (fun d hd => hitem d (List.mem_cons_of_mem c hd)) hs' hfuel').mono ?_
    rintro as s'' ⟨has, hfaces⟩
    exact ⟨by simp [has, ha], hfaces⟩

end Members

end Parser

/-- The name of a declaration and its opening brace. -/
theorem Parser.views_declaration {kind : Token.Kind} {name : Name}
    {ls : List Lexeme} (hname : name.isIdentifier = true)
    (hs : s.Views b (sign kind :: name.lexeme :: sign .lbrace ::
      (ls ++ sign .rbrace :: x :: r))) :
    s.next.kind = .ident ∧ s.advanced.current.text = name.text ∧
      s.advanced.next.kind = .lbrace ∧
      s.advanced.advanced.advanced.Views b (ls ++ sign .rbrace :: x :: r) := by
  have hident := hs.faces.advanced (by simp)
  exact ⟨hs.next_kind.trans (Name.kind_lexeme hname), hident.current_text,
    hident.next_kind, (hident.faces.step (by simp)).advanced_two⟩

theorem Parser.readsMembers_fieldPass : ReadsMembers nameHere fieldPass := by
  constructor
  all_goals
    intro s read hkind
    unfold fieldPass
    rw [bind_ok (show current s = .ok s.current s from rfl), hkind]
  · rfl
  · exact bind_ok (advance_eq s)

theorem Parser.readsMembers_variantPass : ReadsMembers variant variantPass := by
  constructor
  all_goals
    intro s read hkind
    unfold variantPass
    rw [bind_ok (show current s = .ok s.current s from rfl), hkind]
  · rfl
  · exact bind_ok (advance_eq s)

theorem Stmt.reads_struct {name : Name} {fields : List Name}
    (hname : name.isIdentifier = true)
    (hfields : fields.all Name.isIdentifier = true) :
    (Stmt.struct name fields loc).Reads b := by
  refine reads_of_brace (sign .structWord)
    (name.lexeme :: sign .lbrace ::
      (listed (fields.map fun n => [n.lexeme]) ++ [sign .rbrace]))
    (by simp [Stmt.lexemes]) (by simp) rfl ?_
  intro n s x r _ hs _
  simp only [List.cons_append, List.append_assoc, List.nil_append] at hs
  obtain ⟨hident, htext, hbrace, hinside⟩ := views_declaration hname hs
  unfold Grammar.statementBody
  rw [runs_current_bind, hs.current_sign]
  change Runs structDeclaration _ _
  rw [structDeclaration_eq, runs_here_bind, runs_expect_bind hident, runs_nameHere_bind,
    runs_expect_bind hbrace, runs_advance_bind]
  refine Runs.bind (runs_members nameHere Name.bare Name.bare
    readsMembers_fieldPass ?_ hinside) ?_
  · intro field hfield
    have hkind := Name.kind_lexeme (List.all_eq_true.mp hfields field hfield)
    refine ⟨⟨_, _, rfl, hkind⟩, fun _ hs => ?_⟩
    exact ⟨_, _, rfl, Name.bare_mk hs.current_text _, hs.faces⟩
  · rintro fields' s' ⟨hfields', hfaces⟩
    rw [runs_spanFrom_bind, runs_pure_iff]
    refine ⟨?_, ?_⟩
    · simp [Stmt.bare, hfields', Name.bare_mk htext]
    · rw [Node.inCaseAfter_sign (by simp),
        Node.inCaseAfter_cons (by rw [Name.kind_lexeme hname]; simp),
        Node.inCaseAfter_sign (by simp), Node.inCaseAfter_append,
        Node.inCaseAfter_names hfields, Node.inCaseAfter_sign (by simp),
        Node.inCaseAfter_nil]
      exact hfaces

/-- The number of a variant, with its sign. -/
theorem Parser.runs_signedInteger {value : Int64}
    (hs : s.Views b (numberLexemes value ++ x :: r)) :
    Runs signedInteger s fun value' s' =>
      value' = value ∧ s'.Faces b (x :: r) := by
  unfold signedInteger
  rw [runs_currentIs_bind]
  unfold numberLexemes at hs
  split at hs
  · next hneg =>
    have hminus : s.current.kind = .minus := hs.current_kind
    have hdigits := hs.faces.advanced (by simp)
    have hint : s.advanced.current.kind = .int := hdigits.current_kind
    rw [hminus, if_pos (by rfl), runs_advance_bind, runs_currentIs_bind, hint,
      if_pos (by rfl)]
    refine Runs.bind (runs_integerHere hdigits.current_text) ?_
    rintro value' s' ⟨rfl, rfl⟩
    rw [runs_pure_iff, if_pos (by rfl)]
    exact ⟨by simp, hdigits.faces⟩
  · next hnonneg =>
    have hint : s.current.kind = .int := hs.current_kind
    rw [hint, if_neg (by decide), runs_currentIs_bind, hint, if_pos (by rfl)]
    refine Runs.bind (runs_integerHere hs.current_text) ?_
    rintro value' s' ⟨rfl, rfl⟩
    rw [runs_pure_iff, if_neg (by decide)]
    exact ⟨rfl, hs.faces⟩

theorem Parser.runs_variant {v : VariantDecl} (hv : v.isWellFormed = true) :
    ReadsMember variant VariantDecl.bare v.lexemes v.bare b := by
  obtain ⟨name, value⟩ := v
  rw [VariantDecl.isWellFormed, Bool.and_eq_true] at hv
  refine ⟨⟨_, _, rfl, Name.kind_lexeme hv.1⟩, fun {s x r} hx hs => ?_⟩
  unfold variant
  rw [runs_nameHere_bind, runs_nextIs_bind]
  cases value with
  | none =>
    have hnext : s.next.kind ≠ .assign := by
      rw [hs.next_kind]
      exact hx
    rw [if_neg (by simpa using hnext), runs_pure_iff]
    exact ⟨by simp [VariantDecl.bare, Name.bare_mk hs.current_text], hs.faces⟩
  | some value =>
    simp only [VariantDecl.lexemes, List.cons_append] at hs
    have hnext : s.next.kind = .assign := hs.next_kind
    have hnumber := (hs.faces.step (by simp)).advanced_append
      (show numberLexemes value ≠ [] by unfold numberLexemes; split <;> simp)
    rw [hnext, if_pos (by rfl), runs_advance_bind, runs_advance_bind]
    refine Runs.bind (runs_signedInteger hnumber) ?_
    rintro value' s' ⟨rfl, hfaces⟩
    rw [runs_pure_iff]
    exact ⟨by simp [VariantDecl.bare, Name.bare_mk hs.current_text], hfaces⟩

theorem VariantDecl.inCaseAfter_lexemes {v : VariantDecl}
    (hv : v.isWellFormed = true) : inCaseAfter b v.lexemes = b := by
  rw [isWellFormed, Bool.and_eq_true] at hv
  rw [lexemes, Node.inCaseAfter_cons (by rw [Name.kind_lexeme hv.1]; simp)]
  split
  · rw [Node.inCaseAfter_sign (by simp)]
    unfold numberLexemes
    split <;> simp [Node.inCaseAfter_cons]
  · exact Node.inCaseAfter_nil

theorem Stmt.reads_enum {name : Name} {variants : List VariantDecl}
    (hname : name.isIdentifier = true)
    (hvariants : variants.all VariantDecl.isWellFormed = true) :
    (Stmt.enum name variants loc).Reads b := by
  have hwf := List.all_eq_true.mp hvariants
  refine reads_of_brace (sign .enumWord)
    (name.lexeme :: sign .lbrace ::
      (listed (variants.map VariantDecl.lexemes) ++ [sign .rbrace]))
    (by simp [Stmt.lexemes]) (by simp) rfl ?_
  intro n s x r _ hs _
  simp only [List.cons_append, List.append_assoc, List.nil_append] at hs
  obtain ⟨hident, htext, hbrace, hinside⟩ := views_declaration hname hs
  unfold Grammar.statementBody
  rw [runs_current_bind, hs.current_sign]
  change Runs enumDeclaration _ _
  rw [enumDeclaration_eq, runs_here_bind, runs_expect_bind hident, runs_nameHere_bind,
    runs_expect_bind hbrace, runs_advance_bind]
  refine Runs.bind (runs_members variant VariantDecl.bare VariantDecl.bare
    readsMembers_variantPass ?_ hinside) ?_
  · exact fun v hv => runs_variant (hwf v hv)
  · rintro variants' s' ⟨hvariants', hfaces⟩
    have hsteady : inCaseAfter b
        (listed (variants.map VariantDecl.lexemes)) = b := by
      refine Node.inCaseAfter_listed fun item hitem => ?_
      obtain ⟨v, hv, rfl⟩ := List.mem_map.mp hitem
      exact VariantDecl.inCaseAfter_lexemes (hwf v hv)
    rw [runs_spanFrom_bind, runs_pure_iff]
    refine ⟨?_, ?_⟩
    · simp [Stmt.bare, hvariants', Name.bare_mk htext]
    · rw [Node.inCaseAfter_sign (by simp),
        Node.inCaseAfter_cons (by rw [Name.kind_lexeme hname]; simp),
        Node.inCaseAfter_sign (by simp), Node.inCaseAfter_append, hsteady,
        Node.inCaseAfter_sign (by simp), Node.inCaseAfter_nil]
      exact hfaces

end Script
