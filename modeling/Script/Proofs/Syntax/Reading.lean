import Script.Proofs.Syntax.Bare
import Script.Proofs.Syntax.Passes
import Script.Proofs.Syntax.Printable
import Script.Proofs.Syntax.Running

/-!
# Reading lexemes

What it means that the parser makes a tree of the lexemes of that tree, and the
parts of the grammar below expressions: names, types and lists.
-/

namespace Script

open Lexeme (sign word listed further)
open Node (inCaseAfter)
open Syntax (isIdentifier isTypeWord isTerm)

/-! ### Words -/

theorem Syntax.kind_word_of_isIdentifier {text : String}
    (h : isIdentifier text = true) : (word text).kind = .ident := by
  unfold isIdentifier at h
  rw [Bool.and_eq_true, Option.isNone_iff_eq_none] at h
  simp [word, h.2]

theorem Syntax.isType_word_of_isTypeWord {text : String}
    (h : isTypeWord text = true) : (word text).kind.isType = true := by
  unfold isTypeWord at h
  obtain ⟨kind, hkind, htype⟩ := (Option.any_eq_true _ _).mp h
  simp [word, hkind, htype]

theorem Syntax.kind_word_of_isTerm {text : String} (h : isTerm text = true) :
    (word text).kind = .ident ∨ (word text).kind.isType = true := by
  unfold isTerm at h
  rw [Bool.or_eq_true] at h
  exact h.imp kind_word_of_isIdentifier isType_word_of_isTypeWord

/-- What stands for a name or a type is of no other kind. -/
theorem Syntax.kind_word_ne {text : String} (h : isTerm text = true)
    {kind : Token.Kind} (hident : kind ≠ .ident) (htype : kind.isType = false) :
    (word text).kind ≠ kind := by
  rintro rfl
  rcases kind_word_of_isTerm h with hword | hword
  · exact hident hword
  · exact absurd (htype.symm.trans hword) Bool.false_ne_true

theorem Name.kind_lexeme {n : Name} (h : n.isIdentifier = true) :
    n.lexeme.kind = .ident :=
  Syntax.kind_word_of_isIdentifier h

/-! ### The mode for case values -/

namespace Node

variable {b : Bool}

@[simp]
theorem inCaseAfter_nil : inCaseAfter b [] = b := by
  simp [inCaseAfter]

@[simp]
theorem inCaseAfter_append (ls ls' : List Lexeme) :
    inCaseAfter b (ls ++ ls') = inCaseAfter (inCaseAfter b ls) ls' := by
  simp [inCaseAfter, Bool.and_assoc]

theorem inCaseAfter_cons {l : Lexeme} (hl : l.kind ≠ .caseWord)
    (ls : List Lexeme) : inCaseAfter b (l :: ls) = inCaseAfter b ls := by
  simp [inCaseAfter, hl]

@[simp]
theorem inCaseAfter_sign {kind : Token.Kind} (hkind : kind ≠ .caseWord)
    (ls : List Lexeme) : inCaseAfter b (sign kind :: ls) = inCaseAfter b ls :=
  inCaseAfter_cons hkind ls

@[simp]
theorem inCaseAfter_case (ls : List Lexeme) :
    inCaseAfter b (sign .caseWord :: ls) = false := by
  simp [inCaseAfter]

@[simp]
theorem inCaseAfter_further (items : List (List Lexeme)) :
    inCaseAfter b (further items) = inCaseAfter b (listed items) := by
  cases items with
  | nil => rfl
  | cons item items => simp [further, listed]

end Node

/-! ### Types -/

theorem TypeExpr.first_kind {t : TypeExpr} (ht : t.isWellFormed = true) :
    ∃ l ls, t.lexemes = l :: ls ∧
      (l.kind = .ident ∨ l.kind.isType = true ∨ l.kind = .lbracket) := by
  cases t with
  | named name loc =>
    exact ⟨_, _, rfl, (Syntax.kind_word_of_isTerm ht).imp_right Or.inl⟩
  | array element loc => exact ⟨_, _, rfl, Or.inr (Or.inr rfl)⟩
  | map key value loc => exact ⟨_, _, rfl, Or.inr (Or.inl rfl)⟩

theorem TypeExpr.lexemes_ne_nil (t : TypeExpr) : t.lexemes ≠ [] := by
  cases t <;> simp [TypeExpr.lexemes]

namespace Parser

variable {α γ : Type} {s : State} {b : Bool} {x : Lexeme} {r : List Lexeme}

/-- A type is read up to a token that is no bracket. -/
theorem runs_typeHere {t : TypeExpr} (ht : t.isWellFormed = true) {n : Nat}
    (hn : t.lexemes.length ≤ n) (hx : x.kind ≠ .lbracket)
    (hs : s.Views b (t.lexemes ++ x :: r)) :
    Runs (grammar n).typeHere s fun t' s' =>
      t'.bare = t.bare ∧ s'.Faces b (x :: r) := by
  induction t generalizing n s x r with
  | named name loc =>
    have hkind := hs.current_kind
    have htext := hs.current_text
    have hnext := hs.next_kind
    have hterm := Syntax.kind_word_of_isTerm ht
    have hbracket : s.current.kind ≠ .lbracket := by
      rw [hkind]
      exact Syntax.kind_word_ne ht (by simp) rfl
    have hmap : ¬ (s.current.kind = .typeMap ∧ s.next.kind = .lbracket) :=
      fun h => hx (hnext.symm.trans h.2)
    have hname : s.current.kind = .ident ∨ s.current.kind.isType = true := by
      rwa [hkind]
    unfold Grammar.typeHere
    simp only [runs_here_bind, runs_current_bind, runs_nextKind_bind,
      runs_pure_iff, if_neg hbracket, if_neg hmap, if_pos hname]
    exact ⟨by rw [htext]; rfl, hs.faces⟩
  | array element loc ih =>
    cases n with
    | zero => simp [TypeExpr.lexemes] at hn
    | succ n =>
      simp only [TypeExpr.lexemes, List.length_cons] at hn
      have hopen := hs.faces
      have hclose := hopen.step (by simp)
      have helement := hclose.advanced_append element.lexemes_ne_nil
      unfold Grammar.typeHere
      simp only [runs_here_bind, runs_current_bind, if_pos hs.current_sign,
        runs_expect_bind hopen.next_sign, runs_advance_bind]
      refine Runs.bind (ih ht (by omega) hx helement) ?_
      rintro element' s' ⟨hsame, hfaces⟩
      simp only [runs_spanFrom_bind, runs_pure_iff]
      exact ⟨by simp [TypeExpr.bare, hsame], hfaces⟩
  | map key value loc ihkey ihvalue =>
    cases n with
    | zero => simp [TypeExpr.lexemes] at hn
    | succ n =>
      simp only [TypeExpr.isWellFormed, Bool.and_eq_true] at ht
      simp only [TypeExpr.lexemes, List.length_cons, List.length_append,
        List.cons_append] at hn
      simp only [TypeExpr.lexemes, List.cons_append, List.append_assoc] at hs
      have hkind : s.current.kind = .typeMap := hs.current_kind
      have hopen := hs.faces
      have hkey := (hopen.step (by simp)).advanced_append key.lexemes_ne_nil
      have hmap : s.current.kind = .typeMap ∧ s.next.kind = .lbracket :=
        ⟨hkind, hopen.next_kind⟩
      unfold Grammar.typeHere
      simp only [runs_here_bind, runs_current_bind, runs_nextKind_bind,
        if_neg (show s.current.kind ≠ .lbracket by simp [hkind]), if_pos hmap,
        runs_advance_bind]
      refine Runs.bind (ihkey ht.1 (by omega) (by simp) hkey) ?_
      rintro key' s' ⟨hsame, hfaces⟩
      have hvalue := (hfaces.step (by simp)).advanced_append
        value.lexemes_ne_nil
      simp only [runs_expect_bind hfaces.next_sign, runs_advance_bind]
      refine Runs.bind (ihvalue ht.2 (by omega) hx hvalue) ?_
      rintro value' s' ⟨hsame', hfaces'⟩
      simp only [runs_spanFrom_bind, runs_pure_iff]
      exact ⟨by simp [TypeExpr.bare, hsame, hsame'], hfaces'⟩

/-! ### Lists -/

/-- A parser in front of some lexemes reads what `value` says, up to the
lexeme `x`. -/
def ReadsItem {δ : Type} (item : Parser α) (f : α → δ) (lexemes : List Lexeme)
    (value : δ) (x : Lexeme) (b : Bool) : Prop :=
  ∀ (s : State) (r : List Lexeme), s.Faces b (lexemes ++ x :: r) →
    Runs item s fun a s' =>
      f a = value ∧ s'.Faces (inCaseAfter b lexemes) (x :: r)

/-- The items of a list are read one after another, each up to a comma and the
last one up to `x`. -/
def ReadsEach {δ : Type} (item : Parser α) (f : α → δ)
    (lexemes : γ → List Lexeme) (value : γ → δ) (x : Lexeme) :
    Bool → List γ → Prop
  | _, [] => True
  | b, [c] => ReadsItem item f (lexemes c) (value c) x b
  | b, c :: cs =>
    ReadsItem item f (lexemes c) (value c) (sign .comma) b ∧
      ReadsEach item f lexemes value x (inCaseAfter b (lexemes c)) cs

theorem runs_takeComma_bind {β : Type} {f : Bool → Parser β}
    {R : β → State → Prop} (hnext : s.next.kind = .comma) :
    Runs (takeComma >>= f) s R ↔ Runs (f true) s.advanced R := by
  have heq : takeComma s = .ok true s.advanced := by
    change (if (s.next.kind == .comma) = true then _ else _ : Parser Bool) s = _
    rw [hnext, if_pos (by rfl)]
    exact bind_ok (advance_eq s)
  unfold Runs
  rw [bind_ok heq]

theorem runs_takeComma_bind_other {β : Type} {f : Bool → Parser β}
    {R : β → State → Prop} (hnext : s.next.kind ≠ .comma) :
    Runs (takeComma >>= f) s R ↔ Runs (f false) s R := by
  have heq : takeComma s = .ok false s := by
    change (if (s.next.kind == .comma) = true then _ else _ : Parser Bool) s = _
    rw [if_neg (by simpa using hnext)]
    rfl
  unfold Runs
  rw [bind_ok heq]

section Lists

variable {δ : Type} {item : Parser α} {f : α → δ} {lexemes : γ → List Lexeme}
  {value : γ → δ}

/-- The first item of a list, up to whatever follows it. -/
theorem ReadsEach.first {c : γ} {cs : List γ}
    (h : ReadsEach item f lexemes value x b (c :: cs))
    (hs : s.Faces b (lexemes c ++ (further (cs.map lexemes) ++ x :: r))) :
    Runs item s fun a s' => f a = value c ∧
      s'.Faces (inCaseAfter b (lexemes c))
        (further (cs.map lexemes) ++ x :: r) := by
  cases cs with
  | nil => exact h s r hs
  | cons d cs => exact h.1 s _ hs

theorem ReadsEach.tail {c : γ} {cs : List γ}
    (h : ReadsEach item f lexemes value x b (c :: cs)) :
    ReadsEach item f lexemes value x (inCaseAfter b (lexemes c)) cs := by
  cases cs with
  | nil => trivial
  | cons d cs => exact h.2

theorem inCaseAfter_listed_cons (c : γ) (cs : List γ) :
    inCaseAfter b (listed ((c :: cs).map lexemes)) =
      inCaseAfter (inCaseAfter b (lexemes c)) (listed (cs.map lexemes)) := by
  simp [listed]

/-- The passes of a list, behind the items `read` that have been read. -/
theorem runs_commaList_from {c : γ} {cs : List γ} {read : List α}
    {fuel : List Token} (hx : x.kind ≠ .comma)
    (h : ReadsEach item f lexemes value x b (c :: cs))
    (hs : s.Faces b (lexemes c ++ (further (cs.map lexemes) ++ x :: r)))
    (hfuel : s.ahead.length ≤ fuel.length) :
    Runs (iterate (listPass item) fuel read) s fun as s' =>
      as.map f = (read.map f).reverse ++ (c :: cs).map value ∧
      s'.Faces (inCaseAfter b (listed ((c :: cs).map lexemes))) (x :: r) := by
  induction cs generalizing c b s read fuel with
  | nil =>
    refine runs_iterate_done hfuel (Runs.bind (h.first hs) ?_)
    rintro a s' ⟨ha, hfaces⟩
    rw [runs_takeComma_bind_other (by rw [hfaces.next_kind]; exact hx),
      if_neg Bool.false_ne_true, runs_pure_iff]
    exact ⟨_, rfl, by simp [ha], by simpa [listed, further] using hfaces⟩
  | cons d cs ih =>
    refine runs_iterate_again hfuel (Runs.bind (h.first hs) ?_)
    rintro a s' ⟨ha, hfaces⟩
    simp only [List.map_cons, further, List.cons_append,
      List.append_assoc] at hfaces
    have hnext := hfaces.step (by simp)
    rw [runs_takeComma_bind hfaces.next_sign, if_pos rfl, runs_pure_iff]
    refine ⟨_, rfl, ?_, fun fuel' hfuel' => ?_⟩
    · rw [hnext.ahead, hs.ahead]
      simp only [List.map_cons, further, List.length_append, List.length_cons,
        List.cons_append]
      omega
    · refine (ih h.tail hnext hfuel').mono ?_
      rintro as s'' ⟨has, hfaces'⟩
      rw [inCaseAfter_listed_cons]
      exact ⟨by simp [has, ha], hfaces'⟩

theorem runs_commaList {c : γ} {cs : List γ} (hx : x.kind ≠ .comma)
    (h : ReadsEach item f lexemes value x b (c :: cs))
    (hs : s.Faces b (listed ((c :: cs).map lexemes) ++ x :: r)) :
    Runs (commaList item) s fun as s' =>
      as.map f = (c :: cs).map value ∧
      s'.Faces (inCaseAfter b (listed ((c :: cs).map lexemes))) (x :: r) := by
  rw [List.map_cons, listed, List.append_assoc] at hs
  exact runs_repeated fun _ hfuel => runs_commaList_from hx h hs hfuel

/-- The passes of a list in braces.  No item starts with the closing brace. -/
theorem runs_braceList_from {cs : List γ} {read : List α} {fuel : List Token}
    (hstart : ∀ c ∈ cs, ∃ l ls, lexemes c = l :: ls ∧ l.kind ≠ .rbrace)
    (h : ReadsEach item f lexemes value (sign .rbrace) b cs)
    (hs : s.Faces b (listed (cs.map lexemes) ++ sign .rbrace :: x :: r))
    (hfuel : s.ahead.length ≤ fuel.length) :
    Runs (iterate (bracePass item) fuel read) s fun as s' =>
      as.map f = (read.map f).reverse ++ cs.map value ∧
      s'.Faces (inCaseAfter b (listed (cs.map lexemes)))
        (sign .rbrace :: x :: r) := by
  induction cs generalizing b s read fuel with
  | nil =>
    refine runs_iterate_done hfuel ?_
    have hnext : s.next.kind = .rbrace := hs.next_kind
    unfold bracePass
    rw [runs_nextIs_bind, hnext, if_pos (by rfl), runs_pure_iff]
    exact ⟨_, rfl, by simp, by simpa [listed] using hs⟩
  | cons c cs ih =>
    obtain ⟨l, ls, hc, hl⟩ := hstart c List.mem_cons_self
    simp only [List.map_cons, listed, List.append_assoc] at hs
    have hnext : s.next.kind ≠ .rbrace := by
      rw [hc] at hs
      rw [hs.next_kind]
      exact hl
    refine runs_iterate_again hfuel ?_
    unfold bracePass
    rw [runs_nextIs_bind, if_neg (by simpa using hnext)]
    refine Runs.bind (h.first hs) ?_
    rintro a s' ⟨ha, hfaces⟩
    rw [runs_nextIs_bind]
    -- The brace follows the last item, and a comma every other one.
    cases cs with
    | nil =>
      have hnext' : s'.next.kind = .rbrace := hfaces.next_kind
      rw [hnext', if_pos (by rfl), runs_pure_iff]
      refine ⟨_, rfl, ?_, fun fuel' hfuel' => ?_⟩
      · rw [hfaces.ahead, hs.ahead, hc]
        simp only [List.length_append, List.length_cons]
        omega
      · have hrest : s'.Faces (inCaseAfter b (lexemes c))
            (listed (([] : List γ).map lexemes) ++ sign .rbrace :: x :: r) :=
          hfaces
        refine (ih (by simp) trivial hrest hfuel').mono ?_
        rintro as s'' ⟨has, hfaces'⟩
        exact ⟨by simpa [ha] using has, by simpa [listed, further] using hfaces'⟩
    | cons d cs =>
      simp only [List.map_cons, further, List.cons_append,
        List.append_assoc] at hfaces
      have hnext' : s'.next.kind = .comma := hfaces.next_kind
      have hrest := hfaces.step (by simp)
      rw [hnext', if_neg (by decide), runs_expect_bind hnext', runs_pure_iff]
      refine ⟨_, rfl, ?_, fun fuel' hfuel' => ?_⟩
      · rw [hrest.ahead, hs.ahead]
        simp only [List.map_cons, further, List.length_append,
          List.length_cons, List.cons_append]
        omega
      · have hlisted : s'.advanced.Faces (inCaseAfter b (lexemes c))
            (listed ((d :: cs).map lexemes) ++ sign .rbrace :: x :: r) := by
          simpa [listed] using hrest
        refine (ih (fun e he => hstart e (List.mem_cons_of_mem c he)) h.tail
          hlisted hfuel').mono ?_
        rintro as s'' ⟨has, hfaces'⟩
        rw [inCaseAfter_listed_cons]
        exact ⟨by simp [has, ha], hfaces'⟩

theorem runs_braceList {cs : List γ}
    (hstart : ∀ c ∈ cs, ∃ l ls, lexemes c = l :: ls ∧ l.kind ≠ .rbrace)
    (h : ReadsEach item f lexemes value (sign .rbrace) b cs)
    (hs : s.Faces b (listed (cs.map lexemes) ++ sign .rbrace :: x :: r)) :
    Runs (Grammar.braceList item) s fun as s' =>
      as.map f = cs.map value ∧
      s'.Faces (inCaseAfter b (listed (cs.map lexemes))) (x :: r) := by
  refine Runs.bind (runs_repeated fun _ hfuel =>
    runs_braceList_from hstart h hs hfuel) ?_
  rintro as s' ⟨has, hfaces⟩
  rw [runs_advance_bind, runs_pure_iff]
  exact ⟨by simpa using has, hfaces.step (by simp)⟩

end Lists

/-- The passes of a list of expressions behind its first one. -/
theorem runs_expressionList_from {g : Grammar} {close : Token.Kind}
    {es read : List Expr} {fuel : List Token} (hclose : close ≠ .comma)
    (hstart : ∀ e ∈ es, ∃ l ls, e.lexemes = l :: ls ∧ l.kind ≠ close)
    (h : ReadsEach g.operand Expr.bare Expr.lexemes Expr.bare (sign close) b es)
    (hs : s.Faces b (further (es.map Expr.lexemes) ++ sign close :: x :: r))
    (hfuel : s.ahead.length ≤ fuel.length) :
    Runs (iterate (g.itemPass close) fuel read) s fun es' s' =>
      es'.map Expr.bare = (read.map Expr.bare).reverse ++ es.map Expr.bare ∧
      s'.Faces (inCaseAfter b (listed (es.map Expr.lexemes)))
        (sign close :: x :: r) := by
  induction es generalizing b s read fuel with
  | nil =>
    refine runs_iterate_done hfuel ?_
    have hnext : s.next.kind = close := hs.next_kind
    unfold Grammar.itemPass
    rw [runs_takeComma_bind_other (by rw [hnext]; exact hclose),
      if_neg Bool.false_ne_true, runs_pure_iff]
    exact ⟨_, rfl, by simp, by simpa [listed, further] using hs⟩
  | cons e es ih =>
    obtain ⟨l, ls, he, hl⟩ := hstart e List.mem_cons_self
    simp only [List.map_cons, further, List.cons_append,
      List.append_assoc] at hs
    have hitem := hs.step (by simp)
    have hnext : s.advanced.next.kind ≠ close := by
      rw [he] at hitem
      rw [hitem.next_kind]
      exact hl
    refine runs_iterate_again hfuel ?_
    unfold Grammar.itemPass
    rw [runs_takeComma_bind hs.next_sign, if_pos rfl, runs_nextIs_bind,
      if_neg (by simpa using hnext)]
    refine Runs.bind (h.first hitem) ?_
    rintro e' s' ⟨he', hfaces⟩
    rw [runs_pure_iff]
    refine ⟨_, rfl, ?_, fun fuel' hfuel' => ?_⟩
    · rw [hfaces.ahead, hs.ahead]
      simp only [List.length_append, List.length_cons]
      omega
    · refine (ih (fun d hd => hstart d (List.mem_cons_of_mem e hd)) h.tail
        hfaces hfuel').mono ?_
      rintro es' s'' ⟨hes, hfaces'⟩
      rw [inCaseAfter_listed_cons]
      exact ⟨by simp [hes, he'], hfaces'⟩

/-- Expressions between brackets; the current token is the opening one. -/
theorem runs_expressionList {g : Grammar} {close : Token.Kind} {es : List Expr}
    (hclose : close ≠ .comma)
    (hstart : ∀ e ∈ es, ∃ l ls, e.lexemes = l :: ls ∧ l.kind ≠ close)
    (h : ReadsEach g.operand Expr.bare Expr.lexemes Expr.bare (sign close) b es)
    (hs : s.Faces b (listed (es.map Expr.lexemes) ++ sign close :: x :: r)) :
    Runs (g.expressionList close) s fun es' s' =>
      es'.map Expr.bare = es.map Expr.bare ∧
      s'.Faces (inCaseAfter b (listed (es.map Expr.lexemes))) (x :: r) := by
  unfold Grammar.expressionList
  cases es with
  | nil =>
    have hnext : s.next.kind = close := hs.next_kind
    have hstep : s.advanced.Faces b (x :: r) := hs.step (by simp)
    rw [runs_nextIs_bind, hnext, if_pos (by simp), runs_advance_bind,
      runs_pure_iff]
    exact ⟨rfl, by simpa [listed] using hstep⟩
  | cons e es =>
    obtain ⟨l, ls, he, hl⟩ := hstart e List.mem_cons_self
    simp only [List.map_cons, listed, List.append_assoc] at hs
    have hnext : s.next.kind ≠ close := by
      rw [he] at hs
      rw [hs.next_kind]
      exact hl
    rw [runs_nextIs_bind, if_neg (by simpa using hnext)]
    refine Runs.bind (h.first hs) ?_
    rintro e' s' ⟨he', hfaces⟩
    refine Runs.bind (runs_repeated fun _ hfuel =>
      runs_expressionList_from hclose
        (fun d hd => hstart d (List.mem_cons_of_mem e hd)) h.tail hfaces hfuel) ?_
    rintro es' s'' ⟨hes, hfaces'⟩
    rw [runs_expect_bind hfaces'.next_sign, runs_pure_iff,
      inCaseAfter_listed_cons]
    exact ⟨by simp [hes, he'], hfaces'.step (by simp)⟩

end Parser

end Script
