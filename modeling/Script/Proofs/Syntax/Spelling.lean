import Script.Proofs.Syntax.Trees
import Script.Proofs.Token.Lexing

/-!
# The lexemes in a printed tree

The printed form of a tree is spelled as the lexemes of the tree.  Pieces of
text are put together from left to right.  Behind a name or a number there has
to be a character that ends it, which is all that the pieces ask of one another.
-/

namespace Script

open Lexeme (sign word listed further)
open Syntax (commaSeparated printReturns printAnnotation annotationLexemes
  returnLexemes numberLexemes dropSemicolons isTerm isIdentifier)
open Cursor (Lexes Clear clear_cons clear_point IsWord)

variable {text text' : String} {chars rest : List Char} {ls ls' : List Lexeme}
  {loc : Location}

/-! ### Texts that are spelled as lexemes -/

/-- The text is read as these lexemes where it comes to an end. -/
def Spelled (text : String) (ls : List Lexeme) : Prop :=
  ∀ rest, Clear rest → Lexes text.toList ls rest

theorem Spelled.then (h : Spelled text ls) (hclear : Clear (chars ++ rest))
    (h' : Lexes chars ls' rest) :
    Lexes (text.toList ++ chars) (ls ++ ls') rest :=
  Lexes.append (h _ hclear) h'

/-- All reserved words have the shape of a name. -/
theorem Syntax.isWord_of_ofWord? {name : String} {kind : Token.Kind}
    (h : Token.Kind.ofWord? name = some kind) :
    IsWord name.toList ∧ kind ≠ .eof := by
  have hall : ∀ p ∈ Token.Kind.reserved, (p.1.toList.head?.any Cursor.startsName &&
      p.1.toList.tail.all Cursor.continuesName) = true ∧ p.2 ≠ .eof := by
    decide
  obtain ⟨hword, heof⟩ := hall _ (Cursor.mem_reserved_of_ofWord? h)
  refine ⟨?_, heof⟩
  dsimp only at hword
  cases hname : name.toList with
  | nil =>
    rw [hname] at hword
    cases hword
  | cons c cs =>
    rw [hname, Bool.and_eq_true] at hword
    exact ⟨c, cs, rfl, hword.1, hword.2⟩

theorem Syntax.isWord_of_isTerm {name : String} (h : isTerm name = true) :
    IsWord name.toList := by
  unfold isTerm at h
  rw [Bool.or_eq_true] at h
  rcases h with hident | htype
  · unfold isIdentifier at hident
    rw [Bool.and_eq_true] at hident
    have hword := hident.1
    split at hword
    · cases hword
    · next c cs heq =>
      rw [Bool.and_eq_true] at hword
      exact ⟨c, cs, heq, hword.1, hword.2⟩
  · unfold Syntax.isTypeWord at htype
    obtain ⟨kind, hkind, -⟩ := (Option.any_eq_true _ _).mp htype
    exact (isWord_of_ofWord? hkind).1

theorem Syntax.isTerm_of_isIdentifier {name : String}
    (h : isIdentifier name = true) : isTerm name = true := by
  unfold isTerm
  rw [h, Bool.true_or]

theorem spelled_word {name : String} (h : isTerm name = true) :
    Spelled name [word name] := fun _ hrest =>
  Cursor.lexes_word (Syntax.isWord_of_isTerm h) hrest.name
    (Syntax.kind_word_ne h (by simp) rfl)

theorem spelled_name {name : Name} (h : name.isIdentifier = true) :
    Spelled name.text [name.lexeme] :=
  spelled_word (Syntax.isTerm_of_isIdentifier h)

/-- A reserved word, and what is behind it. -/
theorem lexes_keyword (kind : Token.Kind)
    (hkind : Token.Kind.ofWord? kind.text = some kind)
    (hclear : Clear (chars ++ rest)) (h : Lexes chars ls rest) :
    Lexes (kind.text.toList ++ chars) (sign kind :: ls) rest := by
  obtain ⟨hword, heof⟩ := Syntax.isWord_of_ofWord? hkind
  have hsign : word kind.text = sign kind := by
    simp [word, hkind, sign]
  have hlexes := Cursor.lexes_word hword hclear.name
    (by rw [hsign]; exact heof)
  rw [hsign] at hlexes
  exact hlexes.append h

theorem clear_blank (rest : List Char) : Clear (' ' :: rest) :=
  clear_cons rfl (by decide) rest

/-! ### Lists -/

theorem spelled_listed {γ : Type} {print : γ → String}
    {lexemes : γ → List Lexeme} {cs : List γ}
    (h : ∀ c ∈ cs, Spelled (print c) (lexemes c)) :
    Spelled (commaSeparated (cs.map print)) (listed (cs.map lexemes)) := by
  unfold commaSeparated
  induction cs with
  | nil =>
    intro rest _
    exact Lexes.nil
  | cons c cs ih =>
    intro rest hrest
    have hc := h c List.mem_cons_self
    have hcs := ih (fun d hd => h d (List.mem_cons_of_mem c hd)) rest hrest
    cases cs with
    | nil =>
      have hone := hc rest hrest
      simpa [listed, further] using hone
    | cons d cs =>
      have hlexes := hc.then (clear_cons rfl (by decide) _)
        (Lexes.alone (c := ',') rfl rfl (Lexes.blank (c := ' ') rfl hcs))
      simpa [listed, further, String.intercalate_cons_cons] using hlexes

theorem printExprs_eq_map (es : List Expr) :
    printExprs es = es.map Expr.print := by
  induction es with
  | nil => rfl
  | cons e es ih => rw [printExprs, ih, List.map_cons]

theorem printEntries_eq_map (es : List Entry) :
    printEntries es = es.map Entry.print := by
  induction es with
  | nil => rfl
  | cons e es ih => rw [printEntries, ih, List.map_cons]

theorem printFields_eq_map (fs : List Field) :
    printFields fs = fs.map Field.print := by
  induction fs with
  | nil => rfl
  | cons f fs ih => rw [printFields, ih, List.map_cons]

/-! ### Types -/

theorem TypeExpr.spelled {t : TypeExpr} (ht : t.isWellFormed = true) :
    Spelled t.print t.lexemes := by
  induction t with
  | named name loc => exact spelled_word ht
  | array element loc ih =>
    intro rest hrest
    simp only [print, lexemes, String.toList_append, String.reduceToList,
      List.cons_append, List.nil_append]
    exact .alone rfl rfl (.alone rfl rfl (ih ht rest hrest))
  | map key value loc ihkey ihvalue =>
    rw [isWellFormed, Bool.and_eq_true] at ht
    intro rest hrest
    simp only [print, lexemes, String.toList_append, String.reduceToList,
      List.cons_append, List.nil_append, List.append_assoc]
    exact lexes_keyword .typeMap rfl (clear_cons rfl (by decide) _)
      (.alone rfl rfl ((ihkey ht.1).then (clear_cons rfl (by decide) _)
        (.alone rfl rfl (ihvalue ht.2 rest hrest))))

theorem TypedName.spelled {p : TypedName} (hp : p.isWellFormed = true) :
    Spelled p.print p.lexemes := by
  rw [isWellFormed, Bool.and_eq_true] at hp
  intro rest hrest
  simp only [print, lexemes, String.toList_append, String.reduceToList,
    List.cons_append, List.nil_append, List.append_assoc]
  exact (spelled_name hp.1).then (clear_cons rfl (by decide) _)
    (.alone rfl rfl (.blank rfl (TypeExpr.spelled hp.2 rest hrest)))

theorem Params.lexes {params : Params} (hparams : params.isWellFormed = true)
    (h : Lexes chars ls rest) :
    Lexes (params.print.toList ++ chars) (params.lexemes ++ ls) rest := by
  cases params with
  | plain names =>
    have hnames : Spelled (commaSeparated (names.map (·.text)))
        (listed (names.map fun n => [n.lexeme])) :=
      spelled_listed fun name hname =>
        spelled_name (List.all_eq_true.mp hparams name hname)
    simp only [print, lexemes, String.toList_append, String.reduceToList,
      List.cons_append, List.nil_append, List.append_assoc]
    exact .alone rfl rfl (hnames.then (clear_cons rfl (by decide) _)
      (.alone rfl rfl h))
  | typed params =>
    rw [isWellFormed, Bool.and_eq_true] at hparams
    have htyped : Spelled (commaSeparated (params.map TypedName.print))
        (listed (params.map TypedName.lexemes)) :=
      spelled_listed fun p hp =>
        TypedName.spelled (List.all_eq_true.mp hparams.2 p hp)
    simp only [print, lexemes, String.toList_append, String.reduceToList,
      List.cons_append, List.nil_append, List.append_assoc]
    exact .alone rfl rfl (htyped.then (clear_cons rfl (by decide) _)
      (.alone rfl rfl h))

/-- The return types of a function and the blank behind them. -/
theorem Syntax.lexes_returns {returns : List TypeExpr}
    (hreturns : returns.all TypeExpr.isWellFormed = true)
    (h : Lexes (' ' :: chars) ls rest) :
    Lexes ((printReturns returns).toList ++ ' ' :: chars)
      (returnLexemes returns ++ ls) rest := by
  match returns with
  | [] => exact h
  | [single] =>
    rw [List.all_cons, Bool.and_eq_true] at hreturns
    simp only [printReturns, returnLexemes, String.toList_append,
      String.reduceToList, List.cons_append, List.nil_append]
    exact .blank rfl ((Cursor.lexes_pair rfl).append (.blank rfl
      ((TypeExpr.spelled hreturns.1).then (clear_blank _) h)))
  | t :: t' :: ts =>
    have htypes : Spelled (commaSeparated ((t :: t' :: ts).map TypeExpr.print))
        (listed ((t :: t' :: ts).map TypeExpr.lexemes)) :=
      spelled_listed fun t ht =>
        TypeExpr.spelled (List.all_eq_true.mp hreturns t ht)
    simp only [printReturns, returnLexemes, String.toList_append,
      String.reduceToList, List.cons_append, List.nil_append,
      List.append_assoc]
    exact .blank rfl ((Cursor.lexes_pair rfl).append (.blank rfl
      (.alone rfl rfl (htypes.then (clear_cons rfl (by decide) _)
        (.alone rfl rfl h)))))

theorem Syntax.lexes_annotation {type : Option TypeExpr}
    (htype : type.all TypeExpr.isWellFormed = true)
    (h : Lexes (' ' :: chars) ls rest) :
    Lexes (( printAnnotation type).toList ++ ' ' :: chars)
      (annotationLexemes type ++ ls) rest := by
  cases type with
  | none => exact h
  | some t =>
    simp only [ printAnnotation, annotationLexemes, String.toList_append,
      String.reduceToList, List.cons_append, List.nil_append]
    exact .alone rfl rfl (.blank rfl
      ((TypeExpr.spelled htype).then (clear_blank _) h))

end Script
