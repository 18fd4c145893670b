import Script.Proofs.Syntax.Spelling

/-!
# Printed trees are spelled as their lexemes

One rule for every kind of node, and the whole tree by induction on its nodes.
-/

namespace Script

open Lexeme (sign word listed further)
open Syntax (commaSeparated printAnnotation annotationLexemes numberLexemes
  dropSemicolons isTerm)
open Cursor (Lexes Clear clear_cons clear_point IsWord isDigit continuesName
  pairKind?)

variable {text text' : String} {chars rest : List Char} {ls ls' : List Lexeme}
  {loc : Location}

attribute [local simp] Expr.print Expr.lexemes

/-! ### The ends of a text -/

/-- The text ends with something that is no semicolon. -/
def Ends (text : String) : Prop :=
  ∃ cs c, text.toList = cs ++ [c] ∧ c ≠ ';'

theorem Ends.append (h : Ends text') (text : String) : Ends (text ++ text') := by
  obtain ⟨cs, c, heq, hc⟩ := h
  exact ⟨text.toList ++ cs, c, by simp [heq], hc⟩

theorem ends_of_all {p : Char → Bool} (hall : text.toList.all p = true)
    (hne : text.toList ≠ []) (hp : p ';' = false) : Ends text := by
  have hlast := List.dropLast_concat_getLast hne
  refine ⟨_, _, hlast.symm, ?_⟩
  intro heq
  have hmem := List.all_eq_true.mp hall _ (List.getLast_mem hne)
  rw [heq] at hmem
  exact absurd (hp.symm.trans hmem) Bool.false_ne_true

theorem Cursor.IsWord.all {text : List Char} (h : IsWord text) :
    text.all continuesName = true ∧ text ≠ [] := by
  obtain ⟨c, cs, rfl, hc, hcs⟩ := h
  refine ⟨?_, by simp⟩
  rw [List.all_cons, hcs, Bool.and_true]
  unfold continuesName
  rw [hc, Bool.true_or]

theorem ends_word {name : String} (h : isTerm name = true) : Ends name := by
  obtain ⟨hall, hne⟩ := (Syntax.isWord_of_isTerm h).all
  exact ends_of_all hall hne rfl

theorem Block.ends (bl : Block) : Ends bl.print := by
  obtain ⟨statements, loc⟩ := bl
  exact Ends.append ⟨[], _, rfl, by decide⟩ _

/-- Only the semicolon behind a text is dropped. -/
theorem Syntax.dropSemicolons_append (h : Ends text) :
    dropSemicolons (text ++ ";") = text := by
  obtain ⟨cs, c, heq, hc⟩ := h
  have hlist : (text ++ ";").toList.reverse = ';' :: c :: cs.reverse := by
    simp [heq]
  unfold dropSemicolons
  rw [hlist, List.dropWhile_cons_of_pos (by simp),
    List.dropWhile_cons_of_neg (by simpa using hc), List.reverse_cons,
    List.reverse_reverse, ← heq, String.ofList_toList]

/-- A printed expression: what it is read as, and what the text around it has to
know. -/
structure Expr.Spells (e : Expr) : Prop where
  spelled : Spelled e.print e.lexemes
  ends : Ends e.print
  starts : ∃ c cs, e.print.toList = c :: cs ∧ pairKind? '-' c = none ∧
    pairKind? '!' c = none

theorem Cursor.pairKind?_of_word {c : Char} (h : continuesName c = true) :
    pairKind? '-' c = none ∧ pairKind? '!' c = none :=
  ⟨pairKind?_of_continuesName (Or.inr h), pairKind?_of_continuesName (Or.inr h)⟩

/-! ### Names and literals -/

namespace Expr

theorem spells_name {id : Name} (h : isTerm id.text = true) :
    (Expr.name id).Spells where
  spelled := spelled_word h
  ends := ends_word h
  starts := by
    obtain ⟨c, cs, heq, hc, -⟩ := Syntax.isWord_of_isTerm h
    refine ⟨c, cs, heq, Cursor.pairKind?_of_word ?_⟩
    unfold continuesName
    rw [hc, Bool.true_or]

theorem spells_int {value : Int64} (hvalue : 0 ≤ value) :
    (Expr.int value loc).Spells := by
  obtain ⟨c, cs, heq, hc, hcs⟩ := Numeral.toString_cons hvalue
  have hname := Cursor.continuesName_of_isDigit hc
  refine ⟨fun rest hrest => Cursor.lexes_int heq hc hcs hrest, ?_,
    c, cs, heq, Cursor.pairKind?_of_word hname⟩
  refine ends_of_all (p := isDigit) ?_ ?_ rfl
  · change (toString value).toList.all isDigit = true
    rw [heq, List.all_cons, Bool.and_eq_true]
    exact ⟨hc, hcs⟩
  · change (toString value).toList ≠ []
    rw [heq]
    simp

theorem spells_float {literal : String}
    (hliteral : Syntax.isDecimal literal = true) :
    (Expr.float literal loc).Spells := by
  obtain ⟨whole, fraction, heq, hwhole, hfraction, hne⟩ :=
    Syntax.exists_of_isDecimal hliteral
  refine ⟨fun rest hrest =>
    Cursor.lexes_float heq hwhole hfraction hne hrest.digit, ?_, ?_⟩
  · have hlast := List.dropLast_concat_getLast hne
    refine ⟨whole ++ '.' :: fraction.dropLast, fraction.getLast hne, ?_, ?_⟩
    · change literal.toList = _
      rw [heq, List.append_assoc, List.cons_append, hlast]
    · intro hsemicolon
      have hdigit := List.all_eq_true.mp hfraction _ (List.getLast_mem hne)
      rw [hsemicolon] at hdigit
      cases hdigit
  · cases whole with
    | nil => exact ⟨'.', fraction, heq, rfl, rfl⟩
    | cons c whole =>
      rw [List.all_cons, Bool.and_eq_true] at hwhole
      exact ⟨c, whole ++ '.' :: fraction, heq, Cursor.pairKind?_of_word
        (Cursor.continuesName_of_isDigit hwhole.1)⟩

theorem spells_str {value : String} : (Expr.str value loc).Spells where
  spelled := fun _ _ => Cursor.lexes_quote value
  ends := ⟨'"' :: value.toList.flatMap Syntax.escape, '"',
    by simp [Expr.print, Syntax.quote], by decide⟩
  starts := ⟨'"', value.toList.flatMap Syntax.escape ++ ['"'],
    by simp [Expr.print, Syntax.quote], rfl, rfl⟩

theorem spells_bool {value : Bool} : (Expr.bool value loc).Spells := by
  cases value with
  | true =>
    have htext : (Expr.bool true loc).print = "true" := by simp [Expr.print]
    refine ⟨fun rest hrest => ?_, ?_, ?_⟩
    · rw [htext]
      exact lexes_keyword .trueWord rfl hrest .nil
    · exact ⟨['t', 'r', 'u'], 'e', by rw [htext]; rfl, by decide⟩
    · exact ⟨'t', ['r', 'u', 'e'], by rw [htext]; rfl, rfl, rfl⟩
  | false =>
    have htext : (Expr.bool false loc).print = "false" := by simp [Expr.print]
    refine ⟨fun rest hrest => ?_, ?_, ?_⟩
    · rw [htext]
      exact lexes_keyword .falseWord rfl hrest .nil
    · exact ⟨['f', 'a', 'l', 's'], 'e', by rw [htext]; rfl, by decide⟩
    · exact ⟨'f', ['a', 'l', 's', 'e'], by rw [htext]; rfl, rfl, rfl⟩

end Expr

/-! ### Operators -/

theorem BinaryOp.lexes (op : BinaryOp) (h : Lexes (' ' :: chars) ls rest) :
    Lexes (op.text.toList ++ ' ' :: chars) (sign op.kind :: ls) rest := by
  have hop : Lexes op.text.toList [sign op.kind] (' ' :: chars ++ rest) := by
    cases op <;> first
      | exact Cursor.lexes_pair rfl
      | exact Cursor.lexes_single rfl (by decide)
          (by simp [pairKind?]) (by simp)
  exact hop.append h

theorem AssignOp.lexes (op : AssignOp) (h : Lexes (' ' :: chars) ls rest) :
    Lexes (op.text.toList ++ ' ' :: chars) (sign op.kind :: ls) rest := by
  have hop : Lexes op.text.toList [sign op.kind] (' ' :: chars ++ rest) := by
    cases op <;> first
      | exact Cursor.lexes_pair rfl
      | exact Cursor.lexes_single rfl (by decide)
          (by simp [pairKind?]) (by simp)
  exact hop.append h

theorem StepOp.lexes (op : StepOp) (h : Lexes chars ls rest) :
    Lexes (op.text.toList ++ chars) (sign op.kind :: ls) rest := by
  have hop : Lexes op.text.toList [sign op.kind] (chars ++ rest) := by
    cases op <;> exact Cursor.lexes_pair rfl
  exact hop.append h

/-- An operator in front of an expression. -/
theorem PrefixOp.lexes (op : PrefixOp) {c : Char}
    (hminus : pairKind? '-' c = none) (hbang : pairKind? '!' c = none)
    (h : Lexes (c :: chars) ls rest) :
    Lexes (op.text.toList ++ c :: chars) (sign op.kind :: ls) rest := by
  have hop : Lexes op.text.toList [sign op.kind] (c :: chars ++ rest) := by
    cases op with
    | minus =>
      change Lexes ['-'] [sign .minus] _
      refine Cursor.lexes_single rfl (by decide) (fun d hd => ?_) (by simp)
      obtain rfl := Option.some.inj hd
      exact hminus
    | not =>
      change Lexes ['!'] [sign .bang] _
      refine Cursor.lexes_single rfl (by decide) (fun d hd => ?_) (by simp)
      obtain rfl := Option.some.inj hd
      exact hbang
    | increment => exact Cursor.lexes_pair rfl
    | decrement => exact Cursor.lexes_pair rfl
  exact hop.append h

/-- A closing parenthesis ends whatever is in front of it. -/
theorem clear_rparen (rest : List Char) : Clear (')' :: rest) :=
  clear_cons rfl (by decide) rest

theorem lexes_rparen (rest : List Char) :
    Lexes [')'] [sign .rparen] rest :=
  .alone rfl rfl .nil

theorem clear_bracket (rest : List Char) : Clear ('[' :: rest) :=
  clear_cons rfl (by decide) rest

namespace Expr

/-- An expression that is printed in parentheses. -/
theorem spells_of_paren {e : Expr} (inside : String) (ls : List Lexeme)
    (hprint : e.print = "(" ++ inside ++ ")")
    (hls : e.lexemes = sign .lparen :: ls)
    (h : ∀ rest, Lexes (inside.toList ++ [')']) ls rest) : e.Spells := by
  have htext : e.print.toList = '(' :: (inside.toList ++ [')']) := by
    simp [hprint]
  refine ⟨fun rest _ => ?_, ⟨'(' :: inside.toList, ')', htext, by decide⟩,
    '(', inside.toList ++ [')'], htext, rfl, rfl⟩
  rw [htext, hls]
  exact .alone rfl rfl (h rest)

variable {e left right value body : Expr}

theorem spells_unary {op : PrefixOp} (hright : right.Spells) :
    (Expr.unary op right loc).Spells := by
  refine spells_of_paren (op.text ++ right.print)
    (sign op.kind :: (right.lexemes ++ [sign .rparen]))
    (by simp [Expr.print, String.append_assoc]) (by simp [Expr.lexemes])
    fun rest => ?_
  have hinside := hright.spelled.then (clear_rparen _)
    (lexes_rparen rest)
  obtain ⟨c, cs, heq, hminus, hbang⟩ := hright.starts
  rw [heq, List.cons_append] at hinside
  rw [String.toList_append, List.append_assoc, heq, List.cons_append]
  exact op.lexes hminus hbang hinside

/-- Two expressions with an operator between them. -/
theorem spells_of_infix {op : String} {kind : Token.Kind} (hleft : left.Spells)
    (hright : right.Spells)
    (hop : ∀ {chars ls rest}, Lexes (' ' :: chars) ls rest →
      Lexes (op.toList ++ ' ' :: chars) (sign kind :: ls) rest)
    (hprint : e.print =
      "(" ++ (left.print ++ " " ++ op ++ " " ++ right.print) ++ ")")
    (hls : e.lexemes = sign .lparen ::
      (left.lexemes ++ sign kind :: (right.lexemes ++ [sign .rparen]))) :
    e.Spells := by
  refine spells_of_paren _ _ hprint hls fun rest => ?_
  simp only [String.toList_append, String.reduceToList, List.cons_append,
    List.nil_append, List.append_assoc]
  exact hleft.spelled.then (clear_blank _) (.blank rfl (hop
    (.blank rfl (hright.spelled.then (clear_rparen _) (.alone rfl rfl .nil)))))

theorem spells_binary {op : BinaryOp} (hleft : left.Spells)
    (hright : right.Spells) : (Expr.binary left op right loc).Spells :=
  spells_of_infix hleft hright op.lexes
    (by simp [Expr.print, String.append_assoc]) (by simp [Expr.lexemes])

theorem spells_step {op : StepOp} (hvalue : value.Spells) :
    (Expr.step op value loc).Spells := by
  refine spells_of_paren (value.print ++ op.text)
    (value.lexemes ++ [sign op.kind, sign .rparen])
    (by simp [Expr.print, String.append_assoc]) (by simp [Expr.lexemes])
    fun rest => ?_
  simp only [String.toList_append, List.append_assoc]
  refine hvalue.spelled.then ?_ (op.lexes (.alone rfl rfl .nil))
  cases op <;> exact clear_cons rfl (by decide) _

theorem spells_assign {op : AssignOp} (hleft : left.Spells)
    (hright : right.Spells) : (Expr.assign left op right loc).Spells :=
  spells_of_infix hleft hright op.lexes
    (by simp [Expr.print, String.append_assoc]) (by simp [Expr.lexemes])

theorem spells_ternary {condition consequence alternative : Expr}
    (hcondition : condition.Spells) (hconsequence : consequence.Spells)
    (halternative : alternative.Spells) :
    (Expr.ternary condition consequence alternative loc).Spells := by
  refine spells_of_paren (condition.print ++ " ? " ++ consequence.print ++
    " : " ++ alternative.print)
    (condition.lexemes ++ sign .question :: (consequence.lexemes ++
      sign .colon :: (alternative.lexemes ++ [sign .rparen])))
    (by simp [Expr.print, String.append_assoc]) (by simp [Expr.lexemes])
    fun rest => ?_
  simp only [String.toList_append, String.reduceToList, List.cons_append,
    List.nil_append, List.append_assoc]
  exact hcondition.spelled.then (clear_blank _) (.blank rfl (.alone rfl rfl
    (.blank rfl (hconsequence.spelled.then (clear_blank _) (.blank rfl
    (.alone rfl rfl (.blank rfl (halternative.spelled.then (clear_rparen _)
    (.alone rfl rfl .nil)))))))))

/-- The end of a range does not start with a dot. -/
theorem spells_range (hleft : left.Spells) (hright : right.Spells)
    (hdot : right.print.toList.head? ≠ some '.') :
    (Expr.range left right loc).Spells := by
  refine spells_of_paren (left.print ++ ".." ++ right.print)
    (left.lexemes ++ sign .range :: (right.lexemes ++ [sign .rparen]))
    (by simp [Expr.print, String.append_assoc]) (by simp [Expr.lexemes])
    fun rest => ?_
  have hinside := hright.spelled.then (clear_rparen _)
    (lexes_rparen rest)
  obtain ⟨c, cs, heq, -⟩ := hright.starts
  rw [heq] at hdot
  rw [heq, List.cons_append] at hinside
  simp only [String.toList_append, String.reduceToList, heq, List.cons_append,
    List.nil_append, List.append_assoc]
  refine hleft.spelled.then (clear_point rfl)
    ((Cursor.lexes_range fun d hd => ?_).append hinside)
  obtain rfl := Option.some.inj hd
  simpa using hdot

theorem spells_index {index : Expr} (hleft : left.Spells)
    (hindex : index.Spells) : (Expr.index left index loc).Spells := by
  refine spells_of_paren (left.print ++ "[" ++ index.print ++ "]")
    (left.lexemes ++ sign .lbracket ::
      (index.lexemes ++ [sign .rbracket, sign .rparen]))
    (by simp [Expr.print, String.append_assoc]) (by simp [Expr.lexemes])
    fun rest => ?_
  simp only [String.toList_append, String.reduceToList, List.cons_append,
    List.nil_append, List.append_assoc]
  exact hleft.spelled.then (clear_bracket _) (.alone rfl rfl
    (hindex.spelled.then (clear_cons rfl (by decide) _)
    (.alone rfl rfl (.alone rfl rfl .nil))))

end Expr

/-- An expression that may be missing. -/
theorem Syntax.lexes_option {e : Option Expr} (he : ∀ e' ∈ e, e'.Spells)
    (hclear : Clear (chars ++ rest)) (h : Lexes chars ls rest) :
    Lexes ((printOption e).toList ++ chars) (optionLexemes e ++ ls) rest := by
  cases e with
  | none => exact h
  | some e => exact (he e rfl).spelled.then hclear h

namespace Expr

variable {e left value body : Expr}

theorem spells_slice {start stop : Option Expr} (hleft : left.Spells)
    (hstart : ∀ e ∈ start, e.Spells) (hstop : ∀ e ∈ stop, e.Spells) :
    (Expr.slice left start stop loc).Spells := by
  refine spells_of_paren (left.print ++ "[" ++ printOption start ++ ":" ++
    printOption stop ++ "]")
    (left.lexemes ++ sign .lbracket :: (optionLexemes start ++ sign .colon ::
      (optionLexemes stop ++ [sign .rbracket, sign .rparen])))
    (by simp [Expr.print, String.append_assoc]) (by simp [Expr.lexemes])
    fun rest => ?_
  simp only [String.toList_append, String.reduceToList, List.cons_append,
    List.nil_append, List.append_assoc]
  exact hleft.spelled.then (clear_bracket _) (.alone rfl rfl
    (Syntax.lexes_option hstart (clear_cons rfl (by decide) _)
    (.alone rfl rfl (Syntax.lexes_option hstop (clear_cons rfl (by decide) _)
    (.alone rfl rfl (.alone rfl rfl .nil))))))

theorem spells_arrow {params : List Name}
    (hparams : Node.arrowIsWellFormed params = true) (hbody : body.Spells) :
    (Expr.arrow params body loc).Spells := by
  have hnames : Spelled (commaSeparated (params.map (·.text)))
      (listed (params.map fun n => [n.lexeme])) :=
    spelled_listed fun name hname =>
      spelled_word (Node.isTerm_of_arrowIsWellFormed hparams name hname)
  refine spells_of_paren ("(" ++ commaSeparated (params.map (·.text)) ++
    ") => " ++ body.print)
    (sign .lparen :: (listed (params.map fun n => [n.lexeme]) ++
      sign .rparen :: sign .fatArrow :: (body.lexemes ++ [sign .rparen])))
    ?_ (by simp [Expr.lexemes]) fun rest => ?_
  · have hparens : "((" = "(" ++ "(" := rfl
    rw [Expr.print, hparens]
    simp only [String.append_assoc]
  · simp only [String.toList_append, String.reduceToList, List.cons_append,
      List.nil_append, List.append_assoc]
    exact .alone rfl rfl (hnames.then (clear_rparen _) (.alone rfl rfl
      (.blank rfl ((Cursor.lexes_pair rfl).append (.blank rfl
      (hbody.spelled.then (clear_rparen _) (.alone rfl rfl .nil)))))))

/-! ### Other expressions -/

theorem spells_spread (hvalue : value.Spells) :
    (Expr.spread value loc).Spells where
  spelled := by
    intro rest hrest
    rw [Expr.print, Expr.lexemes, String.toList_append]
    exact Cursor.lexes_spread.append (hvalue.spelled rest hrest)
  ends := Ends.append hvalue.ends _
  starts := ⟨'.', '.' :: '.' :: value.print.toList, by simp [Expr.print], rfl,
    rfl⟩

/-- What is behind the first part of a text does not change its start. -/
theorem Spells.starts_append {whole : Expr} (h : e.Spells) (rest : String)
    (hprint : whole.print = e.print ++ rest) :
    ∃ c cs, whole.print.toList = c :: cs ∧ pairKind? '-' c = none ∧
      pairKind? '!' c = none := by
  obtain ⟨c, cs, heq, hc⟩ := h.starts
  exact ⟨c, cs ++ rest.toList, by simp [hprint, heq], hc⟩

theorem spelled_exprs {es : List Expr} (h : ∀ e ∈ es, e.Spells) :
    Spelled (commaSeparated (printExprs es)) (listed (exprsLexemes es)) := by
  rw [printExprs_eq_map, exprsLexemes_eq_map]
  exact spelled_listed fun e he => (h e he).spelled

theorem spells_call {callee : Expr} {args : List Expr}
    (hcallee : callee.Spells) (hargs : ∀ e ∈ args, e.Spells) :
    (Expr.call callee args loc).Spells where
  spelled := by
    intro rest _
    simp only [Expr.print, Expr.lexemes, String.toList_append,
      String.reduceToList, List.cons_append, List.nil_append,
      List.append_assoc]
    exact hcallee.spelled.then (clear_cons rfl (by decide) _) (.alone rfl rfl
      ((spelled_exprs hargs).then (clear_rparen _) (.alone rfl rfl .nil)))
  ends := Ends.append ⟨[], ')', rfl, by decide⟩ _
  starts := hcallee.starts_append
    ("(" ++ commaSeparated (printExprs args) ++ ")")
    (by simp [Expr.print, String.append_assoc])

theorem spells_array {elements : List Expr} (h : ∀ e ∈ elements, e.Spells) :
    (Expr.array elements loc).Spells where
  spelled := by
    intro rest _
    simp only [Expr.print, Expr.lexemes, String.toList_append,
      String.reduceToList, List.cons_append, List.nil_append]
    exact .alone rfl rfl ((spelled_exprs h).then (clear_cons rfl (by decide) _)
      (.alone rfl rfl .nil))
  ends := Ends.append ⟨[], ']', rfl, by decide⟩ _
  starts := ⟨'[', (commaSeparated (printExprs elements)).toList ++ [']'],
    by simp [Expr.print], rfl, rfl⟩

/-- A point and a name behind it. -/
theorem Syntax.lexes_property {name : String} (chars : List Char)
    (h : isTerm name = true)
    (hclear : Clear (chars ++ rest)) (hrest : Lexes chars ls rest) :
    Clear ('.' :: (name.toList ++ chars) ++ rest) ∧
      Lexes ('.' :: (name.toList ++ chars)) (sign .dot :: word name :: ls)
        rest := by
  obtain ⟨c, cs, heq, hc, -⟩ := Syntax.isWord_of_isTerm h
  have hdigit : Cursor.digitNext (name.toList ++ chars ++ rest) = false := by
    rw [heq]
    exact Cursor.isDigit_of_startsName hc
  refine ⟨clear_point hdigit, ?_⟩
  refine (Cursor.lexes_dot (fun d hd => ?_) hdigit).append
    ((spelled_word h).then hclear hrest)
  rw [heq] at hd
  obtain rfl := Option.some.inj hd
  rintro rfl
  cases hc

theorem spells_member {object : Expr} {property : Name}
    (hobject : object.Spells) (hproperty : isTerm property.text = true) :
    (Expr.member object property loc).Spells where
  spelled := by
    intro rest hrest
    obtain ⟨hclear, hlexes⟩ := Syntax.lexes_property [] hproperty hrest .nil
    rw [List.append_nil] at hclear hlexes
    simp only [Expr.print, Expr.lexemes, String.toList_append,
      String.reduceToList, List.append_assoc, List.cons_append,
      List.nil_append]
    exact hobject.spelled.then hclear hlexes
  ends := Ends.append (ends_word hproperty) _
  starts := hobject.starts_append ("." ++ property.text)
    (by simp [Expr.print, String.append_assoc])

theorem spells_map {entries : List Entry}
    (h : ∀ e ∈ entries, e.key.Spells ∧ e.value.Spells) :
    (Expr.map entries loc).Spells where
  spelled := by
    intro rest _
    have hentries : Spelled (commaSeparated (printEntries entries))
        (listed (entriesLexemes entries)) := by
      rw [printEntries_eq_map, entriesLexemes_eq_map]
      refine spelled_listed fun entry hentry rest hrest => ?_
      obtain ⟨hkey, hvalue⟩ := h entry hentry
      obtain ⟨key, value⟩ := entry
      simp only [Entry.print, Entry.lexemes, String.toList_append,
        String.reduceToList, List.append_assoc, List.cons_append,
        List.nil_append]
      exact hkey.spelled.then (clear_cons rfl (by decide) _) (.alone rfl rfl
        (.blank rfl (hvalue.spelled rest hrest)))
    simp only [Expr.print, Expr.lexemes, String.toList_append,
      String.reduceToList, List.cons_append, List.nil_append]
    exact .alone rfl rfl (hentries.then (clear_cons rfl (by decide) _)
      (.alone rfl rfl .nil))
  ends := Ends.append ⟨[], '\x7d', rfl, by decide⟩ _
  starts := ⟨'\x7b', (commaSeparated (printEntries entries)).toList ++ ['\x7d'],
    by simp [Expr.print], rfl, rfl⟩

theorem spells_record {struct : Name} {fields : List Field}
    (hstruct : struct.isIdentifier = true)
    (hnames : fields.all (·.name.isIdentifier) = true)
    (h : ∀ f ∈ fields, f.value.Spells) :
    (Expr.record struct fields loc).Spells where
  spelled := by
    intro rest _
    have hfields : Spelled (commaSeparated (printFields fields))
        (listed (fieldsLexemes fields)) := by
      rw [printFields_eq_map, fieldsLexemes_eq_map]
      refine spelled_listed fun field hfield rest hrest => ?_
      have hname := List.all_eq_true.mp hnames field hfield
      have hvalue := h field hfield
      obtain ⟨name, value⟩ := field
      simp only [Field.print, Field.lexemes, String.toList_append,
        String.reduceToList, List.append_assoc, List.cons_append,
        List.nil_append]
      exact (spelled_name hname).then (clear_cons rfl (by decide) _)
        (.alone rfl rfl (.blank rfl (hvalue.spelled rest hrest)))
    simp only [Expr.print, Expr.lexemes, String.toList_append,
      String.reduceToList, List.append_assoc, List.cons_append,
      List.nil_append]
    exact (spelled_name hstruct).then (clear_blank _) (.blank rfl
      (.alone rfl rfl (hfields.then (clear_cons rfl (by decide) _)
      (.alone rfl rfl .nil))))
  ends := Ends.append ⟨[], '\x7d', rfl, by decide⟩ _
  starts := by
    have hname : (Expr.name struct).Spells :=
      spells_name (Syntax.isTerm_of_isIdentifier hstruct)
    exact hname.starts_append
      (" \x7b" ++ commaSeparated (printFields fields) ++ "\x7d")
      (by simp [Expr.print, String.append_assoc])

end Expr

end Script
