import Script.Proofs.Syntax.Accepted
import Script.Proofs.Syntax.PrintedStatements
import Script.Proofs.Syntax.Spans

/-!
# The shapes of a program

What is read off a tree without asking again has to be there: a name is spelled as one,
typed parameters are those of the function, a method has a name, a case has a value.  The
tree of an accepted text is well formed node by node, and its sites are laid out in the
text.  Both together give the shape of every site.
-/

namespace Script

open Token (Kind)

/-! ### Names and numbers -/

/-- A name has letters, digits and underscores, and no digit in front.  It is no reserved
word, unless that is a word for a type. -/
structure WrittenName (text : String) : Prop where
  letters : ∃ c rest, text.toList = c :: rest ∧ (c.isAlpha = true ∨ c = '_') ∧
    ∀ c' ∈ rest, c'.isAlphanum = true ∨ c' = '_'
  allowed : ∀ kind, Kind.ofWord? text = some kind → kind.isType = true

/-- Digits, a point and at least one more digit. -/
def WrittenDecimal (text : String) : Prop :=
  ∃ whole fraction : List Char, text.toList = whole ++ '.' :: fraction ∧ fraction ≠ [] ∧
    ∀ c ∈ whole ++ fraction, c.isDigit = true

namespace Syntax

theorem isDigit_of {c : Char} (h : Cursor.isDigit c = true) : c.isDigit = true := by
  simpa [Cursor.isDigit, Char.isDigit, Char.le_def] using h

theorem isAlpha_of {c : Char} (h : Cursor.startsName c = true) :
    c.isAlpha = true ∨ c = '_' := by
  simp only [Cursor.startsName, Bool.or_eq_true, Bool.and_eq_true, decide_eq_true_eq] at h
  rcases h with (⟨hlow, hhigh⟩ | ⟨hlow, hhigh⟩) | hunderscore
  · have hlower : c.isLower = true := Bool.and_eq_true_iff.mpr
      ⟨decide_eq_true hlow, decide_eq_true hhigh⟩
    exact Or.inl (Bool.or_eq_true_iff.mpr (Or.inr hlower))
  · have hupper : c.isUpper = true := decide_eq_true ⟨hlow, hhigh⟩
    exact Or.inl (Bool.or_eq_true_iff.mpr (Or.inl hupper))
  · exact Or.inr hunderscore

theorem isAlphanum_of {c : Char} (h : Cursor.continuesName c = true) :
    c.isAlphanum = true ∨ c = '_' := by
  rw [Cursor.continuesName, Bool.or_eq_true] at h
  rcases h with hstarts | hdigit
  · exact (isAlpha_of hstarts).imp_left fun halpha =>
      Bool.or_eq_true_iff.mpr (Or.inl halpha)
  · exact Or.inl (Bool.or_eq_true_iff.mpr (Or.inr (isDigit_of hdigit)))

theorem writtenName_of_isTerm {text : String} (h : isTerm text = true) :
    WrittenName text := by
  obtain ⟨c, rest, htext, hc, hrest⟩ := isWord_of_isTerm h
  rw [List.all_eq_true] at hrest
  refine ⟨⟨c, rest, htext, isAlpha_of hc, fun c' hc' => isAlphanum_of (hrest c' hc')⟩,
    fun kind hkind => ?_⟩
  rw [isTerm, Bool.or_eq_true] at h
  rcases h with hname | htype
  · rw [isIdentifier, hkind, Bool.and_eq_true] at hname
    cases hname.2
  · rw [isTypeWord, hkind] at htype
    exact htype

theorem writtenDecimal_of_isDecimal {text : String} (h : isDecimal text = true) :
    WrittenDecimal text := by
  unfold isDecimal at h
  split at h
  · next fraction htext =>
    rw [Bool.and_eq_true, Bool.not_eq_true', List.isEmpty_eq_false_iff, List.all_eq_true] at h
    refine ⟨text.toList.takeWhile Cursor.isDigit, fraction, ?_, h.1, fun c hc => ?_⟩
    · rw [← htext, List.takeWhile_append_dropWhile]
    · rcases List.mem_append.mp hc with hwhole | hfraction
      · exact isDigit_of (List.all_eq_true.mp List.all_takeWhile c hwhole)
      · exact isDigit_of (h.2 c hfraction)
  · cases h

end Syntax

/-! ### Shapes -/

namespace TypeExpr

/-- The name that a type goes by. -/
def base : TypeExpr → String
  | named name _ => name
  | array _ _ => "array"
  | map _ _ _ => "map"

/-- The type of the keys of a map. -/
def key? : TypeExpr → Option TypeExpr
  | map key _ _ => some key
  | _ => none

/-- A type is a name alone, or an array of elements, or a map from keys to elements. -/
structure Shaped (t : TypeExpr) : Prop where
  base : WrittenName t.base
  form : t.element? = none ∧ t.key? = none ∨
    t.base = "array" ∧ t.element?.isSome = true ∧ t.key? = none ∨
    t.base = "map" ∧ t.element?.isSome = true ∧ t.key?.isSome = true

end TypeExpr

/-- The parameters with their types, if any of them was written with one. -/
def Params.typed? : Params → Option (List TypedName)
  | plain _ => none
  | typed params => some params

/-- Typed parameters are those of the function, and there are some exactly if a colon
stands in front of the body. -/
structure Function.Shaped (tokens : List Token) (f : Function) : Prop where
  names : ∀ params ∈ f.params.typed?, params.map (·.name) = f.params.names
  typed : f.params.typed?.isSome = true ↔
    ∃ t ∈ tokens, t.kind = .colon ∧ f.loc.start ≤ t.start ∧ t.start < f.body.loc.start

/-- A loop starts with a declaration or an expression. -/
def Stmt.StartsLoop : Stmt → Prop
  | .bind .. | .expr .. => True
  | _ => False

def Expr.Shaped : Expr → Prop
  | .int value _ => 0 ≤ value
  | .float literal _ => WrittenDecimal literal
  | .forLoop (.counting (some start) _ _) _ _ => start.StartsLoop
  | _ => True

def Stmt.Shaped : Stmt → Prop
  | .includes modules grouped _ =>
    modules ≠ [] ∧ (grouped = false → modules.length = 1)
  | .method _ f _ => f.name.isSome = true
  | _ => True

/-- What can be relied on at a site. -/
def Site.Shaped (tokens : List Token) : Site → Prop
  | name id => WrittenName id.text
  | type t => t.Shaped
  | function f => f.Shaped tokens
  | attempt t => t.param.isSome = true → t.handler.isSome = true
  | case c => c.values ≠ []
  | expr e => e.Shaped
  | stmt st => st.Shaped
  | program _ | block _ => True

/-! ### What is known of a site -/

namespace Node

variable {n n' : Node}

/-- Everything in a node is well formed, in the mode it is read in. -/
def Sound (n : Node) : Prop := ∃ b, Every WellFormed b n

/-- A node right inside a sound one. -/
theorem Sound.part (h : n.Sound) (hn : ∀ b, ∃ b', (b', n') ∈ n.parts b) : n'.Sound := by
  obtain ⟨b, h⟩ := h
  obtain ⟨b', hn'⟩ := hn b
  exact ⟨b', h.inside hn'⟩

/-- Nodes that are read one after another inside a sound one. -/
theorem Sound.inTurn (h : n.Sound) (nodes : List Node)
    (hparts : ∀ b, n.parts b = inTurn b nodes) : ∀ n' ∈ nodes, n'.Sound := by
  intro n' hn'
  apply h.part
  intro b
  rw [hparts]
  exact exists_mem_inTurn hn'

theorem Sound.value {e : Expr} (h : (expr e).Sound) : (ofValue e).Sound := by
  cases e
  case function f => exact h.part fun b => ⟨b, List.mem_cons_self⟩
  all_goals exact h

/-- A node with a single sound one inside. -/
theorem Sound.around (h : n'.Sound) (here : ∀ b, WellFormed b n)
    (hparts : ∀ b, n.parts b = [(b, n')]) : n.Sound := by
  obtain ⟨b, h⟩ := h
  refine ⟨b, .intro (here b) fun b' n'' hn'' => ?_⟩
  rw [hparts] at hn''
  obtain ⟨rfl, rfl⟩ := Prod.mk.inj (List.mem_singleton.mp hn'')
  exact h

theorem Sound.of_value {e : Expr} (h : (ofValue e).Sound) : (expr e).Sound := by
  cases e
  case function f => exact h.around (fun _ => rfl) fun _ => rfl
  all_goals exact h

end Node

namespace Site

open Node (Sound)

/-- What is known of a site of an accepted text. -/
def Known : Site → Prop
  | program p => ∀ st ∈ p.statements, Sound (.stmt st)
  | stmt st => Sound (.stmt st)
  | block b => Sound (.block b)
  | expr e => Sound (.expr e)
  | function f => Sound (.function f)
  | case c => c.values ≠ [] ∧ (∀ e ∈ c.values, Sound (.expr e)) ∧ Sound (.block c.body)
  | attempt t => Node.attemptIsWellFormed t = true ∧ Sound (.block t.body) ∧
      ∀ b ∈ t.handler, Sound (.block b)
  | name id => Syntax.isTerm id.text = true
  | type t => t.isWellFormed = true

/-- The site where a node stands. -/
def ofNode : Node → Site
  | .expr e => expr e
  | .stmt st => stmt st
  | .block b => block b
  | .function f => function f

@[simp] theorem ofNode_expr (e : Expr) : ofNode (.expr e) = expr e := rfl

@[simp] theorem ofNode_block (b : Block) : ofNode (.block b) = block b := rfl

theorem known_ofNode {n : Node} (h : n.Sound) : (ofNode n).Known := by
  cases n <;> exact h

/-- Nodes that are read one after another inside a sound one. -/
theorem known_nodes {n : Node} (h : n.Sound) (nodes : List Node)
    (hparts : ∀ b, n.parts b = Node.inTurn b nodes) : ∀ x ∈ nodes.map ofNode, x.Known := by
  intro x hx
  obtain ⟨n', hn', rfl⟩ := List.mem_map.mp hx
  exact known_ofNode (h.inTurn nodes hparts n' hn')

theorem known_name {id : Name} (h : id.isIdentifier = true) : (name id).Known :=
  Syntax.isTerm_of_isIdentifier h

theorem known_names {ids : List Name} (h : ids.all Name.isIdentifier = true) :
    ∀ x ∈ ids.map name, x.Known := by
  intro x hx
  obtain ⟨id, hid, rfl⟩ := List.mem_map.mp hx
  exact known_name (List.all_eq_true.mp h id hid)

theorem known_params {params : Params} (h : params.isWellFormed = true) :
    ∀ x ∈ params.sites, x.Known := by
  cases params with
  | plain names => exact known_names h
  | typed params =>
    rw [Params.isWellFormed, Bool.and_eq_true, List.all_eq_true] at h
    intro x hx
    obtain ⟨p, hp, hx⟩ := List.mem_flatMap.mp hx
    have hformed := h.2 p hp
    rw [TypedName.isWellFormed, Bool.and_eq_true] at hformed
    rcases List.mem_cons.mp hx with rfl | hx
    · exact known_name hformed.1
    · rw [List.mem_singleton.mp hx]
      exact hformed.2

theorem known_ofType {t : TypeExpr} (h : t.isWellFormed = true) :
    ∀ x ∈ ofType t, x.Known := by
  cases t with
  | named name loc => simp [ofType]
  | array element loc => simpa [ofType, Known, TypeExpr.isWellFormed] using h
  | map key value loc => simpa [ofType, Known, TypeExpr.isWellFormed] using h

/-! ### Statements -/

theorem known_attempt {t : Attempt} (h : Node.attemptIsWellFormed t = true) {n : Node}
    (hn : n.Sound)
    (hparts : ∀ b, n.parts b = Node.inTurn b (.block t.body :: t.handler.toList.map .block)) :
    (attempt t).Known := by
  have hnodes := hn.inTurn _ hparts
  refine ⟨h, hnodes _ List.mem_cons_self, fun b hb => hnodes _ (List.mem_cons_of_mem _ ?_)⟩
  exact List.mem_map_of_mem (Option.mem_toList.mpr hb)

theorem known_binding {id : Name} {type? : Option TypeExpr} {value : Expr}
    (h : (id.isIdentifier && type?.all TypeExpr.isWellFormed) = true)
    (hvalue : Sound (.expr value)) :
    ∀ x ∈ name id :: type?.toList.map type ++ [expr value], x.Known := by
  rw [Bool.and_eq_true] at h
  intro x hx
  rcases List.mem_append.mp hx with hx | hx
  · rcases List.mem_cons.mp hx with rfl | hx
    · exact known_name h.1
    · obtain ⟨t, ht, rfl⟩ := List.mem_map.mp hx
      rw [Option.mem_toList.mp ht] at h
      exact h.2
  · rw [List.mem_singleton.mp hx]
    exact hvalue

theorem known_ofStmt {st : Stmt} (h : Sound (.stmt st)) : ∀ x ∈ ofStmt st, x.Known := by
  obtain ⟨b, hb⟩ := id h
  have hhere : Node.stmtIsWellFormed st = true := hb.here
  cases st with
  | bind constant id type? value loc =>
    have hvalue := h.inTurn [Node.ofValue value] fun _ => rfl
    exact known_binding hhere (hvalue _ List.mem_cons_self).of_value
  | ret value loc =>
    simpa [ofStmt] using known_nodes h (value.toList.map .expr) fun _ => rfl
  | includes modules grouped loc => simp [ofStmt]
  | attempt t =>
    intro x hx
    rw [List.mem_singleton.mp hx]
    exact known_attempt hhere h fun _ => rfl
  | struct id fields loc =>
    rw [Node.stmtIsWellFormed, Bool.and_eq_true] at hhere
    intro x hx
    rcases List.mem_cons.mp hx with rfl | hx
    · exact known_name hhere.1
    · exact known_names hhere.2 x hx
  | enum id variants loc =>
    rw [Node.stmtIsWellFormed, Bool.and_eq_true, List.all_eq_true] at hhere
    intro x hx
    rcases List.mem_cons.mp hx with rfl | hx
    · exact known_name hhere.1
    · obtain ⟨v, hv, rfl⟩ := List.mem_map.mp hx
      have hvariant := hhere.2 v hv
      rw [VariantDecl.isWellFormed, Bool.and_eq_true] at hvariant
      exact known_name hvariant.1
  | method struct f loc =>
    rw [Node.stmtIsWellFormed, Bool.and_eq_true] at hhere
    intro x hx
    rcases List.mem_cons.mp hx with rfl | hx
    · exact known_name hhere.1
    · exact known_nodes h [.function f] (fun _ => rfl) x hx
  | brk | cont => simp [ofStmt]
  | expr e loc => exact known_nodes h [.expr e] fun _ => rfl

/-! ### Expressions -/

/-- What stands in front of a counting loop is no node, but what it consists of is
known. -/
theorem known_start {start : Stmt} {condition update : Option Expr}
    (hheader : Node.headerIsWellFormed (.counting (some start) condition update) = true)
    (hnodes : ∀ n ∈ Node.ofHeader (.counting (some start) condition update), n.Sound) :
    (stmt start).Known := by
  cases start with
  | bind constant id type? value loc =>
    have hvalue := hnodes (.expr value) (by simp [Node.ofHeader])
    exact hvalue.value.around (fun _ => hheader) fun _ => rfl
  | expr e loc =>
    have hexpr := hnodes (.expr e) (by simp [Node.ofHeader])
    exact hexpr.around (fun _ => rfl) fun _ => rfl
  | _ => cases hheader

theorem known_header {header : LoopHeader}
    (hheader : Node.headerIsWellFormed header = true)
    (hnodes : ∀ n ∈ Node.ofHeader header, n.Sound) : ∀ x ∈ header.sites, x.Known := by
  cases header with
  | items item iterable =>
    have hiterable := hnodes _ List.mem_cons_self
    simp only [LoopHeader.sites, List.mem_cons, List.not_mem_nil, or_false,
      forall_eq_or_imp, forall_eq]
    exact ⟨known_name hheader, hiterable⟩
  | pairs index value iterable =>
    have hiterable := hnodes _ List.mem_cons_self
    rw [Node.headerIsWellFormed, Bool.and_eq_true] at hheader
    simp only [LoopHeader.sites, List.mem_cons, List.not_mem_nil, or_false,
      forall_eq_or_imp, forall_eq]
    exact ⟨known_name hheader.1, known_name hheader.2, hiterable⟩
  | counting start? condition update =>
    intro x hx
    rcases List.mem_append.mp hx with hx | hx
    · rcases List.mem_append.mp hx with hx | hx
      · obtain ⟨start, hstart, rfl⟩ := List.mem_map.mp hx
        obtain rfl := Option.mem_toList.mp hstart
        exact known_start hheader hnodes
      · obtain ⟨e, he, rfl⟩ := List.mem_map.mp hx
        refine hnodes (.expr e) (List.mem_append_left _ (List.mem_append_right _ ?_))
        exact List.mem_map_of_mem he
    · obtain ⟨e, he, rfl⟩ := List.mem_map.mp hx
      exact hnodes (.expr e) (List.mem_append_right _ (List.mem_map_of_mem he))

theorem known_switch {subject : Expr} {cases : List Case} {default : Option Block}
    {loc : Location} (h : Sound (.expr (.switch subject cases default loc)))
    (hcases : cases.all (!·.values.isEmpty) = true) :
    ∀ x ∈ ofExpr (.switch subject cases default loc), x.Known := by
  have hvalue : ∀ c ∈ cases, ∀ e ∈ c.values, Sound (.expr e) := by
    intro c hc e he
    apply h.part
    intro b
    obtain ⟨b', hb'⟩ := Node.exists_mem_inTurn (b := true) (List.mem_map_of_mem he)
    refine ⟨b', List.mem_append_left _ (List.mem_cons_of_mem _ ?_)⟩
    exact List.mem_flatMap.mpr ⟨c, hc, List.mem_append_left _ hb'⟩
  have hbody : ∀ c ∈ cases, Sound (.block c.body) := by
    intro c hc
    apply h.part
    intro b
    refine ⟨false, List.mem_append_left _ (List.mem_cons_of_mem _ ?_)⟩
    exact List.mem_flatMap.mpr ⟨c, hc, List.mem_append_right _ (List.mem_singleton_self _)⟩
  intro x hx
  rcases List.mem_append.mp hx with hx | hx
  · rcases List.mem_cons.mp hx with rfl | hx
    · exact h.part fun b => ⟨b, List.mem_cons_self⟩
    · obtain ⟨c, hc, rfl⟩ := List.mem_map.mp hx
      have hne : c.values ≠ [] := by simpa using List.all_eq_true.mp hcases c hc
      exact ⟨hne, hvalue c hc, hbody c hc⟩
  · obtain ⟨b, hb, rfl⟩ := List.mem_map.mp hx
    exact h.part fun _ => ⟨_, List.mem_append_right _ (List.mem_map_of_mem hb)⟩

theorem known_ofExpr {e : Expr} (h : Sound (.expr e)) : ∀ x ∈ ofExpr e, x.Known := by
  obtain ⟨b, hb⟩ := id h
  have hhere : Node.exprIsWellFormed e = true := hb.here
  cases e with
  | name id =>
    intro x hx
    rw [List.mem_singleton.mp hx]
    exact hhere
  | int | float | str | bool => simp [ofExpr]
  | unary op right loc => exact known_nodes h [.expr right] fun _ => rfl
  | binary left op right loc => exact known_nodes h [.expr left, .expr right] fun _ => rfl
  | step op target loc => exact known_nodes h [.expr target] fun _ => rfl
  | assign target op value loc =>
    exact known_nodes h [.expr target, .expr value] fun _ => rfl
  | branch condition consequence alternative loc =>
    simpa [ofExpr] using known_nodes h (.expr condition :: .block consequence ::
      alternative.toList.map .block) fun _ => rfl
  | function f => exact known_nodes h [.function f] fun _ => rfl
  | arrow params body loc =>
    have hparams := Node.isTerm_of_arrowIsWellFormed hhere
    intro x hx
    rcases List.mem_append.mp hx with hx | hx
    · obtain ⟨id, hid, rfl⟩ := List.mem_map.mp hx
      exact hparams id hid
    · exact known_nodes h [.expr body] (fun _ => rfl) x hx
  | call callee args loc =>
    simpa [ofExpr] using known_nodes h (.expr callee :: args.map .expr) fun _ => rfl
  | array elements loc =>
    simpa [ofExpr] using known_nodes h (elements.map .expr) fun _ => rfl
  | index left index loc => exact known_nodes h [.expr left, .expr index] fun _ => rfl
  | slice left start stop loc =>
    have hnodes := known_nodes h
      (.expr left :: start.toList.map .expr ++ stop.toList.map .expr) fun _ => rfl
    rw [List.map_append, List.map_cons, List.map_map, List.map_map] at hnodes
    exact hnodes
  | spread value loc => exact known_nodes h [.expr value] fun _ => rfl
  | map entries loc =>
    simpa [ofExpr, List.map_flatMap] using known_nodes h
      (entries.flatMap fun e => [.expr e.key, .expr e.value]) fun _ => rfl
  | member object property loc =>
    intro x hx
    rcases List.mem_cons.mp hx with rfl | hx
    · exact known_nodes h [.expr object] (fun _ => rfl) _ List.mem_cons_self
    · rw [List.mem_singleton.mp hx]
      exact hhere
  | record struct fields loc =>
    have hvalues := h.inTurn (fields.map fun f => .expr f.value) fun _ => rfl
    rw [Node.exprIsWellFormed, Bool.and_eq_true, List.all_eq_true] at hhere
    intro x hx
    rcases List.mem_cons.mp hx with rfl | hx
    · exact known_name hhere.1
    · obtain ⟨f, hf, hx⟩ := List.mem_flatMap.mp hx
      rcases List.mem_cons.mp hx with rfl | hx
      · exact known_name (hhere.2 f hf)
      · rw [List.mem_singleton.mp hx]
        exact hvalues _ (List.mem_map_of_mem hf)
  | whileLoop condition body loc =>
    exact known_nodes h [.expr condition, .block body] fun _ => rfl
  | forLoop header body loc =>
    have hnodes := h.inTurn (Node.ofHeader header ++ [Node.block body]) fun _ => rfl
    intro x hx
    rcases List.mem_append.mp hx with hx | hx
    · exact known_header hhere (fun n hn => hnodes n (List.mem_append_left _ hn)) x hx
    · rw [List.mem_singleton.mp hx]
      exact hnodes _ (List.mem_append_right _ (List.mem_singleton_self _))
  | switch subject cases default loc => exact known_switch h hhere
  | ternary condition consequence alternative loc =>
    exact known_nodes h [.expr condition, .expr consequence, .expr alternative] fun _ => rfl
  | range start stop loc => exact known_nodes h [.expr start, .expr stop] fun _ => rfl
  | attempt t =>
    intro x hx
    rw [List.mem_singleton.mp hx]
    exact known_attempt hhere h fun _ => rfl

/-- What is known of a site is known of everything right inside it. -/
theorem Known.parts {x : Site} (h : x.Known) : ∀ y ∈ x.parts, y.Known := by
  cases x with
  | program p =>
    intro y hy
    obtain ⟨st, hst, rfl⟩ := List.mem_map.mp hy
    exact h st hst
  | stmt st => exact known_ofStmt h
  | block b =>
    have hnodes := Sound.inTurn h (b.statements.map .stmt) fun _ => rfl
    intro y hy
    obtain ⟨st, hst, rfl⟩ := List.mem_map.mp hy
    exact hnodes _ (List.mem_map_of_mem hst)
  | expr e => exact known_ofExpr h
  | case c =>
    intro y hy
    rcases List.mem_append.mp hy with hy | hy
    · obtain ⟨e, he, rfl⟩ := List.mem_map.mp hy
      exact h.2.1 e he
    · rw [List.mem_singleton.mp hy]
      exact h.2.2
  | function f =>
    obtain ⟨b, hb⟩ := id h
    obtain ⟨hparams, hreturns⟩ := hb.here
    intro y hy
    rcases List.mem_append.mp hy with hy | hy
    · rcases List.mem_append.mp hy with hy | hy
      · exact known_params hparams y hy
      · obtain ⟨t, ht, rfl⟩ := List.mem_map.mp hy
        exact List.all_eq_true.mp hreturns t ht
    · rw [List.mem_singleton.mp hy]
      exact Sound.inTurn h [.block f.body] (fun _ => rfl) _ List.mem_cons_self
  | attempt t =>
    obtain ⟨hhere, hbody, hhandler⟩ := h
    rw [Node.attemptIsWellFormed, Bool.and_eq_true] at hhere
    intro y hy
    rcases List.mem_append.mp hy with hy | hy
    · rcases List.mem_cons.mp hy with rfl | hy
      · exact hbody
      · obtain ⟨id, hid, rfl⟩ := List.mem_map.mp hy
        rw [Option.mem_toList.mp hid] at hhere
        exact known_name hhere.1
    · obtain ⟨b, hb, rfl⟩ := List.mem_map.mp hy
      exact hhandler b (Option.mem_toList.mp hb)
  | name id => simp [Site.parts]
  | type t => exact known_ofType h

/-! ### The shape of a known site -/

variable {tokens : List Token}

theorem shaped_type {t : TypeExpr} (h : t.isWellFormed = true) : t.Shaped := by
  cases t with
  | named name loc => exact ⟨Syntax.writtenName_of_isTerm h, Or.inl ⟨rfl, rfl⟩⟩
  | array element loc =>
    have harray : Syntax.isTerm "array" = true := by decide +kernel
    exact ⟨Syntax.writtenName_of_isTerm harray, Or.inr (Or.inl ⟨rfl, rfl, rfl⟩)⟩
  | map key value loc =>
    have hmap : Syntax.isTerm "map" = true := by decide +kernel
    exact ⟨Syntax.writtenName_of_isTerm hmap, Or.inr (Or.inr ⟨rfl, rfl, rfl⟩)⟩

theorem shaped_function {f : Function} (h : (function f).Marked tokens) :
    f.Shaped tokens := by
  have htyped : f.params.typed?.isSome = true ↔ ∃ params, f.params = .typed params := by
    cases f.params <;> simp [Params.typed?]
  refine ⟨?_, htyped.trans h⟩
  cases f.params <;> simp [Params.typed?, Params.names]

theorem shaped_expr {e : Expr} (h : Sound (.expr e)) : e.Shaped := by
  obtain ⟨b, hb⟩ := h
  have hhere : Node.exprIsWellFormed e = true := hb.here
  unfold Expr.Shaped
  split
  · exact of_decide_eq_true hhere
  · exact Syntax.writtenDecimal_of_isDecimal hhere
  · next start condition update body loc =>
    cases start with
    | bind | expr => trivial
    | _ => cases hhere
  · trivial

theorem shaped_stmt {st : Stmt} (h : Sound (.stmt st)) : st.Shaped := by
  obtain ⟨b, hb⟩ := h
  have hhere : Node.stmtIsWellFormed st = true := hb.here
  unfold Stmt.Shaped
  split
  · next modules grouped loc =>
    rw [Node.stmtIsWellFormed, Bool.and_eq_true, Bool.or_eq_true, beq_iff_eq] at hhere
    refine ⟨by simpa using hhere.1, fun hgrouped => ?_⟩
    rw [hgrouped] at hhere
    exact hhere.2.resolve_left Bool.false_ne_true
  · next struct f loc =>
    rw [Node.stmtIsWellFormed, Bool.and_eq_true, Option.any_eq_true] at hhere
    obtain ⟨name, hname, -⟩ := hhere.2
    rw [hname]
    rfl
  · trivial

theorem Known.shaped {x : Site} (h : x.Known) (hmarked : x.Marked tokens) :
    x.Shaped tokens := by
  cases x with
  | program | block => trivial
  | stmt st => exact shaped_stmt h
  | expr e => exact shaped_expr h
  | case c => exact h.1
  | function f => exact shaped_function hmarked
  | attempt t =>
    have hhere := h.1
    rw [Node.attemptIsWellFormed, Bool.and_eq_true, Bool.or_eq_true] at hhere
    intro hparam
    rcases hhere.2 with hhandler | hnone
    · exact hhandler
    · rw [Option.isNone_iff_eq_none.mp hnone] at hparam
      cases hparam
  | name id => exact Syntax.writtenName_of_isTerm h
  | type t => exact shaped_type h

end Site

/-! ### Accepted texts -/

theorem known_of_parse {file source : String} {p : Program}
    (h : parse file source = .ok p) : (Site.program p).Known := by
  intro st hst
  obtain ⟨b, hb⟩ := Node.exists_mem_inTurn (b := false) (List.mem_map_of_mem hst)
  exact ⟨b, wellFormed_of_parse h b _ hb⟩

/-- Every accepted tree is well formed: each of its sites has the shape that is relied
on. -/
theorem accepted_shaped {file source : String} {p : Program}
    (h : parse file source = .ok p) :
    Site.Every (Site.Shaped (tokenize source)) (.program p) := by
  have hlaid := Parser.laid_of_parse h
  have hknown := hlaid.along (known_of_parse h) fun x hx => hx.parts
  exact hknown.mono fun x hx => hx.2.shaped hx.1.2

/-- A method with a parameter of a type and one of none, and a handler for errors. -/
def methodAndHandler : String :=
  "define P.f(a: []int, b) \x7b a + 2.5; \x7d try \x7b \x7d catch (e) \x7b \x7d"

theorem accepted_shaped_methodAndHandler : ∃ p, parse "" methodAndHandler = .ok p ∧
    p.statements.length = 2 ∧
    Site.Every (Site.Shaped (tokenize methodAndHandler)) (.program p) := by
  have hchecks : (match parse "" methodAndHandler with
      | .ok p => p.statements.length == 2
      | .error _ => false) = true := by
    decide +kernel
  split at hchecks
  · next p hparse => exact ⟨p, hparse, by simpa using hchecks, accepted_shaped hparse⟩
  · cases hchecks

end Script
