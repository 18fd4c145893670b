import Script.Proofs.Number.Integers
import Script.Proofs.Syntax.Expressions

/-!
# Reading operands

Literals, names, maps and struct instantiations.
-/

namespace Script

open Lexeme (sign word listed further)
open Node (inCaseAfter)
open Script.Parser

variable {n : Nat} {s : State} {b : Bool} {x : Lexeme} {r : List Lexeme}
  {loc : Location}

/-! ### Literals -/

/-- The text that an integer is printed as is read as that integer. -/
theorem Parser.runs_integerHere {value : Int64}
    (htext : s.current.text = toString value) :
    Runs integerHere s fun value' s' => value' = value ∧ s' = s := by
  unfold integerHere
  rw [runs_current_bind, htext, Numeral.int64?_toString]
  exact runs_pure_iff.mpr ⟨rfl, rfl⟩

theorem Expr.reads_int {value : Int64} : (Expr.int value loc).Reads b := by
  refine reads_of_operandHere (opens_of_kind rfl (by simp)) ?_
  intro n s x r _ hs _
  simp only [Expr.lexemes, List.cons_append, List.nil_append] at hs ⊢
  rw [Node.inCaseAfter_cons (by simp), Node.inCaseAfter_nil]
  have hcurrent : s.current.kind = .int := hs.current_kind
  have htext : s.current.text = toString value := hs.current_text
  unfold Grammar.operandHere
  rw [runs_current_bind, runs_here_bind, hcurrent]
  change Runs (integerHere >>= fun value => Pure.pure (Expr.int value _)) _ _
  refine Runs.bind (runs_integerHere htext) ?_
  rintro value' s' ⟨rfl, rfl⟩
  rw [runs_pure_iff]
  exact ⟨rfl, hs.faces⟩

/-- A decimal as its digits. -/
theorem Syntax.exists_of_isDecimal {text : String} (h : isDecimal text = true) :
    ∃ whole fraction, text.toList = whole ++ '.' :: fraction ∧
      whole.all Cursor.isDigit = true ∧ fraction.all Cursor.isDigit = true ∧
      fraction ≠ [] := by
  unfold isDecimal at h
  split at h
  · next fraction hdrop =>
    rw [Bool.and_eq_true, Bool.not_eq_true', List.isEmpty_eq_false_iff] at h
    refine ⟨text.toList.takeWhile Cursor.isDigit, fraction, ?_, ?_, h.2, h.1⟩
    · rw [← hdrop, List.takeWhile_append_dropWhile]
    · exact List.all_takeWhile
  · cases h

/-- A decimal has digits on both sides, so it is one token. -/
theorem Expr.reads_float {literal : String}
    (hliteral : Syntax.isDecimal literal = true) :
    (Expr.float literal loc).Reads b := by
  refine reads_of_operandHere (opens_of_kind rfl (by simp)) ?_
  intro n s x r _ hs _
  simp only [Expr.lexemes, List.cons_append, List.nil_append] at hs ⊢
  rw [Node.inCaseAfter_cons (by simp), Node.inCaseAfter_nil]
  have hcurrent : s.current.kind = .float := hs.current_kind
  have htext : s.current.text = literal := hs.current_text
  obtain ⟨whole, fraction, hlist, hwhole, hfraction, hne⟩ :=
    Syntax.exists_of_isDecimal hliteral
  have hsome : (Numeral.float? literal.toList).isSome = true := by
    rw [hlist]
    exact Numeral.isSome_float? hwhole hfraction hne
  unfold Grammar.operandHere
  rw [runs_current_bind, runs_here_bind, hcurrent]
  change Runs floatHere _ _
  unfold floatHere
  rw [runs_current_bind, runs_here_bind, htext, if_pos hsome, runs_pure_iff]
  exact ⟨rfl, hs.faces⟩

theorem Expr.reads_str {value : String} : (Expr.str value loc).Reads b := by
  refine reads_of_operandHere (opens_of_kind rfl (by simp)) ?_
  intro n s x r _ hs _
  simp only [Expr.lexemes, List.cons_append, List.nil_append] at hs ⊢
  rw [Node.inCaseAfter_cons (by simp), Node.inCaseAfter_nil]
  have hcurrent : s.current.kind = .str := hs.current_kind
  have htext : s.current.text = value := hs.current_text
  unfold Grammar.operandHere
  rw [runs_current_bind, runs_here_bind, hcurrent, htext]
  exact runs_pure_iff.mpr ⟨rfl, hs.faces⟩

theorem Expr.reads_bool {value : Bool} : (Expr.bool value loc).Reads b := by
  refine reads_of_operandHere
    (opens_of_kind (by cases value <;> rfl) (by cases value <;> simp)) ?_
  intro n s x r _ hs _
  simp only [Expr.lexemes, List.cons_append, List.nil_append] at hs ⊢
  rw [Node.inCaseAfter_sign (by cases value <;> simp), Node.inCaseAfter_nil]
  unfold Grammar.operandHere
  rw [runs_current_bind, runs_here_bind, hs.current_sign]
  cases value <;> exact runs_pure_iff.mpr ⟨rfl, hs.faces⟩

/-! ### Names -/

theorem Parser.runs_operandHere_type {g : Grammar} {R : Expr → State → Prop}
    (htype : s.current.kind.isType = true) :
    Runs g.operandHere s R ↔
      R (.name { text := s.current.text, loc := locationOf s s.current }) s := by
  unfold Grammar.operandHere
  rw [runs_current_bind, runs_here_bind]
  generalize hkind : s.current.kind = kind at htype ⊢
  cases kind <;> first
    | exact runs_pure_iff
    | cases htype

/-- A name may be that of a type, which has a token kind of its own. -/
theorem Expr.reads_name {id : Name} (hterm : Syntax.isTerm id.text = true) :
    (Expr.name id).Reads b := by
  have hkind := Syntax.kind_word_of_isTerm hterm
  refine reads_of_operandHere ?_ ?_
  · refine ⟨id.lexeme, [], rfl, ?_, fun _ l' hl' => by simp at hl'⟩
    rcases hkind with hident | htype
    · rw [Name.lexeme, hident]
      rfl
    · change id.lexeme.kind.isType = true at htype
      generalize id.lexeme.kind = kind at htype ⊢
      cases kind <;> first
        | rfl
        | cases htype
  · intro n s x r hn hs hfollows
    simp only [Expr.lexemes, List.cons_append, List.nil_append] at hs ⊢
    rw [Node.inCaseAfter_cons (l := id.lexeme)
      (Syntax.kind_word_ne hterm (by simp) rfl), Node.inCaseAfter_nil]
    have hbare : ∀ loc, (Expr.name { text := s.current.text, loc }).bare =
        (Expr.name id).bare := by
      intro loc
      rw [Expr.bare, Expr.bare, Name.bare_mk hs.current_text]
    rcases hkind with hident | htype
    · have hcurrent : s.current.kind = .ident := hs.current_kind.trans hident
      -- A brace may follow only inside the values of a `case`.
      have hplain : ((!(s.next.kind == .lbrace)) || s.inCase) = true := by
        rw [hs.next_kind, hs.inCase]
        by_cases hbrace : x.kind = .lbrace
        · rw [hfollows.name (by
            unfold Expr.endsInName Name.isIdentifier
            unfold Syntax.isTerm at hterm
            rw [Bool.or_eq_true] at hterm
            refine hterm.resolve_right fun htype => ?_
            have := Syntax.isType_word_of_isTypeWord htype
            rw [hident] at this
            cases this) hbrace]
          simp
        · simp [hbrace]
      unfold Grammar.operandHere
      rw [runs_current_bind, runs_here_bind, hcurrent]
      change Runs (grammar n).nameOrRecord _ _
      unfold Grammar.nameOrRecord
      rw [runs_nameHere_bind, runs_nextIs_bind, runs_insideCase_bind,
        if_pos hplain, runs_pure_iff]
      exact ⟨hbare _, hs.faces⟩
    · rw [runs_operandHere_type (by rw [hs.current_kind]; exact htype)]
      exact ⟨hbare _, hs.faces⟩

/-! ### Maps -/

/-- Entries that are read one after another. -/
def Entry.ReadsAll : Bool → List Entry → Prop
  | _, [] => True
  | b, e :: es =>
    e.key.Reads b ∧ e.value.Reads (inCaseAfter b e.key.lexemes) ∧
      ReadsAll (inCaseAfter b e.lexemes) es

theorem Entry.lexemes_eq (e : Entry) :
    e.lexemes = e.key.lexemes ++ sign .colon :: e.value.lexemes := by
  cases e
  rfl

/-- Behind the key there is a colon, which binds nothing. -/
theorem Entry.readsItem {e : Entry} (hkey : e.key.Reads b)
    (hvalue : e.value.Reads (inCaseAfter b e.key.lexemes))
    (hn : 2 * e.lexemes.length ≤ n) (hx : x.kind.endsOperand = true)
    (hlevel : (Precedence.ofKind x.kind).level = 0) :
    ReadsItem (grammar n).entry Entry.bare e.lexemes e.bare x b := by
  intro s r hs
  rw [lexemes_eq] at hn hs ⊢
  simp only [List.length_append, List.length_cons] at hn
  rw [List.append_assoc, List.cons_append] at hs
  unfold Grammar.entry
  refine Runs.bind (hkey.operand (by omega) (Expr.follows_of_endsOperand rfl)
    rfl s _ hs) ?_
  rintro key' s' ⟨hkey', hfaces⟩
  rw [runs_expect_bind hfaces.next_sign]
  refine Runs.bind (hvalue.operand (by omega) (Expr.follows_of_endsOperand hx)
    hlevel _ _ (hfaces.step (by simp))) ?_
  rintro value' s'' ⟨hvalue', hfaces'⟩
  rw [runs_pure_iff]
  refine ⟨?_, by simpa using hfaces'⟩
  cases e
  simp [Entry.bare, hkey', hvalue']

/-- The flag of the values of a case is handed on from entry to entry. -/
theorem Entry.ReadsAll.each {es : List Entry} (h : ReadsAll b es)
    (hn : ∀ e ∈ es, 2 * e.lexemes.length ≤ n) :
    ReadsEach (grammar n).entry Entry.bare Entry.lexemes Entry.bare
      (sign .rbrace) b es := by
  induction es generalizing b with
  | nil => trivial
  | cons e es ih =>
    obtain ⟨hkey, hvalue, hrest⟩ := h
    have hne := hn e List.mem_cons_self
    cases es with
    | nil => exact Entry.readsItem hkey hvalue hne rfl rfl
    | cons e' es =>
      exact ⟨Entry.readsItem hkey hvalue hne rfl rfl,
        ih hrest fun d hd => hn d (List.mem_cons_of_mem e hd)⟩

theorem Entry.ReadsAll.first_ne {es : List Entry} (h : ReadsAll b es) :
    ∀ e ∈ es, ∃ l ls, e.lexemes = l :: ls ∧ l.kind ≠ .rbrace := by
  induction es generalizing b with
  | nil => simp
  | cons e es ih =>
    obtain ⟨hkey, -, hrest⟩ := h
    intro e' he'
    rcases List.mem_cons.mp he' with rfl | hmem
    · obtain ⟨l, ls, hl, hkind⟩ := hkey.opens.first_ne .rbrace rfl
      exact ⟨l, _, by rw [lexemes_eq, hl, List.cons_append], hkind⟩
    · exact ih hrest e' hmem

theorem entriesLexemes_eq_map (es : List Entry) :
    entriesLexemes es = es.map Entry.lexemes := by
  induction es with
  | nil => rfl
  | cons e es ih => rw [entriesLexemes, ih, List.map_cons]

/-- The braces of a map are read as such since an operand is expected. -/
theorem Expr.reads_map {entries : List Entry}
    (hentries : Entry.ReadsAll b entries) :
    (Expr.map entries loc).Reads b := by
  refine reads_of_operandHere (opens_of_kind rfl (by simp)) ?_
  intro n s x r hn hs _
  simp only [Expr.lexemes, entriesLexemes_eq_map, List.append_assoc,
    List.cons_append, List.nil_append, List.length_append, List.length_cons,
    List.length_nil] at hn hs ⊢
  have heach := hentries.each (n := n) fun e he => by
    have hlength : e.lexemes.length ≤
        (listed (entries.map Entry.lexemes)).length :=
      Lexeme.length_le_listed (List.mem_map_of_mem he)
    omega
  unfold Grammar.operandHere
  rw [runs_current_bind, runs_here_bind, hs.current_sign]
  change Runs (grammar n).mapHere _ _
  unfold Grammar.mapHere
  rw [runs_here_bind]
  refine Runs.bind (runs_braceList hentries.first_ne heach hs.faces) ?_
  rintro entries' s' ⟨hentries', hfaces⟩
  rw [runs_spanFrom_bind, runs_pure_iff]
  exact ⟨by simp [Expr.bare, bareEntries_eq_map, hentries'],
    by simpa using hfaces⟩

/-! ### Struct instantiations -/

/-- Fields that are read one after another. -/
def Field.ReadsAll : Bool → List Field → Prop
  | _, [] => True
  | b, f :: fs =>
    f.value.Reads b ∧ ReadsAll (inCaseAfter b f.value.lexemes) fs

theorem Field.lexemes_eq (f : Field) :
    f.lexemes = f.name.lexeme :: sign .colon :: f.value.lexemes := by
  cases f
  rfl

/-- The name and the colon of a field leave the flag alone. -/
theorem Field.inCaseAfter_lexemes {f : Field}
    (hname : f.name.isIdentifier = true) :
    inCaseAfter b f.lexemes = inCaseAfter b f.value.lexemes := by
  rw [lexemes_eq, Node.inCaseAfter_cons (by rw [Name.kind_lexeme hname]; simp),
    Node.inCaseAfter_sign (by simp)]

/-- A field is read by its name, the colon and the value. -/
theorem Field.readsItem {f : Field} (hname : f.name.isIdentifier = true)
    (hvalue : f.value.Reads b) (hn : 2 * f.lexemes.length ≤ n)
    (hx : x.kind.endsOperand = true)
    (hlevel : (Precedence.ofKind x.kind).level = 0) :
    ReadsItem (grammar n).field Field.bare f.lexemes f.bare x b := by
  intro s r hs
  rw [inCaseAfter_lexemes hname]
  rw [lexemes_eq] at hn hs
  simp only [List.length_cons, List.cons_append] at hn hs
  have hident := hs.advanced (by simp)
  have hcolon := hident.faces
  unfold Grammar.field
  rw [runs_expect_bind (by rw [hs.next_kind, Name.kind_lexeme hname]),
    runs_nameHere_bind, runs_expect_bind hcolon.next_sign]
  refine Runs.bind (hvalue.operand (by omega) (Expr.follows_of_endsOperand hx)
    hlevel _ _ (hcolon.step (by simp))) ?_
  rintro value' s' ⟨hvalue', hfaces⟩
  rw [runs_pure_iff]
  refine ⟨?_, hfaces⟩
  cases f
  simp [Field.bare, hvalue', Name.bare_mk hident.current_text]

theorem Field.ReadsAll.each {fs : List Field} (h : ReadsAll b fs)
    (hnames : fs.all (·.name.isIdentifier) = true)
    (hn : ∀ f ∈ fs, 2 * f.lexemes.length ≤ n) :
    ReadsEach (grammar n).field Field.bare Field.lexemes Field.bare
      (sign .rbrace) b fs := by
  induction fs generalizing b with
  | nil => trivial
  | cons f fs ih =>
    obtain ⟨hvalue, hrest⟩ := h
    rw [List.all_cons, Bool.and_eq_true] at hnames
    have hnf := hn f List.mem_cons_self
    rw [← Field.inCaseAfter_lexemes hnames.1] at hrest
    cases fs with
    | nil => exact Field.readsItem hnames.1 hvalue hnf rfl rfl
    | cons f' fs =>
      exact ⟨Field.readsItem hnames.1 hvalue hnf rfl rfl,
        ih hrest hnames.2 fun d hd => hn d (List.mem_cons_of_mem f hd)⟩

theorem fieldsLexemes_eq_map (fs : List Field) :
    fieldsLexemes fs = fs.map Field.lexemes := by
  induction fs with
  | nil => rfl
  | cons f fs ih => rw [fieldsLexemes, ih, List.map_cons]

/-- Inside of the values of a case the brace would open the body, hence the `false`. -/
theorem Expr.reads_record {struct : Name} {fields : List Field}
    (hstruct : struct.isIdentifier = true)
    (hnames : fields.all (·.name.isIdentifier) = true)
    (hfields : Field.ReadsAll false fields) :
    (Expr.record struct fields loc).Reads false := by
  have hident := Name.kind_lexeme hstruct
  refine reads_of_operandHere ?_ ?_
  · refine ⟨struct.lexeme, sign .lbrace :: (listed (fieldsLexemes fields) ++
      [sign .rbrace]), rfl, by rw [hident]; rfl, fun _ l' hl' => ?_⟩
    rw [List.head?_cons, Option.mem_some_iff] at hl'
    rw [← hl']
    simp
  · intro n s x r hn hs _
    simp only [Expr.lexemes, fieldsLexemes_eq_map, List.append_assoc,
      List.cons_append, List.nil_append, List.length_append, List.length_cons,
      List.length_nil] at hn hs ⊢
    have hcurrent : s.current.kind = .ident := hs.current_kind.trans hident
    have hbrace : s.next.kind = .lbrace := hs.next_kind
    have heach := hfields.each (n := n) hnames fun f hf => by
      have hlength : f.lexemes.length ≤
          (listed (fields.map Field.lexemes)).length :=
        Lexeme.length_le_listed (List.mem_map_of_mem hf)
      omega
    have hstart : ∀ f ∈ fields, ∃ l ls, f.lexemes = l :: ls ∧
        l.kind ≠ .rbrace := by
      intro f hf
      refine ⟨_, _, Field.lexemes_eq f, ?_⟩
      rw [Name.kind_lexeme (List.all_eq_true.mp hnames f hf)]
      simp
    unfold Grammar.operandHere
    rw [runs_current_bind, runs_here_bind, hcurrent]
    change Runs (grammar n).nameOrRecord _ _
    unfold Grammar.nameOrRecord
    rw [runs_nameHere_bind, runs_nextIs_bind, runs_insideCase_bind, hbrace,
      hs.inCase, if_neg (by decide), runs_advance_bind]
    refine Runs.bind (runs_braceList hstart heach
      (hs.faces.step (by simp))) ?_
    rintro fields' s' ⟨hfields', hfaces⟩
    rw [runs_spanFrom_bind, runs_pure_iff,
      Node.inCaseAfter_cons (by rw [hident]; simp)]
    refine ⟨?_, by simpa using hfaces⟩
    simp [Expr.bare, bareFields_eq_map, hfields',
      Name.bare_mk hs.current_text]

end Script
