import Script.Proofs.Token.Lexing

/-!
# What the text of a token looks like

The kind of a token says something about its text, if the token comes from a
source: names are names, and numbers have the shape of numbers.
-/

namespace Script

open Cursor (isDigit startsName continuesName)
open Syntax (isIdentifier isDecimal)

/-- What the parser relies on when it takes over the text of a token. -/
structure Token.Proper (t : Token) : Prop where
  ident : t.kind = .ident → isIdentifier t.text = true
  type : t.kind.isType = true → Token.Kind.ofWord? t.text = some t.kind
  int : t.kind = .int → t.text.toList ≠ [] ∧ t.text.toList.all isDigit = true
  float : t.kind = .float → isDecimal t.text = true

theorem Token.Proper.isTypeWord {t : Token} (h : t.Proper) (htype : t.kind.isType = true) :
    Syntax.isTypeWord t.text = true := by
  unfold Syntax.isTypeWord
  rw [h.type htype]
  exact htype

/-- The name of a type is written as its kind is. -/
theorem Token.Proper.typeText {t : Token} (h : t.Proper) (htype : t.kind.isType = true) :
    t.text = t.kind.text := by
  have hall : ∀ p ∈ Token.Kind.reserved, p.2.isType = true → p.1 = p.2.text := by decide
  exact hall _ (Cursor.mem_reserved_of_ofWord? (h.type htype)) htype

/-- The kinds of token whose text does not matter. -/
def Token.Kind.isPlain (kind : Token.Kind) : Bool :=
  kind ≠ .ident && !kind.isType && kind ≠ .int && kind ≠ .float

/-- Nothing is asked of the text of a sign or of the end of input. -/
theorem Token.proper_of_isPlain {t : Token} (h : t.kind.isPlain = true) :
    t.Proper := by
  unfold Kind.isPlain at h
  simp only [Bool.and_eq_true, decide_eq_true_eq, Bool.not_eq_true'] at h
  obtain ⟨⟨⟨hident, htype⟩, hint⟩, hfloat⟩ := h
  exact ⟨fun hkind => absurd hkind hident,
    fun hkind => absurd (htype.symm.trans hkind) Bool.false_ne_true,
    fun hkind => absurd hkind hint, fun hkind => absurd hkind hfloat⟩

namespace Cursor

variable {cursor : Cursor} {c d : Char} {rest : List Char}

/-- Signs of two characters are plain, and so are those of one. -/
theorem isPlain_pairKind? {kind : Token.Kind} (h : pairKind? c d = some kind) :
    kind.isPlain = true := by
  unfold pairKind? at h
  split at h
  all_goals first
    | (obtain rfl := Option.some.inj h
       rfl)
    | cases h

theorem isPlain_singleKind? (c : Char) :
    ((singleKind? c).getD .illegal).isPlain = true := by
  unfold singleKind?
  split <;> rfl

/-! ### Numbers and names -/

/-- Digits, a dot and at least one digit more. -/
theorem isDecimal_of_digits {whole fraction : List Char}
    (hwhole : whole.all isDigit = true)
    (hfraction : fraction.all isDigit = true) (hne : fraction ≠ []) :
    isDecimal (String.ofList (whole ++ '.' :: fraction)) = true := by
  have hpoint : ∀ c ∈ ('.' :: fraction).head?, isDigit c = false := by
    intro c hc
    obtain rfl := Option.some.inj hc
    rfl
  obtain ⟨-, hdrop⟩ := Numeral.takeWhile_append_of_all _ hwhole hpoint
  unfold isDecimal
  rw [String.toList_ofList, hdrop]
  simp [hfraction, hne]

theorem takeWhile_ne_nil_of_digitNext (h : digitNext rest = true) :
    rest.takeWhile isDigit ≠ [] := by
  cases rest with
  | nil => cases h
  | cons c rest =>
    have hc : isDigit c = true := h
    simp [hc]

/-- Several dots are signs, and one in front of a digit begins a number. -/
theorem proper_emitDot (cursor : Cursor) (rest : List Char) :
    (cursor.emitDot rest).1.Proper := by
  unfold emitDot
  split
  · exact Token.proper_of_isPlain rfl
  · exact Token.proper_of_isPlain rfl
  · split
    · next hdigit =>
      refine ⟨nofun, nofun, nofun, fun _ => ?_⟩
      have hnone : ([] : List Char).all isDigit = true := rfl
      have hdecimal := isDecimal_of_digits hnone List.all_takeWhile
        (takeWhile_ne_nil_of_digitNext hdigit)
      exact hdecimal
    · exact Token.proper_of_isPlain rfl

/-- Behind the whole part there may be a dot with digits. -/
theorem proper_emitNumber {whole : List Char} (hne : whole ≠ [])
    (hwhole : whole.all isDigit = true) (cursor : Cursor) (rest : List Char) :
    (cursor.emitNumber whole rest).1.Proper := by
  have hint : ∀ rest, (cursor.emit .int whole rest).1.Proper := by
    intro rest
    refine ⟨by simp [emit], by simp [emit, Token.Kind.isType], fun _ => ?_, by simp [emit]⟩
    simp only [emit, String.toList_ofList]
    exact ⟨hne, hwhole⟩
  unfold emitNumber
  split
  · split
    · next hdigit =>
      refine ⟨by simp [emit], by simp [emit, Token.Kind.isType], by simp [emit],
        fun _ => ?_⟩
      exact isDecimal_of_digits hwhole List.all_takeWhile
        (takeWhile_ne_nil_of_digitNext hdigit)
    · exact hint _
  · exact hint _

/-- No reserved word is a name or a number. -/
theorem kind_of_ofWord? {name : String} {kind : Token.Kind}
    (h : Token.Kind.ofWord? name = some kind) :
    kind ≠ .ident ∧ kind ≠ .int ∧ kind ≠ .float := by
  have hall : ∀ p ∈ Token.Kind.reserved,
      p.2 ≠ .ident ∧ p.2 ≠ .int ∧ p.2 ≠ .float := by
    decide
  exact hall _ (mem_reserved_of_ofWord? h)

/-- A word is reserved or it is a name. -/
theorem proper_emitWord (hc : startsName c = true) (cursor : Cursor)
    (rest : List Char) :
    (cursor.emitWord (c :: rest.takeWhile continuesName)
      (rest.dropWhile continuesName)).1.Proper := by
  generalize hcs : rest.takeWhile continuesName = cs
  have hall : cs.all continuesName = true := by
    rw [← hcs]
    exact List.all_takeWhile
  unfold emitWord
  cases hword : Token.Kind.ofWord? (String.ofList (c :: cs)) with
  | none =>
    refine ⟨fun _ => ?_, nofun, nofun, nofun⟩
    change isIdentifier (String.ofList (c :: cs)) = true
    unfold isIdentifier
    rw [hword, String.toList_ofList]
    simp [hc, hall]
  | some kind =>
    obtain ⟨hident, hint, hfloat⟩ := kind_of_ofWord? hword
    exact ⟨fun hkind => absurd hkind hident, fun _ => hword,
      fun hkind => absurd hkind hint, fun hkind => absurd hkind hfloat⟩

/-! ### All tokens -/

/-- The cases of the lexer, by the first character. -/
theorem proper_read (cursor : Cursor) : cursor.read.1.Proper := by
  unfold read
  split
  · exact Token.proper_of_isPlain rfl
  · next c rest _ =>
    split
    · next kind hkind =>
      obtain ⟨d, -, hpair⟩ := Option.bind_eq_some_iff.mp hkind
      exact Token.proper_of_isPlain (isPlain_pairKind? hpair)
    · split
      · exact proper_emitDot _ _
      · split
        · unfold emitString
          refine Token.proper_of_isPlain ?_
          dsimp only
          split <;> rfl
        · split
          · next hdigit =>
            refine proper_emitNumber (by simp) ?_ _ _
            rw [List.all_cons, hdigit, List.all_takeWhile]
            rfl
          · split
            · next hname => exact proper_emitWord hname _ _
            · exact Token.proper_of_isPlain (isPlain_singleKind? c)

theorem proper_tokensAfter (before : List Token) (cursor : Cursor)
    (hbefore : ∀ t ∈ before, t.Proper) :
    ∀ t ∈ cursor.tokensAfter before, t.Proper := by
  have hnext : ∀ (before : List Token) (cursor : Cursor),
      (∀ t ∈ before, t.Proper) → ∀ t ∈ cursor.next.1 :: before, t.Proper := by
    intro before cursor hbefore t ht
    rcases List.mem_cons.mp ht with rfl | hmem
    · exact proper_read cursor.skip
    · exact hbefore t hmem
  induction before, cursor using tokensAfter.induct with
  | case1 before cursor hend =>
    rw [tokensAfter, if_pos hend]
    exact fun t ht => hnext before cursor hbefore t (List.mem_reverse.mp ht)
  | case2 before cursor hmore ih =>
    rw [tokensAfter, if_neg hmore]
    exact ih (hnext before cursor hbefore)

end Cursor

/-- Whatever the source is. -/
theorem proper_tokenize (source : String) :
    ∀ t ∈ tokenize source, t.Proper :=
  Cursor.proper_tokensAfter [] _ (by simp)

end Script
