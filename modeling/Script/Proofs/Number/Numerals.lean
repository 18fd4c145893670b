import Script.Number.Numeral

/-!
# Numerals that are read back

The decimal digits of a number are read as that number, and the shapes that
decimals have are all read as some number.
-/

namespace Script.Numeral

theorem isDigit_eq (c : Char) : isDigit c = c.isDigit := by
  unfold isDigit Char.isDigit
  rfl

theorem all_isDigit_toDigits (n : Nat) :
    (Nat.toDigits 10 n).all isDigit = true := by
  rw [List.all_eq_true]
  intro c hc
  rw [isDigit_eq]
  exact Nat.isDigit_of_mem_toDigits (by decide) (by decide) hc

theorem digits?_toDigits (n : Nat) : digits? (Nat.toDigits 10 n) = some n := by
  have hvalue : valueFrom 0 (Nat.toDigits 10 n) = n :=
    Nat.ofDigitChars_toDigits (by decide) (by decide)
  unfold digits?
  rw [all_isDigit_toDigits, hvalue]
  simp

/-- What a decimal without a sign starts with. -/
def startsDecimal (c : Char) : Bool := isDigit c || c = '.'

/-- A decimal that does not start with a sign has none. -/
theorem splitSign_of_startsDecimal {c : Char} (hc : startsDecimal c = true)
    (rest : List Char) : splitSign (c :: rest) = (false, c :: rest) := by
  unfold splitSign
  split
  · next heq =>
    rw [(List.cons.inj heq).1] at hc
    cases hc
  · next heq =>
    rw [(List.cons.inj heq).1] at hc
    cases hc
  · rfl

/-! ### Integers of 64 bits -/

theorem toList_toString_of_nonneg {n : Int64} (hn : 0 ≤ n) :
    (toString n).toList = Nat.toDigits 10 n.toInt.toNat := by
  have hpos : 0 ≤ n.toInt := Int64.le_iff_toInt_le.mp hn
  change (toString n.toInt).toList = _
  rw [Int.toString_eq_repr, Int.repr_eq_if, if_pos hpos, Nat.toList_repr]

/-- An integer is written with a digit at its start. -/
theorem toString_cons {n : Int64} (hn : 0 ≤ n) :
    ∃ c rest, (toString n).toList = c :: rest ∧ isDigit c = true ∧
      rest.all isDigit = true := by
  rw [toList_toString_of_nonneg hn]
  have hall := all_isDigit_toDigits n.toInt.toNat
  cases hdigits : Nat.toDigits 10 n.toInt.toNat with
  | nil => exact absurd hdigits Nat.toDigits_ne_nil
  | cons c rest =>
    rw [hdigits, List.all_cons, Bool.and_eq_true] at hall
    exact ⟨c, rest, rfl, hall.1, hall.2⟩

/-- The negative of a number other than the smallest one. -/
theorem toInt_neg_of_ne {n : Int64} (hmin : n ≠ Int64.minValue) :
    (-n).toInt = -n.toInt := by
  have hlow := n.le_toInt
  have hhigh := n.toInt_lt
  have hne : n.toInt ≠ -2 ^ 63 := by
    rw [← Int64.toInt_minValue]
    exact fun heq => hmin (Int64.toInt_inj.mp heq)
  rw [Int64.toInt_neg, Int.bmod_eq_of_le (by omega) (by omega)]

theorem neg_nonneg_of_neg {n : Int64} (hn : n < 0) (hmin : n ≠ Int64.minValue) :
    0 ≤ -n := by
  have hneg : n.toInt < 0 := Int64.lt_iff_toInt_lt.mp hn
  rw [Int64.le_iff_toInt_le, toInt_neg_of_ne hmin]
  change (0 : Int) ≤ _
  omega

/-- A negative number is written as a minus sign and a number. -/
theorem toString_of_neg {n : Int64} (hn : n < 0) (hmin : n ≠ Int64.minValue) :
    toString n = "-" ++ toString (-n) := by
  have hneg : n.toInt < 0 := Int64.lt_iff_toInt_lt.mp hn
  change toString n.toInt = "-" ++ toString (-n).toInt
  rw [toInt_neg_of_ne hmin, Int.toString_eq_repr, Int.toString_eq_repr,
    Int.repr_eq_if, Int.repr_eq_if, if_neg (by omega), if_pos (by omega)]

/-! ### Decimals -/

theorem takeWhile_append_of_all {p : Char → Bool} {text : List Char}
    (rest : List Char) (htext : text.all p = true) (hrest : ∀ c ∈ rest.head?, p c = false) :
    (text ++ rest).takeWhile p = text ∧ (text ++ rest).dropWhile p = rest := by
  induction text with
  | nil =>
    cases rest with
    | nil => exact ⟨rfl, rfl⟩
    | cons c rest =>
      have hc := hrest c rfl
      simp [hc]
  | cons c text ih =>
    rw [List.all_cons, Bool.and_eq_true] at htext
    obtain ⟨htake, hdrop⟩ := ih htext.2
    simp [htext.1, htake, hdrop]

theorem lowerAscii_of_startsDecimal {c : Char} (hc : startsDecimal c = true) :
    lowerAscii c = c := by
  unfold lowerAscii
  rw [if_neg]
  rintro ⟨hlow, -⟩
  unfold startsDecimal isDigit at hc
  simp only [Bool.or_eq_true, Bool.and_eq_true, decide_eq_true_eq] at hc
  rcases hc with ⟨-, hhigh⟩ | rfl
  · exact absurd (Char.le_trans hlow hhigh) (by decide)
  · exact absurd hlow (by decide)

/-- A decimal is none of the names of special values. -/
theorem ofList_lowerAscii_ne {c : Char} (hc : startsDecimal c = true)
    (rest : List Char) {name : String} {d : Char} {name' : List Char}
    (hname : name.toList = d :: name') (hd : startsDecimal d = false) :
    String.ofList ((c :: rest).map lowerAscii) ≠ name := by
  rintro rfl
  rw [String.toList_ofList, List.map_cons, lowerAscii_of_startsDecimal hc] at hname
  rw [(List.cons.inj hname).1] at hc
  exact absurd (hd.symm.trans hc) Bool.false_ne_true

theorem isSome_decimal? {whole fraction : List Char}
    (hwhole : whole.all isDigit = true)
    (hfraction : fraction.all isDigit = true) (hne : fraction ≠ [])
    (negative : Bool) :
    (decimal? negative (whole ++ '.' :: fraction)).isSome = true := by
  obtain ⟨htake, hdrop⟩ := takeWhile_append_of_all ('.' :: fraction)
    hwhole (by simp [isDigit])
  obtain ⟨htake', hdrop'⟩ := takeWhile_append_of_all [] hfraction (by simp)
  rw [List.append_nil] at htake' hdrop'
  have hempty : (whole.isEmpty && fraction.isEmpty) = false := by
    cases fraction with
    | nil => contradiction
    | cons c fraction => simp
  unfold decimal?
  rw [htake, hdrop]
  simp only [htake', hdrop', hempty]
  simp [exponent?]

/-- A point with digits behind it, and perhaps digits in front of it. -/
theorem isSome_float? {whole fraction : List Char}
    (hwhole : whole.all isDigit = true) (hfraction : fraction.all isDigit = true)
    (hne : fraction ≠ []) :
    (float? (whole ++ '.' :: fraction)).isSome = true := by
  have hdecimal := isSome_decimal? hwhole hfraction hne
  obtain ⟨c, rest, htext, hc⟩ : ∃ c rest, whole ++ '.' :: fraction = c :: rest ∧
      startsDecimal c = true := by
    cases whole with
    | nil => exact ⟨'.', fraction, rfl, rfl⟩
    | cons c whole =>
      rw [List.all_cons, Bool.and_eq_true] at hwhole
      exact ⟨c, whole ++ '.' :: fraction, rfl, by simp [startsDecimal, hwhole.1]⟩
  rw [htext] at hdecimal ⊢
  unfold float?
  rw [splitSign_of_startsDecimal hc]
  dsimp only
  rw [if_neg (not_or.mpr ⟨ofList_lowerAscii_ne hc rest (d := 'i') rfl rfl,
    ofList_lowerAscii_ne hc rest (d := 'i') rfl rfl⟩),
    if_neg (ofList_lowerAscii_ne hc rest (d := 'n') rfl rfl)]
  exact hdecimal false

end Script.Numeral
