import PathScript.Proofs.CapturedCode
import PathScript.Proofs.Overflow
import PathScript.Proofs.WrittenNumbers

/-!
# Number Literals

A numeral is written with an optional minus sign, digits among which there may be a
point, and an optional exponent. Here it is a value of a type whose parts cannot be
ill-formed: a run of digits has a first digit, and a point without digits on either
side has no place in the type. It has a text, and it denotes a rational number by the
place values of its digits, without a word about how texts are read.

Reading a text succeeds just in case it is the text of a numeral, and yields a decimal
that denotes what the numeral does. One half reads a numeral part by part: the
character that ends a run of digits is never a digit, so each part is cut off where it
was put on. The other half collects the parts that reading has cut off.

Whether the number is too large is decided by what is denoted alone, so neither the
number of digits nor the exponent matters.

## Main definitions

* `Literal.Digits`, `Literal.Significand`, `Literal.Exponent`, `Literal.Numeral`: The
  grammar.
* `Literal.placeValue`: The value of digits by their places.

## Theorems

* `Literal.parse?_text`: A numeral is read as the decimal it denotes.
* `Literal.exists_numeral`: Whatever is read is a numeral.
* `Machine.step_of_startsNumber`: What a lexeme meant as a number does.
* `number_literals`: Which lexemes are numbers, and how the others are reported.
-/

namespace PathScript

namespace Literal

/-- The character of a digit. -/
def digitChar (d : Fin 10) : Char := Char.ofNat ('0'.toNat + d)

/-- A run of at least one digit. -/
structure Digits where
  first : Fin 10
  others : List (Fin 10)

/-- The digits of a run. -/
def Digits.toList (digits : Digits) : List (Fin 10) := digits.first :: digits.others

/-- The part of a numeral before its exponent. -/
inductive Significand where
  /-- Digits, and possibly a point with or without digits after it. -/
  | whole (digits : Digits) (fraction : Option (List (Fin 10)))
  /-- A point with digits after it. -/
  | point (digits : Digits)

/-- The exponent of a numeral, with either letter and an optional sign, which may be
    negative. -/
structure Exponent where
  capital : Bool
  sign : Option Bool
  digits : Digits

/-- A written number. -/
structure Numeral where
  negative : Bool
  significand : Significand
  exponent : Option Exponent

/-- The text of digits. -/
def digitsText (digits : List (Fin 10)) : List Char := digits.map digitChar

/-- The value of digits, each by its place. -/
def placeValue : List (Fin 10) → ℕ
  | [] => 0
  | d :: digits => d * 10 ^ digits.length + placeValue digits

namespace Significand

/-- The digits before the point. -/
def before : Significand → List (Fin 10)
  | .whole digits _ => digits.toList
  | .point _ => []

/-- The digits after the point. -/
def after : Significand → List (Fin 10)
  | .whole _ fraction => fraction.getD []
  | .point digits => digits.toList

def text : Significand → List Char
  | .whole digits none => digitsText digits.toList
  | .whole digits (some fraction) => digitsText digits.toList ++ '.' :: digitsText fraction
  | .point digits => '.' :: digitsText digits.toList

/-- The number that a significand denotes. -/
def value (s : Significand) : ℚ :=
  placeValue s.before + placeValue s.after / 10 ^ s.after.length

end Significand

namespace Exponent

def text (e : Exponent) : List Char :=
  (if e.capital then 'E' else 'e')
    :: ((e.sign.elim [] fun negative => [if negative then '-' else '+'])
      ++ digitsText e.digits.toList)

/-- The power of ten that an exponent stands for. -/
def value (e : Exponent) : ℤ :=
  if e.sign = some true then -placeValue e.digits.toList else placeValue e.digits.toList

end Exponent

namespace Numeral

def text (n : Numeral) : List Char :=
  (if n.negative then ['-'] else []) ++ (n.significand.text ++ n.exponent.elim [] Exponent.text)

/-- The power of ten by which the significand is moved. -/
def power (n : Numeral) : ℤ := n.exponent.elim 0 Exponent.value

/-- The rational number that a numeral denotes. -/
def value (n : Numeral) : ℚ :=
  (if n.negative then -1 else 1) * n.significand.value * 10 ^ n.power

end Numeral

section Digits

theorem isDigit_digitChar (d : Fin 10) : isDigit (digitChar d) = true := by
  revert d
  decide

theorem isDigit_of_mem_digitsText (digits : List (Fin 10)) :
    ∀ c ∈ digitsText digits, isDigit c = true := by
  intro c hc
  rcases List.mem_map.mp hc with ⟨d, _, rfl⟩
  exact isDigit_digitChar d

theorem digitsText_append (first second : List (Fin 10)) :
    digitsText (first ++ second) = digitsText first ++ digitsText second := List.map_append

theorem digitsText_ne_nil (digits : Digits) : digitsText digits.toList ≠ [] :=
  List.cons_ne_nil _ _

theorem placeValue_append (first second : List (Fin 10)) :
    placeValue (first ++ second) = placeValue first * 10 ^ second.length + placeValue second := by
  induction first with
  | nil => rw [List.nil_append, placeValue, Nat.zero_mul, Nat.zero_add]
  | cons d first ih =>
      rw [List.cons_append, placeValue, placeValue, ih, List.length_append, pow_add]
      ring

/-- Digits are read by their places. -/
theorem digitsValue_digitsText (digits : List (Fin 10)) :
    digitsValue (digitsText digits) = placeValue digits := by
  induction digits with
  | nil => rfl
  | cons d digits ih =>
      have hfirst : digitsValue [digitChar d] = d := by
        revert d
        decide
      have hcons : digitsText (d :: digits) = [digitChar d] ++ digitsText digits := rfl
      rw [hcons, digitsValue_append, hfirst, ih, digitsText, List.length_map]
      rfl

/-- A character that is a digit is that of one. -/
theorem exists_digitChar {c : Char} (h : isDigit c = true) : ∃ d, digitChar d = c := by
  have hrange : 48 ≤ c.toNat ∧ c.toNat ≤ 57 := by
    simpa [isDigit, Char.le_def, UInt32.le_iff_toNat_le] using h
  have hplace : '0'.toNat + (c.toNat - 48) = c.toNat := Nat.add_sub_cancel' hrange.1
  refine ⟨⟨c.toNat - 48, by omega⟩, ?_⟩
  rw [digitChar, hplace, Char.ofNat_toNat]

/-- Characters that are digits are the text of some. -/
theorem exists_digitsText {chars : List Char} (h : ∀ c ∈ chars, isDigit c = true) :
    ∃ digits, digitsText digits = chars := by
  induction chars with
  | nil => exact ⟨[], rfl⟩
  | cons c chars ih =>
      rcases List.forall_mem_cons.mp h with ⟨hc, hchars⟩
      rcases ih hchars with ⟨digits, hdigits⟩
      rcases exists_digitChar hc with ⟨d, rfl⟩
      exact ⟨d :: digits, congrArg _ hdigits⟩

/-- At least one of them makes a run. -/
theorem exists_run {chars : List Char} (hne : chars ≠ []) (h : ∀ c ∈ chars, isDigit c = true) :
    ∃ digits : Digits, digitsText digits.toList = chars := by
  rcases exists_digitsText h with ⟨digits, rfl⟩
  cases digits with
  | nil => exact absurd rfl hne
  | cons first others => exact ⟨⟨first, others⟩, rfl⟩

theorem parseDigits?_digitsText (digits : Digits) :
    parseDigits? (digitsText digits.toList) = some (placeValue digits.toList) := by
  have hne : (digitsText digits.toList).isEmpty = false :=
    List.isEmpty_eq_false_iff.mpr (digitsText_ne_nil digits)
  have hall : (digitsText digits.toList).all isDigit = true :=
    List.all_eq_true.mpr (isDigit_of_mem_digitsText _)
  rw [parseDigits?, hne, hall, digitsValue_digitsText]
  rfl

theorem run_of_parseDigits {text : List Char} {n : ℕ} (h : parseDigits? text = some n) :
    ∃ digits : Digits, digitsText digits.toList = text := by
  rw [parseDigits?] at h
  split at h
  · next hdigits =>
      rcases Bool.and_eq_true_iff.mp hdigits with ⟨hne, hall⟩
      refine exists_run ?_ (List.all_eq_true.mp hall)
      rwa [Bool.not_eq_true', List.isEmpty_eq_false_iff] at hne
  · cases h

end Digits

section Exponent

/-- An exponent is read as the power it stands for, and none as zero. -/
theorem parseExponent?_text (e : Option Exponent) :
    parseExponent? (e.elim [] Exponent.text) = some (e.elim 0 Exponent.value) := by
  cases e with
  | none => rfl
  | some e =>
      rcases e with ⟨capital, sign, digits⟩
      have hsigned : parseSigned? ((sign.elim [] fun negative => [if negative then '-' else '+'])
          ++ digitsText digits.toList) = some (Exponent.value ⟨capital, sign, digits⟩) := by
        have hread := parseDigits?_digitsText digits
        cases sign with
        | none =>
            -- The first digit is not a sign.
            have hfirst := isDigit_of_mem_digitsText digits.toList
            rw [Option.elim_none, List.nil_append, parseSigned?]
            · rw [hread]
              rfl
            · intro rest hrest
              exact absurd (hfirst '-' (by rw [hrest]; exact List.mem_cons_self)) (by decide)
            · intro rest hrest
              exact absurd (hfirst '+' (by rw [hrest]; exact List.mem_cons_self)) (by decide)
        | some negative =>
            cases negative with
            | true =>
                change (parseDigits? (digitsText digits.toList)).map (fun n => -(n : ℤ)) = _
                rw [hread]
                rfl
            | false =>
                change (parseDigits? (digitsText digits.toList)).map Int.ofNat = _
                rw [hread]
                rfl
      cases capital with
      | true => exact hsigned
      | false => exact hsigned

theorem exponent_of_parseSigned (capital : Bool) {text : List Char} {k : ℤ}
    (h : parseSigned? text = some k) :
    ∃ e : Exponent, e.text = (if capital then 'E' else 'e') :: text := by
  unfold parseSigned? at h
  split at h
  · next rest =>
      cases hread : parseDigits? rest with
      | none =>
          rw [hread] at h
          cases h
      | some n =>
          rcases run_of_parseDigits hread with ⟨digits, rfl⟩
          exact ⟨⟨capital, some true, digits⟩, rfl⟩
  · next rest =>
      rcases Option.map_eq_some_iff.mp h with ⟨n, hn, _⟩
      rcases run_of_parseDigits hn with ⟨digits, rfl⟩
      exact ⟨⟨capital, some false, digits⟩, rfl⟩
  · rcases Option.map_eq_some_iff.mp h with ⟨n, hn, _⟩
    rcases run_of_parseDigits hn with ⟨digits, rfl⟩
    exact ⟨⟨capital, none, digits⟩, rfl⟩

/-- What is read as an exponent is the text of one, or empty. -/
theorem exists_exponent {text : List Char} {k : ℤ} (h : parseExponent? text = some k) :
    ∃ e : Option Exponent, e.elim [] Exponent.text = text := by
  unfold parseExponent? at h
  split at h
  · exact ⟨none, rfl⟩
  · rcases exponent_of_parseSigned false h with ⟨e, he⟩
    exact ⟨some e, he⟩
  · rcases exponent_of_parseSigned true h with ⟨e, he⟩
    exact ⟨some e, he⟩
  · cases h

end Exponent

/-- Reading a point with digits after it and none before. -/
theorem parse?_bare_point (negative : Bool) {fraction tail : List Char} {e : Int}
    (hne : fraction ≠ []) (hfraction : ∀ c ∈ fraction, isDigit c = true)
    (htail : parseExponent? tail = some e) :
    parse? ((Layout.sign negative).toList ++ '.' :: (fraction ++ tail))
      = some (.finite negative (digitsValue fraction) (e - fraction.length)) := by
  have hpoint : ∀ c ∈ ('.' :: (fraction ++ tail)).head?, c ≠ '-' := by
    intro c hc
    rw [← Option.some.inj hc]
    decide
  have hend : ∀ c ∈ tail.head?, isDigit c = false :=
    fun c hc => (head_of_parseExponent htail c hc).1
  have hempty : fraction.isEmpty = false := List.isEmpty_eq_false_iff.mpr hne
  have hdigit : isDigit '.' = false := rfl
  unfold parse?
  simp only [splitSign_sign negative hpoint, List.span_eq_takeWhile_dropWhile,
    List.takeWhile_cons_of_neg (p := isDigit) (Bool.eq_false_iff.mp hdigit),
    List.dropWhile_cons_of_neg (p := isDigit) (Bool.eq_false_iff.mp hdigit), splitFraction,
    takeWhile_append_of_head hfraction hend, dropWhile_append_of_head hfraction hend, hempty,
    Bool.and_false, Bool.false_eq_true, if_false, htail, Option.map_some, List.nil_append]

theorem sign_text (negative : Bool) :
    (Layout.sign negative).toList = if negative then ['-'] else [] := by
  cases negative with
  | true => rfl
  | false => rfl

/-- A numeral is read as a decimal: all its digits, and its power of ten less the digits
    after the point. -/
theorem parse?_text (n : Numeral) :
    parse? n.text = some (.finite n.negative
      (placeValue (n.significand.before ++ n.significand.after))
      (n.power - n.significand.after.length)) := by
  rcases n with ⟨negative, significand, exponent⟩
  have htail := parseExponent?_text exponent
  rw [Numeral.text, ← sign_text, ← digitsValue_digitsText, digitsText_append]
  cases significand with
  | whole digits fraction =>
      have hdigits := isDigit_of_mem_digitsText digits.toList
      cases fraction with
      | none =>
          have hread := parse?_whole negative (digitsText_ne_nil digits) hdigits htail
          simpa only [Numeral.power, Significand.text, Significand.before, Significand.after,
            Option.getD_none, digitsText, List.map_nil, List.append_nil, List.length_nil, Int.ofNat_zero,
            Int.sub_zero, Int.natCast_zero] using hread
      | some fraction =>
          have hread := parse?_point negative (digitsText_ne_nil digits) hdigits
            (isDigit_of_mem_digitsText fraction) htail
          simpa only [Numeral.power, Significand.text, Significand.before, Significand.after,
            Option.getD_some, List.append_assoc, List.cons_append, digitsText, List.length_map] using hread
  | point digits =>
      have hread := parse?_bare_point negative (digitsText_ne_nil digits)
        (isDigit_of_mem_digitsText digits.toList) htail
      simpa only [Numeral.power, Significand.text, Significand.before, Significand.after,
        List.cons_append, digitsText, List.map_nil, List.nil_append, List.length_map] using hread

/-- The decimal denotes what the numeral does. -/
theorem value_numeral (n : Numeral) :
    (Decimal.finite n.negative (placeValue (n.significand.before ++ n.significand.after))
      (n.power - n.significand.after.length)).value = n.value := by
  have hmagnitude : (Decimal.finite false
        (placeValue (n.significand.before ++ n.significand.after))
        (n.power - n.significand.after.length)).value = n.significand.value * 10 ^ n.power := by
    rw [Decimal.value_false, placeValue_append, Significand.value, zpow_sub₀ (by norm_num),
      zpow_natCast]
    push_cast
    field_simp
  rw [Numeral.value]
  cases n.negative with
  | false => rw [hmagnitude, if_neg Bool.false_ne_true, one_mul]
  | true => rw [Decimal.value_true, hmagnitude, if_pos rfl, neg_one_mul, neg_mul]

theorem abs_value_numeral (n : Numeral) :
    |n.value| = placeValue (n.significand.before ++ n.significand.after)
      * 10 ^ (n.power - n.significand.after.length) := by
  rw [← value_numeral, Decimal.abs_value]

/-- The parts of a significand that reading cuts off, put together again. -/
theorem exists_significand {text : List Char}
    (h : ((text.takeWhile isDigit).isEmpty
      && (splitFraction (text.dropWhile isDigit)).1.isEmpty) = false) :
    ∃ s : Significand, s.text ++ (splitFraction (text.dropWhile isDigit)).2 = text := by
  have hsplit : text.takeWhile isDigit ++ text.dropWhile isDigit = text :=
    List.takeWhile_append_dropWhile
  have hbefore := List.all_eq_true.mp (List.all_takeWhile (p := isDigit) (l := text))
  generalize text.takeWhile isDigit = before at *
  generalize text.dropWhile isDigit = rest at *
  rw [← hsplit]
  unfold splitFraction at h ⊢
  split at h
  · next rest =>
      simp only [List.span_eq_takeWhile_dropWhile] at h ⊢
      have hafter := List.all_eq_true.mp (List.all_takeWhile (p := isDigit) (l := rest))
      have hrest : rest.takeWhile isDigit ++ rest.dropWhile isDigit = rest :=
        List.takeWhile_append_dropWhile
      by_cases hempty : before = []
      · -- The digits are all after the point.
        have hne : rest.takeWhile isDigit ≠ [] := by
          rwa [hempty, List.isEmpty_nil, Bool.true_and, List.isEmpty_eq_false_iff] at h
        rcases exists_run hne hafter with ⟨digits, hdigits⟩
        refine ⟨.point digits, ?_⟩
        rw [Significand.text, hdigits, List.cons_append, hrest, hempty, List.nil_append]
      · rcases exists_run hempty hbefore with ⟨digits, hdigits⟩
        rcases exists_digitsText hafter with ⟨fraction, hfraction⟩
        refine ⟨.whole digits (some fraction), ?_⟩
        rw [Significand.text, hdigits, hfraction, List.append_assoc, List.cons_append, hrest]
  · have hne : before ≠ [] := by
      rwa [List.isEmpty_nil, Bool.and_true, List.isEmpty_eq_false_iff] at h
    rcases exists_run hne hbefore with ⟨digits, hdigits⟩
    exact ⟨.whole digits none, congrArg (· ++ _) hdigits⟩

/-- Whatever is read is the text of a numeral. -/
theorem exists_numeral {text : List Char} {d : Decimal} (h : parse? text = some d) :
    ∃ n : Numeral, n.text = text := by
  unfold parse? at h
  simp only [List.span_eq_takeWhile_dropWhile] at h
  split at h
  · cases h
  · next hsome =>
      rcases Option.map_eq_some_iff.mp h with ⟨k, hexponent, _⟩
      rcases exists_exponent hexponent with ⟨exponent, htail⟩
      rcases exists_significand (Bool.eq_false_iff.mpr hsome) with ⟨significand, hunsigned⟩
      rw [← htail] at hunsigned
      rcases splitSign_cases text with hsign | hsign
      · refine ⟨⟨true, significand, exponent⟩, ?_⟩
        rw [hsign, ← hunsigned]
        rfl
      · refine ⟨⟨false, significand, exponent⟩, ?_⟩
        rw [← hsign, ← hunsigned]
        rfl

/-- A text is read just in case it is that of a numeral. -/
theorem parse?_eq_none_iff {text : List Char} :
    parse? text = none ↔ ¬∃ n : Numeral, n.text = text := by
  constructor
  · rintro h ⟨n, rfl⟩
    rw [parse?_text] at h
    cases h
  · intro h
    cases hread : parse? text with
    | none => rfl
    | some d => exact absurd (exists_numeral hread) h

end Literal

namespace Machine

open Literal

variable {lexeme : String} {n : Numeral}

/-- The number nearest to what a numeral denotes. -/
theorem value?_of_numeral (h : n.text = lexeme.toList) :
    value? lexeme = some (.atPosition n.negative (Binary64.positionOf n.value)) := by
  rw [value?, ← h, parse?_text, Option.map_some, Decimal.toBinary64_eq_atPosition, value_numeral]

theorem readNumber_of_lt (h : n.text = lexeme.toList) (hlt : |n.value| < Binary64.overflowsAt) :
    readNumber lexeme = .ok (.atPosition n.negative (Binary64.positionOf n.value)) := by
  rw [readNumber, value?_of_numeral h]
  simp only [Binary64.isFinite_atPosition.mpr (Binary64.positionOf_lt_iff.mpr hlt), if_true]

theorem readNumber_of_le (h : n.text = lexeme.toList) (hle : Binary64.overflowsAt ≤ |n.value|) :
    readNumber lexeme = .error (.because .numberFormat "number out of range") := by
  have hlarge :
      ¬(Binary64.atPosition n.negative (Binary64.positionOf n.value)).isFinite = true := by
    rw [Binary64.isFinite_atPosition, Binary64.positionOf_lt_iff]
    exact not_lt.mpr hle
  rw [readNumber, value?_of_numeral h]
  simp only [if_neg hlarge]

theorem readNumber_of_not_numeral (h : ¬∃ n : Numeral, n.text = lexeme.toList) :
    readNumber lexeme = .error (.plain .numberFormat) := by
  have hnone : value? lexeme = none := by
    rw [value?, parse?_eq_none_iff.mpr h, Option.map_none]
  rw [readNumber, hnone]

/-- What begins as a number does is no name. -/
theorem isName_of_startsNumber {first : Char} (hfirst : lexeme.toList.head? = some first)
    (hstarts : startsNumber first = true) : isName lexeme = false := by
  have hmem : first ∈ numerals := by
    rw [startsNumber, Bool.or_eq_true_iff, Bool.or_eq_true_iff, beq_iff_eq, beq_iff_eq] at hstarts
    rcases hstarts with (hdigit | rfl) | rfl
    · exact mem_numerals_of_isDigit hdigit
    · decide
    · decide
  rw [isName, hfirst, Option.any_some, not_isLetter_of_mem_numerals hmem hstarts]

/-- A lexeme that begins as a number is read as one, and pushed. -/
theorem step_of_startsNumber {first : Char} (hfirst : lexeme.toList.head? = some first)
    (hstarts : startsNumber first = true) (call : Caller) (m : Machine) :
    m.step call lexeme
      = .ofChange m lexeme ((readNumber lexeme).bind fun x => m.push? m.settings (.real x)) := by
  have hname := isName_of_startsNumber hfirst hstarts
  have hmark : first ≠ nameMark := by
    rintro rfl
    exact absurd hstarts (by decide)
  cases hlist : lexeme.toList with
  | nil =>
      rw [hlist] at hfirst
      cases hfirst
  | cons c rest =>
      rw [hlist, List.head?_cons, Option.some.injEq] at hfirst
      subst hfirst
      rw [isName, hlist, List.head?_cons, Option.any_some] at hname
      simp only [step, hlist, if_neg hmark, hname, hstarts, if_true, Bool.false_eq_true, if_false]

/-- A lexeme that cannot be read is reported as it stands, and changes nothing. -/
theorem step_of_readNumber_error {first : Char} {detail : Option String}
    (hfirst : lexeme.toList.head? = some first) (hstarts : startsNumber first = true)
    (hread : readNumber lexeme = .error (.report .numberFormat detail)) (m : Machine)
    (call : Caller) :
    m.step call lexeme
      = .failed m (.report ⟨.numberFormat, some lexeme, m.line?.map Int.ofNat, detail⟩) := by
  have hcommand := commandName_of_not_isName (isName_of_startsNumber hfirst hstarts)
  rw [step_of_startsNumber hfirst hstarts, hread]
  change Run.failed m (m.fault lexeme (.report .numberFormat detail)) = _
  rw [fault, Complaint.toFault, hcommand]

end Machine

open Literal

/-- A lexeme that begins as numbers do is a number just in case it is the text of a numeral
    that denotes less than the half way point after the largest finite number; it is then
    the number nearest to that. Any other is reported under its own text, with a detail
    just in case it is a numeral that denotes too much. -/
theorem number_literals (lexeme : String) (first : Char)
    (hfirst : lexeme.toList.head? = some first) (hstarts : Machine.startsNumber first = true) :
    ((∃ x, Machine.readNumber lexeme = .ok x) ↔
      ∃ n : Numeral, n.text = lexeme.toList ∧ |n.value| < (2 ^ 54 - 1) * 2 ^ 970) ∧
    (∀ n : Numeral, n.text = lexeme.toList → |n.value| < (2 ^ 54 - 1) * 2 ^ 970 →
      Machine.readNumber lexeme = .ok (.atPosition n.negative (Binary64.positionOf n.value)) ∧
      ∀ (m : Machine) call, m.step call lexeme
        = .ofChange m lexeme (m.push? m.settings
            (.real (.atPosition n.negative (Binary64.positionOf n.value))))) ∧
    (∀ n : Numeral, n.text = lexeme.toList → (2 ^ 54 - 1) * 2 ^ 970 ≤ |n.value| →
      Machine.readNumber lexeme = .error (.because .numberFormat "number out of range") ∧
      ∀ (m : Machine) call, m.step call lexeme
        = .failed m (.report ⟨.numberFormat, some lexeme, m.line?.map Int.ofNat,
            some "number out of range"⟩)) ∧
    ((¬∃ n : Numeral, n.text = lexeme.toList) →
      Machine.readNumber lexeme = .error (.plain .numberFormat) ∧
      ∀ (m : Machine) call, m.step call lexeme
        = .failed m (.report ⟨.numberFormat, some lexeme, m.line?.map Int.ofNat, none⟩)) := by
  refine ⟨⟨?_, ?_⟩, fun n hn hlt => ?_, fun n hn hle => ?_, fun h => ?_⟩
  · rintro ⟨x, hx⟩
    by_cases hnumeral : ∃ n : Numeral, n.text = lexeme.toList
    · rcases hnumeral with ⟨n, hn⟩
      refine ⟨n, hn, not_le.mp fun hle => ?_⟩
      rw [Machine.readNumber_of_le hn hle] at hx
      cases hx
    · rw [Machine.readNumber_of_not_numeral hnumeral] at hx
      cases hx
  · rintro ⟨n, hn, hlt⟩
    exact ⟨_, Machine.readNumber_of_lt hn hlt⟩
  · have hread := Machine.readNumber_of_lt hn hlt
    refine ⟨hread, fun m call => ?_⟩
    rw [Machine.step_of_startsNumber hfirst hstarts, hread]
    rfl
  · have hread := Machine.readNumber_of_le hn hle
    exact ⟨hread, Machine.step_of_readNumber_error hfirst hstarts hread⟩
  · have hread := Machine.readNumber_of_not_numeral h
    exact ⟨hread, Machine.step_of_readNumber_error hfirst hstarts hread⟩

/-- Two numerals on either side of the half way point, less than one part in ten to the
    seventeenth from it, and a text that is no numeral. -/
theorem number_literals_edge :
    (∃ x, Machine.readNumber "-.17976931348623158E+309" = .ok x) ∧
    Machine.readNumber "1797693134862315808.e290"
      = .error (.because .numberFormat "number out of range") ∧
    Machine.readNumber "1.2.3" = .error (.plain .numberFormat) := by
  have hinside := number_literals "-.17976931348623158E+309" '-' (by decide) (by decide)
  have houtside := number_literals "1797693134862315808.e290" '1' (by decide) (by decide)
  have hnone := number_literals "1.2.3" '1' (by decide) (by decide)
  refine ⟨hinside.1.mpr ⟨⟨true, .point ⟨1, [7, 9, 7, 6, 9, 3, 1, 3, 4, 8, 6, 2, 3, 1, 5, 8]⟩,
    some ⟨true, some false, 3, [0, 9]⟩⟩, by decide, ?_⟩, (houtside.2.2.1
    ⟨false, .whole ⟨1, [7, 9, 7, 6, 9, 3, 1, 3, 4, 8, 6, 2, 3, 1, 5, 8, 0, 8]⟩ (some []),
      some ⟨false, none, 2, [9, 0]⟩⟩ (by decide) ?_).1, (hnone.2.2.2 ?_).1⟩
  · have hbound : 17976931348623158 * tenTo 292 < (twoTo 54 - 1) * twoTo 970 := by decide +kernel
    change _ < Binary64.overflowsAt
    rw [abs_value_numeral, Binary64.overflowsAt_eq]
    change ((17976931348623158 : ℕ) : ℚ) * 10 ^ ((292 : ℕ) : ℤ) < _
    rw [zpow_natCast, ← tenTo_cast]
    exact_mod_cast hbound
  · have hbound : (twoTo 54 - 1) * twoTo 970 ≤ 1797693134862315808 * tenTo 290 := by decide +kernel
    change Binary64.overflowsAt ≤ _
    rw [abs_value_numeral, Binary64.overflowsAt_eq]
    change _ ≤ ((1797693134862315808 : ℕ) : ℚ) * 10 ^ ((290 : ℕ) : ℤ)
    rw [zpow_natCast, ← tenTo_cast]
    exact_mod_cast hbound
  · rw [← parse?_eq_none_iff]
    decide

end PathScript
