import TypedSql.Calendar.Reader
import TypedSql.Decimal.Reader
import TypedSql.Proofs.Sequencing

/-!
# Numbers and dates are read as they were written

The text of a decimal has all the places of its scale, and that of a date its sign and its leading
zeros, so that the reader finds every digit where it expects it. What is read is what was written,
with two exceptions: a zero loses its minus sign, and a moment the part of a second that its text
does not show.
-/

namespace TypedSql

/-! ## Digits -/

namespace Text

theorem isDigit_of_mem_padded {width n : Nat} {c : Char} (h : c ∈ padded width n) :
    c.isDigit = true := by
  rcases List.mem_append.1 h with h | h
  · rw [List.eq_of_mem_replicate h]
    rfl
  · exact Nat.isDigit_of_mem_toDigits (by omega) (by omega) h

theorem notMem_toDigits {c : Char} (hc : c.isDigit = false) (n : Nat) : c ∉ Nat.toDigits 10 n := by
  intro h
  cases hc.symm.trans (Nat.isDigit_of_mem_toDigits (by omega) (by omega) h)

theorem notMem_padded {c : Char} (hc : c.isDigit = false) (width n : Nat) : c ∉ padded width n := by
  intro h
  cases hc.symm.trans (isDigit_of_mem_padded h)

theorem toDigits_injective {m n : Nat} (h : Nat.toDigits 10 m = Nat.toDigits 10 n) : m = n := by
  have hvalue := congrArg valueOfDigits h
  rwa [valueOfDigits, valueOfDigits, Nat.ofDigitChars_ten_toDigits, Nat.ofDigitChars_ten_toDigits]
    at hvalue

theorem ofDigitChars_padded (width n init : Nat) :
    Nat.ofDigitChars 10 (padded width n) init = tenTo (padded width n).length * init + n := by
  have hzero : Nat.ofDigitChars 10 (padded width n) 0 = n := by
    rw [padded, Nat.ofDigitChars_append, Nat.ofDigitChars_replicate_zero, Nat.mul_zero,
      Nat.ofDigitChars_ten_toDigits]
  rw [Nat.ofDigitChars_eq_ofDigitChars_zero, hzero]
  rfl

theorem valueOfDigits_padded (width n : Nat) : valueOfDigits (padded width n) = n := by
  rw [valueOfDigits, ofDigitChars_padded, Nat.mul_zero, Nat.zero_add]

/-- A number that has no more digits than the width is written with as many characters. -/
theorem length_padded {width n : Nat} (hwidth : 0 < width) (h : n < tenTo width) :
    (padded width n).length = width := by
  have hdigits : (Nat.toDigits 10 n).length ≤ width :=
    (Nat.length_toDigits_le_iff (by omega) hwidth).2 h
  rw [padded, List.length_append, List.length_replicate]
  omega

theorem padded_inj {width width' m n : Nat} (hwidth : 0 < width) (hwidth' : 0 < width')
    (hm : m < tenTo width) (hn : n < tenTo width') (h : padded width m = padded width' n) :
    width = width' ∧ m = n := by
  constructor
  · rw [← length_padded hwidth hm, ← length_padded hwidth' hn, h]
  · rw [← valueOfDigits_padded width m, ← valueOfDigits_padded width' n, h]

theorem padded_ne_nil (width n : Nat) : padded width n ≠ [] := by
  intro h
  exact Nat.toDigits_ne_nil (List.append_eq_nil_iff.1 h).2

/-- Whether a text does not go on with a digit. -/
def EndsDigits (cs : List Char) : Prop := ∀ c ∈ cs.head?, c.isDigit = false

theorem endsDigits_nil : EndsDigits [] := by simp [EndsDigits]

theorem endsDigits_cons {c : Char} (h : c.isDigit = false) (cs : List Char) :
    EndsDigits (c :: cs) := by
  intro d hd
  cases hd
  exact h

theorem splitDigits_append {digits rest : List Char} {limit : Nat}
    (hdigits : ∀ c ∈ digits, c.isDigit = true) (hlimit : digits.length ≤ limit)
    (hrest : EndsDigits rest) : splitDigits limit (digits ++ rest) = (digits, rest) := by
  induction digits generalizing limit with
  | nil =>
    cases rest with
    | nil => cases limit <;> rfl
    | cons c rest =>
      have hc : c.isDigit = false := hrest c rfl
      cases limit with
      | zero => rfl
      | succ limit => simp [splitDigits, hc]
  | cons d digits ih =>
    have hd : d.isDigit = true := hdigits d List.mem_cons_self
    have htail := fun c hc => hdigits c (List.mem_cons_of_mem d hc)
    cases limit with
    | zero => simp at hlimit
    | succ limit =>
      rw [List.length_cons] at hlimit
      simp [splitDigits, hd, ih htail (by omega : digits.length ≤ limit)]

theorem isBlank_eq_false_of_isDigit {c : Char} (h : c.isDigit = true) : isBlank c = false := by
  have hbounds : 48 ≤ c.toNat ∧ c.toNat ≤ 57 := by
    simpa [Char.isDigit, UInt32.le_iff_toNat_le] using h
  simp only [isBlank, blankRanges, List.any_cons, List.any_nil, Bool.or_false, Bool.or_eq_false_iff,
    Bool.and_eq_false_iff, decide_eq_false_iff_not]
  omega

theorem trimStart_cons {c : Char} (h : isBlank c = false) (cs : List Char) :
    trimStart (c :: cs) = c :: cs := by
  rw [trimStart, List.dropWhile_cons_of_neg (by simp [h])]

theorem trimStart_digits {digits : List Char} (hne : digits ≠ [])
    (hdigits : ∀ c ∈ digits, c.isDigit = true) (rest : List Char) :
    trimStart (digits ++ rest) = digits ++ rest := by
  cases digits with
  | nil => exact absurd rfl hne
  | cons d digits =>
    exact trimStart_cons (isBlank_eq_false_of_isDigit (hdigits d List.mem_cons_self)) _

end Text

/-! ## Decimals -/

namespace Decimal

theorem le_ofDigitChars (digits : List Char) (init : Nat) :
    init ≤ Nat.ofDigitChars 10 digits init := by
  rw [Nat.ofDigitChars_eq_ofDigitChars_zero]
  have hpow : init ≤ 10 ^ digits.length * init :=
    Nat.le_mul_of_pos_left init (Nat.pow_pos (by omega))
  omega

/-- As long as neither the coefficient nor the scale gets too large, digits are read one by one. -/
theorem readMagnitude_digits {digits : List Char} {coefficient scale : Nat} {point : Bool}
    (seen : Bool) (rest : List Char) (hdigits : ∀ c ∈ digits, c.isDigit = true)
    (hcoefficient : Nat.ofDigitChars 10 digits coefficient ≤ maxCoefficient)
    (hscale : point = true → scale + digits.length ≤ maxScale) :
    readMagnitude coefficient scale point seen (digits ++ rest) =
      readMagnitude (Nat.ofDigitChars 10 digits coefficient)
        (if point then scale + digits.length else scale) point (seen || !digits.isEmpty) rest := by
  induction digits generalizing coefficient scale seen with
  | nil => simp
  | cons d digits ih =>
    have hd : d.isDigit = true := hdigits d List.mem_cons_self
    have htail := fun c hc => hdigits c (List.mem_cons_of_mem d hc)
    have hvalue : 10 * coefficient + (d.toNat - '0'.toNat) = coefficient * 10 + digitValue d := by
      rw [Nat.mul_comm, digitValue]
    rw [Nat.ofDigitChars_cons, hvalue] at hcoefficient ⊢
    -- the digits that follow only make the coefficient larger
    have hfits := Nat.le_trans (le_ofDigitChars digits _) hcoefficient
    have hroom : (point && decide (scale ≥ maxScale)) = false := by
      cases point with
      | false => rfl
      | true =>
        have hlength := hscale rfl
        rw [List.length_cons] at hlength
        simp only [Bool.true_and, decide_eq_false_iff_not]
        omega
    rw [List.cons_append, readMagnitude]
    simp only [hroom, hd, hfits, Bool.false_eq_true, if_true, if_false]
    rw [ih true htail hcoefficient]
    · cases point <;> simp [Nat.add_comm, Nat.add_left_comm]
    · intro hpoint
      have hlength := hscale hpoint
      rw [List.length_cons] at hlength
      simp only [hpoint, if_true]
      omega

theorem readMagnitude_whole {n : Nat} (h : n ≤ maxCoefficient) (rest : List Char) :
    readMagnitude 0 0 false false (Nat.toDigits 10 n ++ rest) =
      readMagnitude n 0 false true rest := by
  have hdigits : ∀ c ∈ Nat.toDigits 10 n, c.isDigit = true :=
    fun c hc => Nat.isDigit_of_mem_toDigits (by omega) (by omega) hc
  have hvalue : Nat.ofDigitChars 10 (Nat.toDigits 10 n) 0 = n := Nat.ofDigitChars_ten_toDigits
  have hempty : (Nat.toDigits 10 n).isEmpty = false :=
    List.isEmpty_eq_false_iff.2 Nat.toDigits_ne_nil
  rw [readMagnitude_digits false rest hdigits (by rwa [hvalue]) (by simp), hvalue, hempty]
  rfl

theorem readMagnitude_fraction {whole fraction scale : Nat} (hpositive : 0 < scale)
    (hscale : scale ≤ maxScale) (hfraction : fraction < tenTo scale)
    (hcoefficient : tenTo scale * whole + fraction ≤ maxCoefficient) :
    readMagnitude whole 0 true true (Text.padded scale fraction) =
      .ok (tenTo scale * whole + fraction, scale) := by
  have hlength := Text.length_padded hpositive hfraction
  have hvalue : Nat.ofDigitChars 10 (Text.padded scale fraction) whole =
      tenTo scale * whole + fraction := by
    rw [Text.ofDigitChars_padded, hlength]
  have hread := readMagnitude_digits true [] (fun c => Text.isDigit_of_mem_padded)
    (hvalue ▸ hcoefficient) (fun _ : true = true => by rwa [hlength, Nat.zero_add])
  rw [List.append_nil, hvalue, hlength, Nat.zero_add] at hread
  exact hread

/-- The digits of a decimal are read as its coefficient and its scale. -/
theorem readMagnitude_magnitudeChars (d : Decimal) :
    readMagnitude 0 0 false false d.magnitudeChars = .ok (d.coefficient, d.scale) := by
  unfold magnitudeChars
  split
  · rename_i hscale
    rw [← List.append_nil (Nat.toDigits 10 d.coefficient), readMagnitude_whole d.coefficient_le,
      hscale]
    rfl
  · rename_i hscale
    have hsplit : tenTo d.scale * (d.coefficient / tenTo d.scale) + d.coefficient % tenTo d.scale =
        d.coefficient := Nat.div_add_mod _ _
    have hfraction : d.coefficient % tenTo d.scale < tenTo d.scale :=
      Nat.mod_lt _ (Nat.pow_pos (by omega))
    have hread := readMagnitude_fraction (by omega) d.scale_le hfraction
      (Nat.le_trans (Nat.le_of_eq hsplit) d.coefficient_le)
    rw [hsplit] at hread
    rw [readMagnitude_whole (Nat.le_trans (Nat.div_le_self _ _) d.coefficient_le), ← hread]
    rfl

/-- A decimal as it is read: a zero has no sign. -/
def unsignZero (d : Decimal) : Decimal := { d with negative := d.negative && d.coefficient ≠ 0 }

theorem head?_magnitudeChars (d : Decimal) :
    ∃ c cs, d.magnitudeChars = c :: cs ∧ c.isDigit = true := by
  have hwhole : ∀ n, ∃ c cs, Nat.toDigits 10 n = c :: cs ∧ c.isDigit = true := by
    intro n
    cases hn : Nat.toDigits 10 n with
    | nil => exact absurd hn Nat.toDigits_ne_nil
    | cons c cs =>
      have hc : c ∈ Nat.toDigits 10 n := by simp [hn]
      exact ⟨c, cs, rfl, Nat.isDigit_of_mem_toDigits (by omega) (by omega) hc⟩
  unfold magnitudeChars
  split
  · exact hwhole d.coefficient
  · obtain ⟨c, cs, hcs, hc⟩ := hwhole (d.coefficient / tenTo d.scale)
    exact ⟨c, _, by rw [hcs]; rfl, hc⟩

/-- A text without sign is read as a magnitude. -/
theorem readPlain_of_isDigit {c : Char} (h : c.isDigit = true) (cs : List Char) :
    readPlain (c :: cs) = readMagnitude 0 0 false false (c :: cs) >>= ofMagnitude false := by
  unfold readPlain
  split
  · simp_all
  · rename_i heq
    cases heq
    cases h
  · rename_i heq
    cases heq
    cases h
  · rfl

/-- A decimal is read as it was written, but for the sign of a zero. -/
theorem read_text (d : Decimal) : read d.text = .ok d.unsignZero := by
  have hmagnitude : ∀ negative, readMagnitude 0 0 false false d.magnitudeChars >>=
      ofMagnitude negative = ofMagnitude negative (d.coefficient, d.scale) := by
    intro negative
    rw [readMagnitude_magnitudeChars]
    rfl
  have hparts : ofMagnitude d.negative (d.coefficient, d.scale) = .ok d.unsignZero := by
    have hrange : d.coefficient ≤ maxCoefficient ∧ d.scale ≤ maxScale :=
      ⟨d.coefficient_le, d.scale_le⟩
    simp only [ofMagnitude, ofParts?, hrange, and_self, dif_pos]
    rfl
  have hplain : readPlain d.text.toList = .ok d.unsignZero := by
    rw [text, String.toList_ofList, chars, ← hparts]
    cases d.negative with
    | true => exact hmagnitude true
    | false =>
      obtain ⟨c, cs, hcs, hc⟩ := d.head?_magnitudeChars
      have hread := hmagnitude false
      rw [hcs] at hread ⊢
      rw [← hread]
      exact readPlain_of_isDigit hc cs
  rw [read, hplain]

/-- Whether a decimal is a zero with a minus sign. -/
def IsNegativeZero (d : Decimal) : Prop := d.negative = true ∧ d.coefficient = 0

theorem IsNegativeZero.negative_unsignZero {d : Decimal} (h : d.IsNegativeZero) :
    d.unsignZero.negative = false := by
  simp [unsignZero, h.2]

theorem unsignZero_eq_self_iff {d : Decimal} : d.unsignZero = d ↔ ¬ d.IsNegativeZero := by
  obtain ⟨negative, coefficient, scale, hcoefficient, hscale⟩ := d
  cases negative <;> simp [unsignZero, IsNegativeZero]

end Decimal

/-! ## Dates and moments -/

section

variable {c : Char} (hdigit : c.isDigit = false) (hplus : c ≠ '+') (hminus : c ≠ '-')
include hdigit hplus hminus

theorem notMem_yearChars (year : Int) : c ∉ yearChars year := by
  have hpadded := Text.notMem_padded hdigit 4
  unfold yearChars
  split
  · exact hpadded _
  · split
    · simp [hplus, hpadded]
    · simp [hminus, hpadded]

theorem Date.notMem_chars (d : Date) : c ∉ d.chars := by
  simp [chars, notMem_yearChars hdigit hplus hminus, Text.notMem_padded hdigit, hminus]

theorem DateTime.notMem_chars (hcolon : c ≠ ':') {separator : Char} (hseparator : c ≠ separator)
    (t : DateTime) : c ∉ t.chars separator := by
  simp [chars, timeChars, Date.notMem_chars hdigit hplus hminus, Text.notMem_padded hdigit, hcolon,
    hseparator]

end

namespace Calendar

open Text (padded EndsDigits valueOfDigits)

theorem readDigits_append {digits rest : List Char} {limit : Nat} (hne : digits ≠ [])
    (hdigits : ∀ c ∈ digits, c.isDigit = true) (hlimit : digits.length ≤ limit)
    (hrest : EndsDigits rest) :
    readDigits limit (digits ++ rest) = .ok (valueOfDigits digits, rest) := by
  have hsplit := Text.splitDigits_append hdigits hlimit hrest
  cases digits with
  | nil => exact absurd rfl hne
  | cons d digits =>
    rw [List.cons_append] at hsplit ⊢
    rw [readDigits, if_pos (hdigits d List.mem_cons_self), hsplit]

/-- A number of at most two digits is read as it was written. -/
theorem readItem_padded {low high n : Nat} (hlow : low ≤ n) (hhigh : n ≤ high) (hn : n < 100)
    {rest : List Char} (hrest : EndsDigits rest) :
    readItem low high (padded 2 n ++ rest) = .ok (n, rest) := by
  have hdigits : ∀ c ∈ padded 2 n, c.isDigit = true := fun c => Text.isDigit_of_mem_padded
  have hlength : (padded 2 n).length = 2 := Text.length_padded (by omega) hn
  rw [readItem, Text.trimStart_digits (Text.padded_ne_nil 2 n) hdigits,
    readDigits_append (Text.padded_ne_nil 2 n) hdigits (Nat.le_of_eq hlength) hrest,
    Text.valueOfDigits_padded]
  exact if_pos ⟨hlow, hhigh⟩

theorem boundedYear_eq_ok {year : Int} (hlow : -262143 ≤ year) (hhigh : year ≤ 262142)
    (rest : List Char) : boundedYear year rest = .ok (year, rest) := by
  have htwo : (twoTo 31 : Int) = 2147483648 := rfl
  rw [boundedYear, htwo, if_pos (by omega)]

theorem readYear_minus (cs : List Char) :
    readYear ('-' :: cs) =
      readDigits cs.length cs >>= fun (n, rest) => boundedYear (-(n : Int)) rest := by
  rw [readYear, Text.trimStart_cons rfl]
  rfl

theorem readYear_plus (cs : List Char) :
    readYear ('+' :: cs) = readDigits cs.length cs >>= fun (n, rest) => boundedYear n rest := by
  rw [readYear, Text.trimStart_cons rfl]
  rfl

theorem readYear_digit {c : Char} (h : c.isDigit = true) (cs : List Char) :
    readYear (c :: cs) = readDigits 4 (c :: cs) >>= fun (n, rest) => boundedYear n rest := by
  rw [readYear, Text.trimStart_cons (Text.isBlank_eq_false_of_isDigit h)]
  split
  · rename_i heq
    cases heq
    cases h
  · rename_i heq
    cases heq
    cases h
  · rfl

/-- A year is read as it was written: in four digits, or with a sign and all its digits. -/
theorem readYear_yearChars {year : Int} (hlow : -262143 ≤ year) (hhigh : year ≤ 262142)
    (rest : List Char) : readYear (yearChars year ++ '-' :: rest) = .ok (year, '-' :: rest) := by
  have hread : ∀ n limit, (padded 4 n).length ≤ limit →
      readDigits limit (padded 4 n ++ '-' :: rest) = .ok (n, '-' :: rest) := by
    intro n limit hlimit
    have hend : EndsDigits ('-' :: rest) := Text.endsDigits_cons rfl rest
    rw [readDigits_append (Text.padded_ne_nil 4 n) (fun c => Text.isDigit_of_mem_padded) hlimit
      hend, Text.valueOfDigits_padded]
  have hlength : ∀ n, (padded 4 n).length ≤ (padded 4 n ++ '-' :: rest).length := by
    intro n
    rw [List.length_append]
    omega
  unfold yearChars
  split
  · rename_i hyear
    have hsmall : year.toNat < tenTo 4 := by
      have hpow : tenTo 4 = 10000 := rfl
      omega
    have hfour := hread year.toNat 4 (Nat.le_of_eq (Text.length_padded (by omega) hsmall))
    cases hchars : padded 4 year.toNat with
    | nil => exact absurd hchars (Text.padded_ne_nil 4 _)
    | cons c cs =>
      have hc : c.isDigit = true := Text.isDigit_of_mem_padded (by rw [hchars]; simp)
      rw [hchars, List.cons_append] at hfour
      rw [List.cons_append, readYear_digit hc]
      refine bind_eq_ok_iff.2 ⟨_, hfour, ?_⟩
      dsimp only
      rw [Int.toNat_of_nonneg hyear.1]
      exact boundedYear_eq_ok hlow hhigh _
  · split
    · rename_i hyear
      rw [List.cons_append, readYear_plus]
      refine bind_eq_ok_iff.2 ⟨_, hread year.toNat _ (hlength _), ?_⟩
      dsimp only
      rw [Int.toNat_of_nonneg hyear]
      exact boundedYear_eq_ok hlow hhigh _
    · rename_i hyear
      rw [List.cons_append, readYear_minus]
      refine bind_eq_ok_iff.2 ⟨_, hread (-year).toNat _ (hlength _), ?_⟩
      have hneg : 0 ≤ -year := by omega
      dsimp only
      rw [Int.toNat_of_nonneg hneg, Int.neg_neg]
      exact boundedYear_eq_ok hlow hhigh _

end Calendar

/-- A day of the calendar is one of at most 31 days of one of twelve months. -/
theorem DayExists.bounds {year : Int} {month day : Nat} (h : DayExists year month day) :
    1 ≤ month ∧ month ≤ 12 ∧ 1 ≤ day ∧ day ≤ 31 := by
  obtain ⟨-, -, hlow, hhigh⟩ := h
  unfold daysInMonth at hhigh
  split at hhigh
  · split at hhigh <;> omega
  · split at hhigh
    · rename_i hmonth
      simp only [List.mem_cons, List.not_mem_nil, or_false] at hmonth
      omega
    · split at hhigh <;> omega

namespace DateTime

theorem shown_bounds (t : DateTime) : t.hour < 24 ∧ t.minute < 60 ∧ t.shownSecond ≤ 60 := by
  have hsecond := t.second_lt
  have hnanosecond := t.nanosecond_lt
  refine ⟨t.hour_lt, t.minute_lt, ?_⟩
  rw [shownSecond]
  omega

/-- The moment at which the second of a moment began. -/
def startOfSecond (t : DateTime) : DateTime :=
  .atSecond t.date t.hour t.minute t.shownSecond t.shown_bounds

/-- Whether a second begins at a moment: it has no nanoseconds, or is the start of a leap second. -/
def IsWhole (t : DateTime) : Prop :=
  t.nanosecond = 0 ∨ t.second = 59 ∧ t.nanosecond = 1000000000

instance (t : DateTime) : Decidable t.IsWhole := inferInstanceAs (Decidable (_ ∨ _))

theorem startOfSecond_eq_self_iff {t : DateTime} : t.startOfSecond = t ↔ t.IsWhole := by
  have hshown : t.shownSecond = t.second + t.nanosecond / 1000000000 := rfl
  have hsecond := t.second_lt
  have hnanosecond := t.nanosecond_lt
  cases t
  simp only [startOfSecond, atSecond, IsWhole, mk.injEq, true_and]
  dsimp only at hshown hsecond hnanosecond
  split <;> omega

theorem shownSecond_atSecond (date : Date) {hour minute second : Nat}
    (h : hour < 24 ∧ minute < 60 ∧ second ≤ 60) :
    (atSecond date hour minute second h).shownSecond = second := by
  have hsecond := h.2.2
  simp only [shownSecond, atSecond]
  split <;> omega

/-- A moment and the start of its second have the same text. -/
theorem text_startOfSecond (t : DateTime) : t.startOfSecond.text = t.text := by
  have htime : t.startOfSecond.timeChars = t.timeChars := by
    rw [timeChars, startOfSecond, shownSecond_atSecond]
    rfl
  rw [text, chars, htime]
  rfl

end DateTime

namespace Calendar

open Text (padded EndsDigits)

theorem readMark_self (mark : Char) (cs : List Char) : readMark mark (mark :: cs) = .ok cs :=
  if_pos rfl

theorem readDay_chars (d : Date) {rest : List Char} (hrest : EndsDigits rest) :
    readDay (d.chars ++ rest) = .ok ((d.year, d.month, d.day), rest) := by
  obtain ⟨hmonth, hmonth', hday, hday'⟩ := d.dayExists.bounds
  have hend : EndsDigits ('-' :: (padded 2 d.day ++ rest)) := Text.endsDigits_cons rfl _
  rw [readDay, Date.chars, List.append_assoc, List.append_assoc]
  refine bind_eq_ok_iff.2 ⟨_, readYear_yearChars d.dayExists.1 d.dayExists.2.1 _, ?_⟩
  refine bind_eq_ok_iff.2 ⟨_, readMark_self '-' _, ?_⟩
  refine bind_eq_ok_iff.2 ⟨_, readItem_padded hmonth hmonth' (by omega) hend, ?_⟩
  refine bind_eq_ok_iff.2 ⟨_, readMark_self '-' _, ?_⟩
  exact bind_eq_ok_iff.2 ⟨_, readItem_padded hday hday' (by omega) hrest, rfl⟩

theorem dateOf_eq_ok (d : Date) : dateOf d.year d.month d.day = .ok d := dif_pos d.dayExists

/-- A date is read as it was written. -/
theorem readDate_text (d : Date) : readDate d.text = .ok d := by
  have hday := readDay_chars d Text.endsDigits_nil
  rw [List.append_nil] at hday
  rw [readDate, Date.text, String.toList_ofList]
  refine bind_eq_ok_iff.2 ⟨_, hday, ?_⟩
  exact bind_eq_ok_iff.2 ⟨(), rfl, dateOf_eq_ok d⟩

/-- A moment is read as the beginning of the second that its text shows. -/
theorem readDateTime_text (t : DateTime) : readDateTime t.text = .ok t.startOfSecond := by
  have hbounds := t.shown_bounds
  have hcolon : ∀ cs, EndsDigits (':' :: cs) := Text.endsDigits_cons rfl
  have hlast := readItem_padded (Nat.zero_le _) hbounds.2.2 (by omega) Text.endsDigits_nil
  rw [List.append_nil] at hlast
  rw [readDateTime, DateTime.text, String.toList_ofList, DateTime.chars, DateTime.timeChars,
    List.append_assoc]
  refine bind_eq_ok_iff.2 ⟨_, readDay_chars t.date (Text.endsDigits_cons rfl _), ?_⟩
  refine bind_eq_ok_iff.2 ⟨_, readMark_self 'T' _, ?_⟩
  refine bind_eq_ok_iff.2
    ⟨_, readItem_padded (Nat.zero_le _) (by omega) (by omega) (hcolon _), ?_⟩
  refine bind_eq_ok_iff.2 ⟨_, readMark_self ':' _, ?_⟩
  refine bind_eq_ok_iff.2
    ⟨_, readItem_padded (Nat.zero_le _) (by omega) (by omega) (hcolon _), ?_⟩
  refine bind_eq_ok_iff.2 ⟨_, readMark_self ':' _, ?_⟩
  refine bind_eq_ok_iff.2 ⟨_, hlast, ?_⟩
  refine bind_eq_ok_iff.2 ⟨(), rfl, ?_⟩
  refine bind_eq_ok_iff.2 ⟨_, dateOf_eq_ok t.date, ?_⟩
  exact dif_pos hbounds

end Calendar

end TypedSql
