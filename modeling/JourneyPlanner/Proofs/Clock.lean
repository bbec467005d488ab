import JourneyPlanner.Clock
import Mathlib.Algebra.Group.Nat.Defs

/-! What is read as a clock time, and what is written for one. Main statement: exactly the texts of
the form HH:MM:SS are read, as the time they tell; every time has a text of its own, and that text
is read again as the time it was written for exactly from midnight up to a thousand hours. -/
namespace JourneyPlanner.Clock

/-- A text of decimal digits, with the number that it is in base ten. -/
structure Numeral (chars : List Char) (value : Nat) : Prop where
  isDigit : ∀ c ∈ chars, c.isDigit = true
  ofDigitChars : Nat.ofDigitChars 10 chars 0 = value

/-- A text of the form HH:MM:SS, with the time it tells. There are one to three digits of hours. -/
inductive Tells : List Char → Int → Prop
  | intro {hours minutes seconds : List Char} {h m s : Nat}
      (hHours : Numeral hours h) (hMinutes : Numeral minutes m) (hSeconds : Numeral seconds s)
      (one_le_length_hours : 1 ≤ hours.length) (length_hours_le : hours.length ≤ 3)
      (length_minutes : minutes.length = 2) (length_seconds : seconds.length = 2)
      (minutes_lt : m < 60) (seconds_lt : s < 60) :
      Tells (hours ++ ':' :: minutes ++ ':' :: seconds) (3600 * h + 60 * m + s)

section Digits

variable {c : Char} {chars : List Char} {value width n m : Nat}

theorem digit?_eq_some_iff :
    digit? c = some n ↔ c.isDigit = true ∧ c.toNat - '0'.toNat = n := by
  have hDigit : ('0' ≤ c ∧ c ≤ '9') ↔ c.isDigit = true := by
    simp only [Char.isDigit, Bool.and_eq_true, decide_eq_true_iff]
    rfl
  by_cases h : '0' ≤ c ∧ c ≤ '9'
  · simp [digit?, h, hDigit.mp h]
  · simp [digit?, h, mt hDigit.mpr h]

theorem digitsFrom?_eq_some_iff : digitsFrom? value chars = some n ↔
    (∀ c ∈ chars, c.isDigit = true) ∧ Nat.ofDigitChars 10 chars value = n := by
  induction chars generalizing value with
  | nil => simp [digitsFrom?]
  | cons c rest ih =>
      rw [digitsFrom?, List.forall_mem_cons, Nat.ofDigitChars_cons]
      cases hDigit : digit? c with
      | none =>
          have hNot : ¬ c.isDigit = true := by
            intro h
            rw [digit?_eq_some_iff.mpr ⟨h, rfl⟩] at hDigit
            cases hDigit
          simp [hNot]
      | some d =>
          obtain ⟨hIs, rfl⟩ := digit?_eq_some_iff.mp hDigit
          simp [ih, hIs]

/-- The reader of digits accepts exactly the decimal numerals. -/
theorem digitsFrom?_zero_eq_some_iff : digitsFrom? 0 chars = some n ↔ Numeral chars n := by
  rw [digitsFrom?_eq_some_iff]
  exact ⟨fun h => ⟨h.1, h.2⟩, fun numeral => ⟨numeral.isDigit, numeral.ofDigitChars⟩⟩

/-- Every digit that follows a number makes it ten times as large, and less than the next number is
then. -/
theorem ofDigitChars_lt (value : Nat) (hDigits : ∀ c ∈ chars, c.isDigit = true) :
    Nat.ofDigitChars 10 chars value < (value + 1) * 10 ^ chars.length := by
  induction chars generalizing value with
  | nil => simp
  | cons c rest ih =>
      obtain ⟨hDigit, hRest⟩ := List.forall_mem_cons.mp hDigits
      have hLt : c.toNat - '0'.toNat < 10 := by
        have hRange := Char.isDigit_iff_toNat.mp hDigit
        simp only [Char.reduceToNat] at *
        omega
      rw [Nat.ofDigitChars_cons, List.length_cons, Nat.pow_succ']
      calc Nat.ofDigitChars 10 rest (10 * value + (c.toNat - '0'.toNat))
          < (10 * value + (c.toNat - '0'.toNat) + 1) * 10 ^ rest.length := ih _ hRest
        _ ≤ (value + 1) * 10 * 10 ^ rest.length := Nat.mul_le_mul_right _ (by omega)
        _ = (value + 1) * (10 * 10 ^ rest.length) := Nat.mul_assoc ..

namespace Numeral

/-- No text is that of two numbers. -/
theorem unique (numeral : Numeral chars n) (other : Numeral chars m) : n = m :=
  numeral.ofDigitChars.symm.trans other.ofDigitChars

theorem not_mem (numeral : Numeral chars n) (hNot : c.isDigit = false) : c ∉ chars := by
  intro hMem
  rw [numeral.isDigit c hMem] at hNot
  cases hNot

/-- A numeral of so many digits tells less than that power of ten. -/
theorem lt_pow (numeral : Numeral chars n) : n < 10 ^ chars.length := by
  have hLt := ofDigitChars_lt 0 numeral.isDigit
  rwa [numeral.ofDigitChars, Nat.zero_add, Nat.one_mul] at hLt

end Numeral

theorem numeral_padded (width n : Nat) : Numeral (padded width n) n := by
  constructor
  · intro c hMem
    rcases List.mem_append.mp hMem with hZero | hDigit
    · rw [List.eq_of_mem_replicate hZero]
      rfl
    · exact Nat.isDigit_of_mem_toDigits (by decide) (by decide) hDigit
  · rw [padded, Nat.ofDigitChars_append, Nat.ofDigitChars_replicate_zero, Nat.mul_zero,
      Nat.ofDigitChars_ten_toDigits]

/-- A padded number fits a width exactly when it has that many digits or fewer. -/
theorem length_padded_le_iff {length : Nat} (hWidth : width ≤ length) (hLength : 0 < length) :
    (padded width n).length ≤ length ↔ n < 10 ^ length := by
  rw [← Nat.length_toDigits_le_iff (by decide) hLength, padded]
  simp only [List.length_append, List.length_replicate]
  omega

theorem le_length_padded (width n : Nat) : width ≤ (padded width n).length := by
  simp only [padded, List.length_append, List.length_replicate]
  omega

theorem length_padded_two (h : n < 100) : (padded 2 n).length = 2 := by
  apply Nat.le_antisymm
  · exact (length_padded_le_iff (Nat.le_refl 2) (by decide)).mpr h
  · exact le_length_padded 2 n

end Digits

section Fields

variable {hours minutes seconds : List Char} {time : Int}

/-- The fields of a text are what stands between its colons. -/
theorem fields_eq_splitOn (chars : List Char) : fields chars = chars.splitOn ':' := by
  induction chars with
  | nil => rfl
  | cons c rest ih =>
      rw [fields, List.splitOn_cons_eq_if_modifyHead, ih]
      by_cases hColon : c = ':'
      · simp [hColon]
      · cases hRest : rest.splitOn ':' with
        | nil => exact absurd hRest (List.splitOn_ne_nil _ _)
        | cons first others => simp [hColon]

/-- The fields of three texts with colons between them are these, if there are no others. -/
theorem fields_join (hHours : ':' ∉ hours) (hMinutes : ':' ∉ minutes) (hSeconds : ':' ∉ seconds) :
    fields (hours ++ ':' :: minutes ++ ':' :: seconds) = [hours, minutes, seconds] := by
  have hJoin : [':'].intercalate [hours, minutes, seconds] =
      hours ++ ':' :: minutes ++ ':' :: seconds := by
    simp [List.intercalate]
  rw [fields_eq_splitOn, ← hJoin]
  apply List.splitOn_intercalate
  · simp [hHours, hMinutes, hSeconds]
  · exact List.cons_ne_nil _ _

theorem join_of_fields {chars : List Char} (h : fields chars = [hours, minutes, seconds]) :
    chars = hours ++ ':' :: minutes ++ ':' :: seconds := by
  rw [← @List.intercalate_splitOn _ chars _ _ ':', ← fields_eq_splitOn, h]
  simp [List.intercalate]

/-- Three fields tell a time exactly when their lengths, digits and ranges allow it. -/
theorem ofFields?_eq_some_iff : ofFields? hours minutes seconds = some time ↔
    (1 ≤ hours.length ∧ hours.length ≤ 3) ∧ (minutes.length = 2 ∧ seconds.length = 2) ∧
      ∃ h, Numeral hours h ∧ ∃ m, Numeral minutes m ∧ ∃ s, Numeral seconds s ∧
        (m < 60 ∧ s < 60) ∧ 3600 * h + 60 * m + s = time := by
  have hGuards : ofFields? hours minutes seconds =
      (if 1 ≤ hours.length ∧ hours.length ≤ 3 then some () else none).bind fun _ =>
      (if minutes.length = 2 ∧ seconds.length = 2 then some () else none).bind fun _ =>
      (digitsFrom? 0 hours).bind fun h => (digitsFrom? 0 minutes).bind fun m =>
      (digitsFrom? 0 seconds).bind fun s => (if m < 60 ∧ s < 60 then some () else none).bind fun _ =>
      some ((3600 * h + 60 * m + s : Int)) := rfl
  rw [hGuards]
  simp [← digitsFrom?_zero_eq_some_iff, Option.bind_eq_some_iff]

end Fields

section Parse

variable {text : String} {time : Int} {error : ParseError}

/-- A text is read exactly when it has three fields that tell a time. -/
theorem parse_eq_ok_iff_ofFields? : parse text = .ok time ↔
    ∃ hours minutes seconds, fields text.toList = [hours, minutes, seconds] ∧
      ofFields? hours minutes seconds = some time := by
  constructor
  · intro h
    unfold parse at h
    split at h
    · rename_i hours minutes seconds hFields
      split at h
      · rename_i hTime
        cases h
        exact ⟨hours, minutes, seconds, hFields, hTime⟩
      · cases h
    · cases h
  · rintro ⟨hours, minutes, seconds, hFields, hTime⟩
    simp only [parse, hFields, hTime]

/-- Exactly the texts of the form are read, as the times they tell. -/
theorem parse_eq_ok_iff : parse text = .ok time ↔ Tells text.toList time := by
  rw [parse_eq_ok_iff_ofFields?]
  constructor
  · rintro ⟨hours, minutes, seconds, hFields, hTime⟩
    obtain ⟨⟨hOne, hThree⟩, ⟨hTwo, hTwo'⟩, h, hHours, m, hMinutes, s, hSeconds, ⟨hM, hS⟩, rfl⟩ :=
      ofFields?_eq_some_iff.mp hTime
    rw [join_of_fields hFields]
    exact .intro hHours hMinutes hSeconds hOne hThree hTwo hTwo' hM hS
  · intro tells
    generalize text.toList = chars at tells
    cases tells with
    | intro hHours hMinutes hSeconds hOne hThree hTwo hTwo' hM hS =>
        have hColon : ':'.isDigit = false := rfl
        have hFields := fields_join (hHours.not_mem hColon) (hMinutes.not_mem hColon)
          (hSeconds.not_mem hColon)
        have hTime := ofFields?_eq_some_iff.mpr
          ⟨⟨hOne, hThree⟩, ⟨hTwo, hTwo'⟩, _, hHours, _, hMinutes, _, hSeconds, ⟨hM, hS⟩, rfl⟩
        exact ⟨_, _, _, hFields, hTime⟩

/-- An error carries the text that was refused. -/
theorem eq_of_parse_eq_error (h : parse text = .error error) : error = ⟨text⟩ := by
  unfold parse at h
  split at h
  · split at h <;> cases h
    rfl
  · cases h
    rfl

/-- A text is refused exactly when it tells no time. -/
theorem parse_eq_error_iff :
    parse text = .error error ↔ error = ⟨text⟩ ∧ ∀ time, ¬ Tells text.toList time := by
  simp only [← parse_eq_ok_iff]
  cases h : parse text with
  | ok time => simp
  | error other =>
      obtain rfl := eq_of_parse_eq_error h
      simp [eq_comm]

/-- Digits in such numbers never make more than can be told, whatever the minutes and seconds. -/
theorem total_le_latest {hours minutes seconds : List Char} {h m s : Nat}
    (hHours : Numeral hours h) (hMinutes : Numeral minutes m) (hSeconds : Numeral seconds s)
    (hThree : hours.length ≤ 3) (hTwo : minutes.length = 2) (hTwo' : seconds.length = 2) :
    (3600 * h + 60 * m + s : Int) ≤ latest := by
  have hH : h < 10 ^ 3 :=
    Nat.lt_of_lt_of_le hHours.lt_pow (Nat.pow_le_pow_right (by decide) hThree)
  have hM : m < 10 ^ 2 := hTwo ▸ hMinutes.lt_pow
  have hS : s < 10 ^ 2 := hTwo' ▸ hSeconds.lt_pow
  simp only [latest]
  omega

end Parse

section Render

variable {time other : Int}

/-- The hours of the text of a time, with the sign in front. -/
def signedHours (time : Int) : List Char :=
  (if time < 0 then ['-'] else []) ++ padded 2 (time.natAbs / 3600)

theorem mem_signedHours_minus_iff : '-' ∈ signedHours time ↔ time < 0 := by
  have hDigits := (numeral_padded 2 (time.natAbs / 3600)).not_mem (show '-'.isDigit = false from rfl)
  by_cases hNegative : time < 0 <;> simp [signedHours, hNegative, hDigits]

theorem signedHours_of_nonneg (h : 0 ≤ time) :
    signedHours time = padded 2 (time.natAbs / 3600) := by
  rw [signedHours, if_neg (Int.not_lt.mpr h), List.nil_append]

/-- A rendered time splits into its hours, its minutes and its seconds. -/
theorem fields_render (time : Int) : fields (render time) =
    [signedHours time, padded 2 (time.natAbs % 3600 / 60), padded 2 (time.natAbs % 60)] := by
  have hColon : ':'.isDigit = false := rfl
  have hPadded : ∀ n, ':' ∉ padded 2 n := fun n => (numeral_padded 2 n).not_mem hColon
  have hHours : ':' ∉ signedHours time := by
    by_cases hNegative : time < 0 <;> simp [signedHours, hNegative, hPadded]
  exact fields_join hHours (hPadded _) (hPadded _)

/-- Two times never share their text. -/
theorem text_injective (h : Clock.text time = Clock.text other) : time = other := by
  have hRender : render time = render other := String.ofList_injective h
  have hFields := congrArg fields hRender
  rw [fields_render, fields_render] at hFields
  injection hFields with hHours hRest
  injection hRest with hMinutes hRest
  injection hRest with hSeconds
  have hSign : time < 0 ↔ other < 0 := by
    rw [← mem_signedHours_minus_iff, hHours, mem_signedHours_minus_iff]
  have hUnsigned : padded 2 (time.natAbs / 3600) = padded 2 (other.natAbs / 3600) := by
    by_cases hNegative : time < 0
    · simpa [signedHours, hNegative, hSign.mp hNegative] using hHours
    · simpa [signedHours, hNegative, mt hSign.mpr hNegative] using hHours
  have hSame : ∀ {n m}, padded 2 n = padded 2 m → n = m := fun {n m} hText =>
    (numeral_padded 2 n).unique (hText ▸ numeral_padded 2 m)
  have hH := hSame hUnsigned
  have hM := hSame hMinutes
  have hS := hSame hSeconds
  omega

/-- The text of a time is read as this time exactly from midnight up to a thousand hours: a sign is
no digit, and from there on there are four digits of hours. -/
theorem parse_text_eq_ok_iff :
    parse (Clock.text time) = .ok time ↔ 0 ≤ time ∧ time < 3600000 := by
  have hFields : fields (Clock.text time).toList = [signedHours time,
      padded 2 (time.natAbs % 3600 / 60), padded 2 (time.natAbs % 60)] := by
    rw [Clock.text, String.toList_ofList, fields_render]
  rw [parse_eq_ok_iff_ofFields?]
  constructor
  · rintro ⟨hours, minutes, seconds, hOther, hTime⟩
    rw [hFields] at hOther
    cases hOther
    obtain ⟨⟨-, hThree⟩, -, h, hHours, -⟩ := ofFields?_eq_some_iff.mp hTime
    have hMinus : '-' ∉ signedHours time := hHours.not_mem rfl
    have hNonneg : 0 ≤ time := Int.not_lt.mp (mt mem_signedHours_minus_iff.mpr hMinus)
    rw [signedHours_of_nonneg hNonneg, length_padded_le_iff (by decide) (by decide)] at hThree
    omega
  · rintro ⟨hNonneg, hLt⟩
    refine ⟨_, _, _, hFields, ofFields?_eq_some_iff.mpr ?_⟩
    rw [signedHours_of_nonneg hNonneg]
    have hHours : (padded 2 (time.natAbs / 3600)).length ≤ 3 :=
      (length_padded_le_iff (by decide) (by decide)).mpr (by omega)
    have hTwo : 2 ≤ (padded 2 (time.natAbs / 3600)).length := le_length_padded _ _
    refine ⟨⟨by omega, hHours⟩, ⟨length_padded_two (by omega), length_padded_two (by omega)⟩, _,
      numeral_padded .., _, numeral_padded .., _, numeral_padded .., by omega, by omega⟩

end Render

/-- Exactly the texts of the form HH:MM:SS are read, as the time they tell, and any other is handed
back as it is. Fields that fit the form by their digits never add up to more than can be told, also
where they are refused for their minutes or seconds. The text of a time is read as this time exactly
from midnight up to a thousand hours, and no two times have the same text. -/
theorem parse_exact :
    (∀ text time, parse text = .ok time ↔ Tells text.toList time) ∧
      (∀ text error, parse text = .error error ↔
        error = ⟨text⟩ ∧ ∀ time, ¬ Tells text.toList time) ∧
      (∀ hours minutes seconds h m s, hours.length ≤ 3 → minutes.length = 2 →
        seconds.length = 2 → digitsFrom? 0 hours = some h → digitsFrom? 0 minutes = some m →
          digitsFrom? 0 seconds = some s → (3600 * h + 60 * m + s : Int) ≤ latest) ∧
      (∀ time, parse (Clock.text time) = .ok time ↔ 0 ≤ time ∧ time < 3600000) ∧
      ∀ time other, Clock.text time = Clock.text other ↔ time = other := by
  refine ⟨fun _ _ => parse_eq_ok_iff, fun _ _ => parse_eq_error_iff, ?_,
    fun _ => parse_text_eq_ok_iff, fun _ _ => ⟨text_injective, congrArg _⟩⟩
  intro hours minutes seconds h m s hThree hTwo hTwo' hHours hMinutes hSeconds
  rw [digitsFrom?_zero_eq_some_iff] at hHours hMinutes hSeconds
  exact total_le_latest hHours hMinutes hSeconds hThree hTwo hTwo'

/-- The last time that is read, the greatest sum of digits, and the earliest time there is. -/
theorem parse_exact_at_the_ends :
    parse "999:59:59" = .ok 3599999 ∧
      (3600 * (999 : Nat) + 60 * (99 : Nat) + (99 : Nat) : Int) ≤ latest ∧
      parse (Clock.text 3599999) = .ok 3599999 ∧ parse (Clock.text 3600000) ≠ .ok 3600000 ∧
      parse (Clock.text earliest) ≠ .ok earliest ∧
      Clock.text earliest ≠ Clock.text (earliest + 1) := by
  obtain ⟨hRead, -, hTotal, hBack, hText⟩ := parse_exact
  have hLast : Tells "999:59:59".toList 3599999 :=
    .intro (numeral_padded 2 999) (numeral_padded 2 59) (numeral_padded 2 59) (by decide)
      (by decide) (by decide) (by decide) (by decide) (by decide)
  refine ⟨(hRead _ _).mpr hLast, ?_, (hBack _).mpr (by decide), mt (hBack _).mp (by decide),
    mt (hBack _).mp (by decide), mt (hText _ _).mp (by decide)⟩
  exact hTotal ['9', '9', '9'] ['9', '9'] ['9', '9'] _ _ _ (by decide) rfl rfl (by decide)
    (by decide) (by decide)

end JourneyPlanner.Clock
