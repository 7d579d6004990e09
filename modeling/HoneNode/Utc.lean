import HoneNode.Lib.Calendar
import HoneNode.Lib.FixedWidth
import HoneNode.Prog

/-!
# Utc — `format_utc` of the licence crate

Years are counted from March, so that the leap day is the last day of its year, and
in eras of 400 years. The date that comes out is the calendar's date of that day.
-/

namespace HoneNode

namespace Utc

open Calendar

/-! ## The conversion -/

/-- `i64` arithmetic, with the overflow checks of a debug build. -/
def checkI64 (op : String) (x : ℤ) : Except Fault ℤ :=
  if -2 ^ 63 ≤ x ∧ x < 2 ^ 63 then .ok x
  else .error (.panic ("attempt to " ++ op ++ " with overflow"))

def addI64 (a b : ℤ) : Except Fault ℤ := checkI64 "add" (a + b)

def subI64 (a b : ℤ) : Except Fault ℤ := checkI64 "subtract" (a - b)

def mulI64 (a b : ℤ) : Except Fault ℤ := checkI64 "multiply" (a * b)

/-- The date part of `format_utc`: year, month and day. -/
def civilFromDays (days : ℤ) : Except Fault (ℤ × ℤ × ℤ) := do
  let z ← addI64 days 719468
  let era := z / 146097
  let doe := z % 146097
  let yoe := (← subI64 (← addI64 (← subI64 doe (doe.tdiv 1460)) (doe.tdiv 36524))
    (doe.tdiv 146096)).tdiv 365
  let doy ← subI64 doe (← subI64 (← addI64 (← mulI64 365 yoe) (yoe.tdiv 4)) (yoe.tdiv 100))
  let mp := (← addI64 (← mulI64 5 doy) 2).tdiv 153
  let d ← addI64 (← subI64 doy ((← addI64 (← mulI64 153 mp) 2).tdiv 5)) 1
  let m ← if mp < 10 then addI64 mp 3 else subI64 mp 9
  let y ← addI64 (← addI64 yoe (← mulI64 era 400)) (if m ≤ 2 then 1 else 0)
  return (y, m, d)

/-- A number as `{:0width}` prints it. -/
def padded (width : ℕ) (n : ℤ) : String :=
  let sign := if n < 0 then ['-'] else []
  let digits := Nat.toDigits 10 n.natAbs
  String.ofList
    (sign ++ List.replicate (width - (sign.length + digits.length)) '0' ++ digits)

def formatUtc (secs : ℕ) : Except Fault String := do
  let days : ℤ := (secs / 86400 : ℕ)
  let rem := secs % 86400
  let (y, m, d) ← civilFromDays days
  return padded 4 y ++ "-" ++ padded 2 m ++ "-" ++ padded 2 d ++ "T" ++ padded 2 (rem / 3600 : ℕ) ++
    ":" ++ padded 2 (rem % 3600 / 60 : ℕ) ++ ":" ++ padded 2 (rem % 60 : ℕ) ++ "Z"

/-! ## The year of an era -/

section Era

variable {doe doy : ℤ}

/-- The days of an era less its leap days so far. -/
def plainDays (doe : ℤ) : ℤ := doe - doe / 1460 + doe / 36524 - doe / 146096

theorem plainDays_mono {a b : ℤ} (h : a ≤ b) : plainDays a ≤ plainDays b := by
  have hyears : a - a / 1460 ≤ b - b / 1460 := by omega
  have hcentury : a / 36524 ≤ b / 36524 := Int.ediv_le_ediv (by decide) h
  have hfour : ∀ x : ℤ, x / 146096 = x / 36524 / 4 := fun x => by omega
  unfold plainDays
  rw [hfour, hfour]
  omega

/-- The first and the last day of every year of an era. -/
theorem plainDays_ends : ∀ y : ℕ, y < 400 →
    plainDays (365 * (y : ℤ) + leapYears y) / 365 = y ∧
      plainDays (365 * ((y : ℤ) + 1) + leapYears ((y : ℤ) + 1) - 1) / 365 = y := by
  decide +kernel

/-- The year that `format_utc` computes holds the day. -/
theorem year_of_era (hlow : 0 ≤ doe) (hhigh : doe < 146097) :
    0 ≤ plainDays doe / 365 ∧ plainDays doe / 365 < 400 ∧
      365 * (plainDays doe / 365) + leapYears (plainDays doe / 365) ≤ doe ∧
      doe < 365 * (plainDays doe / 365 + 1) + leapYears (plainDays doe / 365 + 1) := by
  have hmono : ∀ {a b : ℤ}, a ≤ b → plainDays a / 365 ≤ plainDays b / 365 := fun h =>
    Int.ediv_le_ediv (by decide) (plainDays_mono h)
  have hzero : 0 ≤ plainDays doe / 365 := hmono hlow
  have htop : plainDays doe / 365 ≤ 399 := hmono (show doe ≤ 146096 by omega)
  obtain ⟨y, hy⟩ := Int.eq_ofNat_of_zero_le hzero
  have hlt : y < 400 := by omega
  rw [hy]
  refine ⟨by omega, by omega, ?_, ?_⟩
  · by_contra hbefore
    have hpos : y ≠ 0 := by
      rintro rfl
      exact hbefore hlow
    obtain ⟨w, rfl⟩ := Nat.exists_eq_add_one_of_ne_zero hpos
    push_cast at hbefore hy
    have hend := (plainDays_ends w (by omega)).2
    have hle := hmono (show doe ≤ 365 * ((w : ℤ) + 1) + leapYears ((w : ℤ) + 1) - 1 by omega)
    omega
  · by_contra hafter
    by_cases hlast : y = 399
    · subst hlast
      exact hafter (lt_of_lt_of_le hhigh (by decide))
    · have hstart := (plainDays_ends (y + 1) (by omega)).1
      push_cast at hstart
      have hle := hmono (show 365 * ((y : ℤ) + 1) + leapYears ((y : ℤ) + 1) ≤ doe by omega)
      omega

end Era

/-! ## The month -/

section March

variable {Y doy : ℤ}

/-- Counted from March, month and day are those of the calendar. -/
theorem date_of_march (hlow : 0 ≤ doy) (hhigh : doy < yearLength (Y + 1)) :
    ∃ x : Date,
      x.month = (if (5 * doy + 2) / 153 < 10 then (5 * doy + 2) / 153 + 3
        else (5 * doy + 2) / 153 - 9) ∧
      x.day = doy - (153 * ((5 * doy + 2) / 153) + 2) / 5 + 1 ∧
      x.year = Y + (if x.month ≤ 2 then 1 else 0) ∧
      x.dayNumber = 365 * Y + leapYears Y + doy - 719468 := by
  have hlength := yearLength_le (Y + 1)
  have hstart : ∀ y, yearStart y = 365 * (y - 1970) + (leapYears (y - 1) - 477) := yearStart_eq
  obtain ⟨mp, hmp⟩ : ∃ mp, mp = (5 * doy + 2) / 153 := ⟨_, rfl⟩
  rw [← hmp]
  by_cases hspring : mp < 10
  · have hmonth := monthStart_eq Y (m := mp + 3) (by omega) (by omega)
    have hnext := monthStart_eq Y (m := mp + 3 + 1) (by omega) (by omega)
    have hleap := yearLength_eq Y
    rw [if_neg (by omega), add_sub_cancel_right] at hmonth
    rw [if_neg (by omega), show mp + 3 + 1 - 3 = mp + 1 by omega] at hnext
    have hstep := monthStart_add_one Y (m := mp + 3) (by omega)
    have hbefore : doy + 1 ≤ (153 * (mp + 1) + 2) / 5 :=
      Int.le_ediv_of_mul_le (by decide) (by omega)
    have hday : doy - (153 * mp + 2) / 5 + 1 ≤ monthLength Y (mp + 3) := by omega
    refine ⟨⟨Y, mp + 3, doy - (153 * mp + 2) / 5 + 1, by omega, by omega, hday⟩,
      (if_pos hspring).symm, rfl, ?_, ?_⟩
    · dsimp only
      rw [if_neg (by omega), Int.add_zero]
    · rw [Date.dayNumber, hstart, hmonth]
      dsimp only
      unfold yearLength at hleap
      split at hleap <;> rename_i h
      · rw [if_pos h]
        omega
      · rw [if_neg h]
        omega
  · have hmonth := monthStart_eq (Y + 1) (m := mp - 9) (by omega) (by omega)
    rw [if_pos (by omega)] at hmonth
    have hday : doy - (153 * mp + 2) / 5 + 1 ≤ monthLength (Y + 1) (mp - 9) := by
      rcases (by omega : mp = 10 ∨ mp = 11) with rfl | rfl
      · change doy - 306 + 1 ≤ 31
        omega
      · unfold yearLength at hhigh
        change doy - 337 + 1 ≤ if IsLeap (Y + 1) then 29 else 28
        split at hhigh <;> rename_i h
        · rw [if_pos h]
          omega
        · rw [if_neg h]
          omega
    refine ⟨⟨Y + 1, mp - 9, doy - (153 * mp + 2) / 5 + 1, by omega, by omega, hday⟩,
      (if_neg hspring).symm, rfl, ?_, ?_⟩
    · dsimp only
      rw [if_pos (by omega)]
    · rw [Date.dayNumber, hstart, hmonth]
      dsimp only
      rw [add_sub_cancel_right]
      omega

end March

/-! ## No step overflows -/

section Steps

variable {op : String} {a b : ℤ}

theorem checkI64_eq (hlow : -2 ^ 62 ≤ a) (hhigh : a ≤ 2 ^ 62) : checkI64 op a = .ok a :=
  if_pos ⟨by omega, by omega⟩

theorem addI64_eq (hlow : -2 ^ 62 ≤ a + b) (hhigh : a + b ≤ 2 ^ 62) : addI64 a b = .ok (a + b) :=
  checkI64_eq hlow hhigh

theorem subI64_eq (hlow : -2 ^ 62 ≤ a - b) (hhigh : a - b ≤ 2 ^ 62) : subI64 a b = .ok (a - b) :=
  checkI64_eq hlow hhigh

theorem mulI64_eq (hlow : -2 ^ 62 ≤ a * b) (hhigh : a * b ≤ 2 ^ 62) : mulI64 a b = .ok (a * b) :=
  checkI64_eq hlow hhigh

theorem leapYears_of_era {y e : ℤ} : leapYears (y + e * 400) = leapYears y + e * 97 := by
  unfold leapYears
  omega

theorem tdiv_eq {n : ℤ} (k : ℤ) (h : 0 ≤ n) : n.tdiv k = n / k := Int.tdiv_eq_ediv_of_nonneg h

/-- The steps to `yoe`. -/
theorem yoe_steps {doe : ℤ} (hlow : 0 ≤ doe) (hhigh : doe < 146097) :
    subI64 doe (doe.tdiv 1460) = .ok (doe - doe / 1460) ∧
      addI64 (doe - doe / 1460) (doe.tdiv 36524) = .ok (doe - doe / 1460 + doe / 36524) ∧
      subI64 (doe - doe / 1460 + doe / 36524) (doe.tdiv 146096) = .ok (plainDays doe) := by
  rw [tdiv_eq 1460 hlow, tdiv_eq 36524 hlow, tdiv_eq 146096 hlow]
  exact ⟨subI64_eq (by omega) (by omega), addI64_eq (by omega) (by omega),
    subI64_eq (by omega) (by omega)⟩

/-- The steps from `yoe` to the days of the years before. -/
theorem doy_steps {yoe : ℤ} (hlow : 0 ≤ yoe) (hhigh : yoe < 400) :
    mulI64 365 yoe = .ok (365 * yoe) ∧
      addI64 (365 * yoe) (yoe.tdiv 4) = .ok (365 * yoe + yoe / 4) ∧
      subI64 (365 * yoe + yoe / 4) (yoe.tdiv 100) = .ok (365 * yoe + leapYears yoe) := by
  have hleap : 365 * yoe + leapYears yoe = 365 * yoe + yoe / 4 - yoe / 100 := by
    unfold leapYears
    omega
  rw [tdiv_eq 4 hlow, tdiv_eq 100 hlow, hleap]
  exact ⟨mulI64_eq (by omega) (by omega), addI64_eq (by omega) (by omega),
    subI64_eq (by omega) (by omega)⟩

/-- The steps from `doy` to month and day. -/
theorem month_steps {doy mp : ℤ} (hlow : 0 ≤ doy) (hhigh : doy ≤ 365)
    (hmp : (5 * doy + 2) / 153 = mp) :
    (mulI64 5 doy = .ok (5 * doy) ∧ addI64 (5 * doy) 2 = .ok (5 * doy + 2) ∧
      (5 * doy + 2).tdiv 153 = mp) ∧
      mulI64 153 mp = .ok (153 * mp) ∧ addI64 (153 * mp) 2 = .ok (153 * mp + 2) ∧
      subI64 doy ((153 * mp + 2).tdiv 5) = .ok (doy - (153 * mp + 2) / 5) ∧
      addI64 (doy - (153 * mp + 2) / 5) 1 = .ok (doy - (153 * mp + 2) / 5 + 1) ∧
      addI64 mp 3 = .ok (mp + 3) ∧ subI64 mp 9 = .ok (mp - 9) := by
  have hrange : 0 ≤ mp ∧ mp ≤ 11 := by omega
  refine ⟨⟨mulI64_eq (by omega) (by omega), addI64_eq (by omega) (by omega), ?_⟩, ?_⟩
  · rw [tdiv_eq 153 (by omega), hmp]
  · clear hmp
    rw [tdiv_eq 5 (by omega)]
    exact ⟨mulI64_eq (by omega) (by omega), addI64_eq (by omega) (by omega),
      subI64_eq (by omega) (by omega), addI64_eq (by omega) (by omega),
      addI64_eq (by omega) (by omega), subI64_eq (by omega) (by omega)⟩

/-- The steps from `era` to the year. -/
theorem year_steps {era yoe : ℤ} (hera : 0 ≤ era) (hera' : era ≤ 2 ^ 50) (hlow : 0 ≤ yoe)
    (hhigh : yoe < 400) :
    mulI64 era 400 = .ok (era * 400) ∧ addI64 yoe (era * 400) = .ok (yoe + era * 400) ∧
      ∀ late : Prop, ∀ [Decidable late], addI64 (yoe + era * 400) (if late then 1 else 0) =
        .ok (yoe + era * 400 + if late then 1 else 0) := by
  refine ⟨mulI64_eq (by omega) (by omega), addI64_eq (by omega) (by omega), ?_⟩
  intro late _
  by_cases h : late
  · rw [if_pos h]
    exact addI64_eq (by omega) (by omega)
  · rw [if_neg h]
    exact addI64_eq (by omega) (by omega)

/-- The date of a day from 1970 on, far beyond the days that a `u64` of seconds has. -/
theorem civilFromDays_eq {days : ℤ} (hlow : 0 ≤ days) (hhigh : days ≤ 2 ^ 60) :
    ∃ x : Date, civilFromDays days = .ok (x.year, x.month, x.day) ∧ x.dayNumber = days := by
  obtain ⟨era, hera⟩ : ∃ era, (days + 719468) / 146097 = era := ⟨_, rfl⟩
  obtain ⟨doe, hdoe⟩ : ∃ doe, (days + 719468) % 146097 = doe := ⟨_, rfl⟩
  have hdoeLow : 0 ≤ doe := by omega
  have hdoeHigh : doe < 146097 := by omega
  obtain ⟨hyoe, hyoe', hfirst, hlast⟩ := year_of_era hdoeLow hdoeHigh
  obtain ⟨yoe, hyear⟩ : ∃ yoe, plainDays doe / 365 = yoe := ⟨_, rfl⟩
  rw [hyear] at hyoe hyoe' hfirst hlast
  obtain ⟨doy, hdoy⟩ : ∃ doy, doe - (365 * yoe + leapYears yoe) = doy := ⟨_, rfl⟩
  have hlength := yearLength_eq (yoe + era * 400 + 1)
  rw [add_sub_cancel_right, add_right_comm, leapYears_of_era, leapYears_of_era] at hlength
  rw [add_right_comm] at hlength
  obtain ⟨x, hmonth, hday, hyr, hnumber⟩ := @date_of_march (yoe + era * 400) doy
    (by omega) (by omega)
  rw [leapYears_of_era] at hnumber
  refine ⟨x, ?_, by omega⟩
  obtain ⟨mp, hmp⟩ : ∃ mp, (5 * doy + 2) / 153 = mp := ⟨_, rfl⟩
  rw [hmp] at hmonth hday
  have hz : addI64 days 719468 = .ok (days + 719468) := addI64_eq (by omega) (by omega)
  obtain ⟨hquarter, hcentury, hplain⟩ := yoe_steps hdoeLow hdoeHigh
  have hyoeDiv : (plainDays doe).tdiv 365 = yoe := by rw [tdiv_eq 365 (by omega), hyear]
  obtain ⟨hyears, hfours, hhundreds⟩ := doy_steps hyoe hyoe'
  have hdoyHigh : doy ≤ 365 := by
    have hle := yearLength_le (yoe + era * 400 + 1)
    omega
  have hdoyStep : subI64 doe (365 * yoe + leapYears yoe) = .ok doy := by
    rw [subI64_eq (by omega) (by omega), hdoy]
  obtain ⟨⟨hfive, hfive2, hmpDiv⟩, hpattern, hpattern2, hback, hd, hthree, hnine⟩ :=
    month_steps (by omega) hdoyHigh hmp
  obtain ⟨heras, hsum, hlate⟩ := @year_steps era yoe (by omega) (by omega) hyoe hyoe'
  rw [← hday] at hd
  simp only [civilFromDays, bind, Except.bind, pure, Except.pure, hz, hera, hdoe, hquarter,
    hcentury, hplain, hyoeDiv, hyears, hfours, hhundreds, hdoyStep, hfive, hfive2, hmpDiv, hpattern,
    hpattern2, hback, hd, heras, hsum]
  by_cases hspring : mp < 10
  · rw [if_pos hspring] at hmonth ⊢
    simp only [hthree, ← hmonth, hlate, ← hyr]
  · rw [if_neg hspring] at hmonth ⊢
    simp only [hnine, ← hmonth, hlate, ← hyr]

end Steps

/-! ## The text -/

/-- The text of a date and a time of the day. -/
def stamp (x : Date) (hour minute second : ℕ) : String :=
  padded 4 x.year ++ "-" ++ padded 2 x.month ++ "-" ++ padded 2 x.day ++ "T" ++ padded 2 hour ++
    ":" ++ padded 2 minute ++ ":" ++ padded 2 second ++ "Z"

/-- The text shows the instant: the one date of its day, and its time of the day. -/
structure Shows (secs : ℕ) (x : Date) (text : String) : Prop where
  day : x.dayNumber = (secs / 86400 : ℕ)
  only : ∀ z : Date, z.dayNumber = (secs / 86400 : ℕ) → z = x
  clock : ∃ hour minute second, hour < 24 ∧ minute < 60 ∧ second < 60 ∧
    3600 * hour + 60 * minute + second = secs % 86400 ∧ text = stamp x hour minute second

theorem formatUtc_eq {secs : ℕ} {y m d : ℤ}
    (h : civilFromDays (secs / 86400 : ℕ) = .ok (y, m, d)) :
    formatUtc secs = .ok (padded 4 y ++ "-" ++ padded 2 m ++ "-" ++ padded 2 d ++ "T" ++
      padded 2 (secs % 86400 / 3600 : ℕ) ++ ":" ++ padded 2 (secs % 86400 % 3600 / 60 : ℕ) ++ ":" ++
      padded 2 (secs % 86400 % 60 : ℕ) ++ "Z") := by
  rw [formatUtc, h]
  rfl

theorem formatUtc_shows {secs : ℕ} (h : secs < 2 ^ 64) :
    ∃ x text, formatUtc secs = .ok text ∧ Shows secs x text := by
  obtain ⟨x, hrun, hday⟩ := @civilFromDays_eq (secs / 86400 : ℕ) (by omega) (by omega)
  have honly : ∀ z : Date, z.dayNumber = (secs / 86400 : ℕ) → z = x := fun z hz =>
    Date.dayNumber_injective (hz.trans hday.symm)
  refine ⟨x, _, formatUtc_eq hrun, hday, honly, secs % 86400 / 3600, secs % 86400 % 3600 / 60,
    secs % 86400 % 60, ?_, ?_, ?_, ?_, ?_⟩
  · omega
  · omega
  · omega
  · omega
  · rw [stamp]

theorem toList_padded {width n : ℕ} (hw : 0 < width) (hn : n < 10 ^ width) :
    (padded width n).toList = FixedWidth.digits 10 width n := by
  rw [← FixedWidth.padZeros_eq (by decide) hw hn, padded, String.toList_ofList,
    if_neg (Int.not_lt.2 (Int.natCast_nonneg n)), List.nil_append, List.length_nil, Nat.zero_add,
    Int.natAbs_natCast]
  rfl

/-- The characters of a text with a four-digit year. -/
theorem toList_stamp {x : Date} (hlow : 0 ≤ x.year) (hhigh : x.year ≤ 9999)
    {hour minute second : ℕ} (hh : hour < 100) (hm : minute < 100) (hs : second < 100) :
    (stamp x hour minute second).toList =
      FixedWidth.digits 10 4 x.year.toNat ++ '-' :: (FixedWidth.digits 10 2 x.month.toNat ++
        '-' :: (FixedWidth.digits 10 2 x.day.toNat ++ 'T' :: (FixedWidth.digits 10 2 hour ++
        ':' :: (FixedWidth.digits 10 2 minute ++ ':' :: (FixedWidth.digits 10 2 second ++
        ['Z']))))) := by
  have hmonth := x.month_range
  have hday := x.day_range
  have hlength := monthLength_le x.year x.month
  have hyear : (padded 4 x.year).toList = FixedWidth.digits 10 4 x.year.toNat := by
    rw [← toList_padded (by decide) (by omega), Int.toNat_of_nonneg hlow]
  have hmo : (padded 2 x.month).toList = FixedWidth.digits 10 2 x.month.toNat := by
    rw [← toList_padded (by decide) (by omega), Int.toNat_of_nonneg (by omega)]
  have hda : (padded 2 x.day).toList = FixedWidth.digits 10 2 x.day.toNat := by
    rw [← toList_padded (by decide) (by omega), Int.toNat_of_nonneg (by omega)]
  simp only [stamp, String.toList_append, hyear, hmo, hda, toList_padded Nat.two_pos hh,
    toList_padded Nat.two_pos hm, toList_padded Nat.two_pos hs, List.append_assoc]
  rfl

/-- Up to the year 9999 the texts are in the order of the instants. -/
theorem text_lt_iff {a b : ℕ} {x z : Date} {s t : String} (hs : Shows a x s) (ht : Shows b z t)
    (hx : x.year ≤ 9999) (hz : z.year ≤ 9999) : s < t ↔ a < b := by
  obtain ⟨hour, minute, second, hh, hm, hsec, hclock, rfl⟩ := hs.clock
  obtain ⟨hour', minute', second', hh', hm', hsec', hclock', rfl⟩ := ht.clock
  have hxlow := Date.le_year_of_dayNumber (hs.day ▸ Int.natCast_nonneg _)
  have hzlow := Date.le_year_of_dayNumber (ht.day ▸ Int.natCast_nonneg _)
  have hxm := x.month_range
  have hzm := z.month_range
  have hxd := x.day_range
  have hzd := z.day_range
  have hxl := monthLength_le x.year x.month
  have hzl := monthLength_le z.year z.month
  rw [String.lt_iff, toList_stamp (by omega) hx (by omega) (by omega) (by omega),
    toList_stamp (by omega) hz (by omega) (by omega) (by omega),
    FixedWidth.digits_append_lt_iff (by decide) (by decide) (by omega) (by omega),
    FixedWidth.digits_append_lt_iff (by decide) (by decide) (by omega) (by omega),
    FixedWidth.digits_append_lt_iff (by decide) (by decide) (by omega) (by omega),
    FixedWidth.digits_append_lt_iff (by decide) (by decide) (by omega) (by omega),
    FixedWidth.digits_append_lt_iff (by decide) (by decide) (by omega) (by omega),
    FixedWidth.digits_append_lt_iff (by decide) (by decide) (by omega) (by omega)]
  have hdays : x.Earlier z ↔ a / 86400 < b / 86400 := by
    rw [← Date.dayNumber_lt_iff, hs.day, ht.day, Int.ofNat_lt]
  have hsame : x.year = z.year ∧ x.month = z.month ∧ x.day = z.day ↔ a / 86400 = b / 86400 := by
    constructor
    · rintro ⟨hy, hmo, hd⟩
      have hdate : x = z := Date.ext hy hmo hd
      rw [← Int.natCast_inj, ← hs.day, ← ht.day, hdate]
    · intro h
      have hdate : x = z := ht.only x (h ▸ hs.day)
      rw [hdate]
      exact ⟨rfl, rfl, rfl⟩
  have hend : ¬ ([] : List Char) < [] := List.not_lt_nil []
  rw [FixedWidth.lt_iff_div_mod 86400 a b, ← hdays, ← hsame, ← hclock, ← hclock', Date.Earlier]
  simp only [hend, and_false, or_false]
  omega

/-- `format_utc` shows every instant, in the order of time up to the year 9999. -/
theorem formatUtc_exact :
    (∀ secs : UInt64, ∃ x text, formatUtc secs.toNat = .ok text ∧ Shows secs.toNat x text) ∧
    ∀ (a b : UInt64) (x z : Date) (s t : String), Shows a.toNat x s → Shows b.toNat z t →
      x.year ≤ 9999 → z.year ≤ 9999 → (s < t ↔ a < b) := by
  constructor
  · exact fun secs => formatUtc_shows secs.toNat_lt
  · intro a b x z s t hs ht hx hz
    rw [text_lt_iff hs ht hx hz]
    exact UInt64.lt_iff_toNat_lt.symm

example : formatUtc 951782400 = .ok "2000-02-29T00:00:00Z" := by rfl

end Utc

end HoneNode
