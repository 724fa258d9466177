import JobEngine.Time.Instant
import Mathlib.Tactic.IntervalCases

namespace JobEngine

namespace Date

variable {n c q r k : ℤ} {d e : Date}

def first : Date := (mk? (-262143) 1 1).get (by decide)

def last : Date := (mk? 262142 12 31).get (by decide)

theorem number_first : first.number = -96465292 := by decide

theorem number_last : last.number = 95026236 := by decide

def numberOf (year : ℤ) (month day : ℕ) : ℤ :=
  let y := if month ≤ 2 then year - 1 else year
  y / 400 * 146097 + y % 400 * 365 + y % 400 / 4 - y % 400 / 100 +
    ((153 * ((month + 9) % 12) + 2) / 5 + day - 1) - 719468

/-- Day `n` of an era of 400 years that start in March is day `k` of year `r` of cycle `q` of
century `c`. A cycle has four years, and the last of them a leap day; the last cycle of a century
has none, except in the last century. -/
structure DayOfEra (n c q r k : ℤ) : Prop where
  century : 0 ≤ c ∧ c ≤ 3
  cycle : 0 ≤ q ∧ q ≤ 24
  year : 0 ≤ r ∧ r ≤ 3
  day : 0 ≤ k ∧ k ≤ 365
  leap : k = 365 → r = 3 ∧ (q = 24 → c = 3)
  eq : n = 36524 * c + 1461 * q + 365 * r + k

theorem exists_dayOfEra (h : 0 ≤ n) (h' : n < 146097) : ∃ c q r k, DayOfEra n c q r k := by
  obtain ⟨c, hc⟩ : ∃ c, c = min 3 (n / 36524) := ⟨_, rfl⟩
  obtain ⟨m, hm⟩ : ∃ m, m = n - 36524 * c := ⟨_, rfl⟩
  obtain ⟨r, hr⟩ : ∃ r, r = min 3 (m % 1461 / 365) := ⟨_, rfl⟩
  exact ⟨c, m / 1461, r, m % 1461 - 365 * r, by omega, by omega, by omega, by omega, by omega,
    by omega⟩

namespace DayOfEra

theorem year_eq (h : DayOfEra n c q r k) :
    (n - n / 1460 + n / 36524 - n / 146096) / 365 = 100 * c + 4 * q + r := by
  obtain ⟨⟨hc, hc'⟩, ⟨hq, hq'⟩, ⟨hr, hr'⟩, ⟨hk, hk'⟩, hl, hn⟩ := h
  by_cases hlast : n = 146096
  · obtain ⟨rfl, rfl, rfl, rfl⟩ : c = 3 ∧ q = 24 ∧ r = 3 ∧ k = 365 := by omega
    subst n
    decide
  · have hcentury : n / 36524 = c := by omega
    have hera : n / 146096 = 0 := by omega
    -- the leap days before this day may amount to one more cycle of days
    rcases lt_or_ge (24 * c + q + 365 * r + k) 1460 with hlt | hge
    · have hcycle : n / 1460 = 25 * c + q := by omega
      rw [hcentury, hera, hcycle]
      omega
    · have hcycle : n / 1460 = 25 * c + q + 1 := by omega
      rw [hcentury, hera, hcycle]
      omega

theorem day_eq (h : DayOfEra n c q r k) {y : ℤ} (hy : y = 100 * c + 4 * q + r) :
    n - (365 * y + y / 4 - y / 100) = k := by
  obtain ⟨⟨hc, hc'⟩, ⟨hq, hq'⟩, ⟨hr, hr'⟩, ⟨hk, hk'⟩, hl, hn⟩ := h
  have hcycles : y / 4 = 25 * c + q := by omega
  have hcenturies : y / 100 = c := by omega
  omega

theorem isLeapYear (h : DayOfEra n c q r k) (hk : k = 365) (era : ℤ) :
    isLeapYear (100 * c + 4 * q + r + era * 400 + 1) = true := by
  obtain ⟨⟨hc, hc'⟩, ⟨hq, hq'⟩, -, -, hl, -⟩ := h
  obtain ⟨rfl, hcq⟩ := hl hk
  simp only [JobEngine.isLeapYear, Bool.and_eq_true, Bool.or_eq_true, decide_eq_true_eq]
  omega

end DayOfEra

theorem day_le_daysInMonth {year m : ℤ} (hm : m = (5 * k + 2) / 153) (hk : 0 ≤ k ∧ k ≤ 365)
    (hl : k = 365 → isLeapYear year = true) :
    (k - (153 * m + 2) / 5 + 1).toNat ≤
      daysInMonth year (if m < 10 then m + 3 else m - 9).toNat := by
  obtain ⟨hm₀, hm₁⟩ : 0 ≤ m ∧ m ≤ 11 := by omega
  by_cases hfeb : m = 11
  · subst hfeb
    rcases eq_or_ne k 365 with rfl | hne
    · simp [daysInMonth, hl rfl]
    · have hd : 28 ≤ daysInMonth year 2 := by
        simp only [daysInMonth, if_true]
        split <;> omega
      exact le_trans (by omega) hd
  · interval_cases m <;> simp [daysInMonth] at hfeb ⊢ <;> omega

theorem ofNumber?_eq (n : ℤ) : ∃ year month day, ofNumber? n = mk? year month day ∧
    (1 ≤ day ∧ day ≤ daysInMonth year month) ∧ numberOf year month day = n := by
  obtain ⟨era, hera⟩ : ∃ era, era = (n + 719468) / 146097 := ⟨_, rfl⟩
  obtain ⟨c, q, r, k, h⟩ := exists_dayOfEra
    (Int.emod_nonneg (n + 719468) (by decide : (146097 : ℤ) ≠ 0))
    (Int.emod_lt_of_pos (n + 719468) (by decide))
  obtain ⟨m, hm⟩ : ∃ m, m = (5 * k + 2) / 153 := ⟨_, rfl⟩
  refine ⟨_, _, _, rfl, ?_⟩
  simp only [h.year_eq, h.day_eq rfl, ← hm, ← hera]
  have hk := h.day
  have hleap : k = 365 →
      isLeapYear (100 * c + 4 * q + r + era * 400 + if m < 10 then 0 else 1) = true := by
    intro hk
    rw [if_neg (by omega)]
    exact h.isLeapYear hk era
  refine ⟨⟨by omega, day_le_daysInMonth hm h.day hleap⟩, ?_⟩
  have hyear : (if (if m < 10 then m + 3 else m - 9).toNat ≤ 2
      then 100 * c + 4 * q + r + era * 400 + (if m < 10 then 0 else 1) - 1
      else 100 * c + 4 * q + r + era * 400 + if m < 10 then 0 else 1) =
      100 * c + 4 * q + r + era * 400 := by
    split_ifs <;> omega
  have hmonth : (((if m < 10 then m + 3 else m - 9).toNat : ℤ) + 9) % 12 = m := by
    split_ifs <;> omega
  obtain ⟨⟨hc, hc'⟩, ⟨hq, hq'⟩, ⟨hr, hr'⟩, -, hl, hn⟩ := h
  have hera' : (100 * c + 4 * q + r + era * 400) / 400 = era := by omega
  have hy : (100 * c + 4 * q + r + era * 400) % 400 = 100 * c + 4 * q + r := by omega
  have hcycles : (100 * c + 4 * q + r) / 4 = 25 * c + q := by omega
  have hcenturies : (100 * c + 4 * q + r) / 100 = c := by omega
  simp only [numberOf, hyear, hmonth, hera', hy, hcycles, hcenturies]
  omega

/-- A date in years that start in March: month `m` of year `y` starts `(153 * m + 2) / 5` days into
the year. -/
structure InMarchYear (year : ℤ) (month day : ℕ) (y m : ℤ) : Prop where
  month_eq : 0 ≤ m ∧ m ≤ 9 ∧ month = m + 3 ∧ y = year ∨
    10 ≤ m ∧ m ≤ 11 ∧ month + 9 = m ∧ y + 1 = year
  day_le : (153 * m + 2) / 5 + day ≤ 366 ∧
    (m ≤ 10 → (153 * m + 2) / 5 + day ≤ (153 * (m + 1) + 2) / 5)
  leap : (153 * m + 2) / 5 + day = 366 → isLeapYear (y + 1) = true
  number_eq : numberOf year month day =
    365 * y + (y / 4 - y / 100 + y / 400) + ((153 * m + 2) / 5 + day - 1) - 719468

theorem exists_inMarchYear {year : ℤ} {month day : ℕ} (hd : 1 ≤ day)
    (hd' : day ≤ daysInMonth year month) : ∃ y m, InMarchYear year month day y m := by
  have hmonth : 1 ≤ month ∧ month ≤ 12 := by
    unfold daysInMonth at hd'
    split_ifs at hd' <;> omega
  obtain ⟨hm₁, hm₂⟩ := hmonth
  obtain ⟨y, hy⟩ : ∃ y, y = if month ≤ 2 then year - 1 else year := ⟨_, rfl⟩
  obtain ⟨m, hm⟩ : ∃ m : ℤ, m = (month + 9) % 12 := ⟨_, rfl⟩
  have hmarch : 0 ≤ m ∧ m ≤ 9 ∧ (month : ℤ) = m + 3 ∧ y = year ∨
      10 ≤ m ∧ m ≤ 11 ∧ (month : ℤ) + 9 = m ∧ y + 1 = year := by
    interval_cases month <;> simp at hy hm <;> omega
  have hday : (153 * m + 2) / 5 + day ≤ 366 ∧
      (m ≤ 10 → (153 * m + 2) / 5 + day ≤ (153 * (m + 1) + 2) / 5) := by
    unfold daysInMonth at hd'
    interval_cases month <;> simp at hm hd' <;> subst hm <;> (try split_ifs at hd') <;> omega
  have hdays : y / 400 * 146097 + y % 400 * 365 + y % 400 / 4 - y % 400 / 100 =
      365 * y + (y / 4 - y / 100 + y / 400) := by omega
  refine ⟨y, m, hmarch, hday, fun hlast ↦ ?_, ?_⟩
  · obtain rfl : month = 2 := by omega
    rw [show y + 1 = year by omega]
    by_contra hleap
    rw [daysInMonth, if_pos rfl, if_neg hleap] at hd'
    omega
  · rw [← hdays, hm, hy]
    rfl

theorem numberOf_bounds {year : ℤ} {month day : ℕ} (hd : 1 ≤ day)
    (hd' : day ≤ daysInMonth year month) :
    (first.number ≤ numberOf year month day ↔ -262143 ≤ year) ∧
      (numberOf year month day ≤ last.number ↔ year ≤ 262142) := by
  obtain ⟨y, m, hm, hday, -, hn⟩ := exists_inMarchYear hd hd'
  rw [hn, number_first, number_last]
  omega

theorem number_bounds (d : Date) : first.number ≤ d.number ∧ d.number ≤ last.number := by
  have h := numberOf_bounds d.day_pos d.day_le
  exact ⟨h.1.2 d.year_ge, h.2.2 d.year_le⟩

theorem leapDays_succ (y : ℤ) : (y + 1) / 4 - (y + 1) / 100 + (y + 1) / 400 =
    y / 4 - y / 100 + y / 400 + if isLeapYear (y + 1) then 1 else 0 := by
  have h4 : (y + 1) / 4 = y / 4 + if (y + 1) % 4 = 0 then 1 else 0 := by split_ifs <;> omega
  have h100 : (y + 1) / 100 = y / 100 + if (y + 1) % 100 = 0 then 1 else 0 := by
    split_ifs <;> omega
  have h400 : (y + 1) / 400 = y / 400 + if (y + 1) % 400 = 0 then 1 else 0 := by
    split_ifs <;> omega
  rw [h4, h100, h400]
  simp only [isLeapYear, Bool.and_eq_true, Bool.or_eq_true, decide_eq_true_eq]
  split_ifs <;> omega

def Before (d e : Date) : Prop :=
  d.year < e.year ∨ d.year = e.year ∧ (d.month < e.month ∨ d.month = e.month ∧ d.day < e.day)

theorem number_lt_of_before (h : d.Before e) : d.number < e.number := by
  obtain ⟨y, m, hm, hday, hleap, hn⟩ := exists_inMarchYear d.day_pos d.day_le
  obtain ⟨y', m', hm', -, -, hn'⟩ := exists_inMarchYear e.day_pos e.day_le
  have hpos := e.day_pos
  have hm₀ : 0 ≤ m ∧ m ≤ 11 := by omega
  have hm₁ : 0 ≤ m' ∧ m' ≤ 11 := by omega
  have hmonths : y < y' ∨ y = y' ∧ (m < m' ∨ m = m' ∧ d.day < e.day) := by
    clear hn hn' hday hleap
    rcases h with h | ⟨hyear, h | ⟨hmonth, h⟩⟩ <;> omega
  rw [show d.number = _ from hn, show e.number = _ from hn']
  clear hn hn' hm hm' h
  rcases hmonths with hy | ⟨rfl, hmd⟩
  · -- even the first day of a later year comes after the last one of this year
    have hstep := leapDays_succ y
    have hlater : 365 * (y + 1) + ((y + 1) / 4 - (y + 1) / 100 + (y + 1) / 400) ≤
        365 * y' + (y' / 4 - y' / 100 + y' / 400) := by omega
    by_cases hl : isLeapYear (y + 1) = true
    · rw [if_pos hl] at hstep
      omega
    · rw [if_neg hl] at hstep
      have hshort : (153 * m + 2) / 5 + d.day ≠ 366 := mt hleap hl
      omega
  · have hdays : (153 * m + 2) / 5 + d.day < (153 * m' + 2) / 5 + e.day := by
      rcases hmd with hlt | ⟨rfl, hlt⟩ <;> omega
    omega

theorem number_lt_iff : d.number < e.number ↔ d.Before e := by
  refine ⟨fun h ↦ ?_, number_lt_of_before⟩
  by_contra hb
  have hcases : e.Before d ∨ d.year = e.year ∧ d.month = e.month ∧ d.day = e.day := by
    unfold Before at hb ⊢
    omega
  rcases hcases with hb' | ⟨hyear, hmonth, hday⟩
  · exact absurd (number_lt_of_before hb') (Int.not_lt.2 h.le)
  · have heq : d.number = e.number := by
      simp only [number, hyear, hmonth, hday]
    omega

theorem mk?_eq_some {year : ℤ} {month day : ℕ} (h : mk? year month day = some d) :
    d.year = year ∧ d.month = month ∧ d.day = day := by
  obtain ⟨_, hd⟩ := Option.dite_none_right_eq_some.1 h
  cases hd
  exact ⟨rfl, rfl, rfl⟩

theorem number_of_ofNumber? (h : ofNumber? n = some d) : d.number = n := by
  obtain ⟨year, month, day, heq, -, hn⟩ := ofNumber?_eq n
  rw [heq] at h
  obtain ⟨rfl, rfl, rfl⟩ := mk?_eq_some h
  exact hn

/-- The numbers of dates are those from the first day's to the last day's. -/
theorem isSome_ofNumber? :
    (ofNumber? n).isSome = true ↔ first.number ≤ n ∧ n ≤ last.number := by
  obtain ⟨year, month, day, heq, hday, rfl⟩ := ofNumber?_eq n
  obtain ⟨hfirst, hlast⟩ := numberOf_bounds hday.1 hday.2
  rw [heq, hfirst, hlast, mk?, Option.isSome_dite, and_iff_left hday]

end Date

namespace Instant

variable {t u : Instant} {s n : ℤ} {nano : ℕ}

/-- Nanoseconds since 1970-01-01T00:00:00Z; a leap second runs through the second after it. -/
def nanos (t : Instant) : ℤ := (t.date.number * 86400 + t.second) * nanosPerSecond + t.nano

def first : Instant := (mk? .first 0 0).get (by decide)

theorem nanos_first : first.nanos = Date.first.number * 86400 * nanosPerSecond := by decide

theorem nanos_of_ofSeconds? (h : ofSeconds? s nano = some u) :
    u.nanos = s * nanosPerSecond + nano ∧ u.nano = nano := by
  obtain ⟨d, hd, h⟩ := Option.bind_eq_some_iff.1 h
  obtain ⟨_, hu⟩ := Option.dite_none_right_eq_some.1 h
  cases hu
  have hs : s / 86400 * 86400 + ((s % 86400).toNat : ℤ) = s := by omega
  simp only [nanos, Date.number_of_ofNumber? hd, hs, and_self]

theorem isSome_ofSeconds? (hn : nano < nanosPerSecond) : (ofSeconds? s nano).isSome = true ↔
    Date.first.number * 86400 ≤ s ∧ s < (Date.last.number + 1) * 86400 := by
  have hmk (d : Date) : (mk? d (s % 86400).toNat nano).isSome = true := by
    rw [mk?, Option.isSome_dite]
    exact ⟨by omega, by omega, by omega⟩
  have hdate : (ofSeconds? s nano).isSome = (Date.ofNumber? (s / 86400)).isSome := by
    rw [ofSeconds?]
    cases Date.ofNumber? (s / 86400) with
    | none => rfl
    | some d => exact hmk d
  rw [hdate, Date.isSome_ofNumber?]
  omega

theorem exists_parts (n : ℤ) : ∃ whole part : ℤ, n.tdiv nanosPerSecond = whole ∧
    n.tmod nanosPerSecond = part ∧ whole * nanosPerSecond + part = n ∧
    -(nanosPerSecond : ℤ) < part ∧ part < nanosPerSecond ∧ (n ≤ 0 → part ≤ 0) := by
  have hpos : (0 : ℤ) < nanosPerSecond := by decide
  refine ⟨_, _, rfl, rfl, Int.tdiv_mul_add_tmod n _, Int.lt_tmod_of_pos n hpos,
    Int.tmod_lt_of_pos n hpos, fun hn ↦ ?_⟩
  have hneg := Int.tmod_nonneg nanosPerSecond (neg_nonneg.2 hn)
  rw [Int.neg_tmod] at hneg
  omega

theorem shift?_eq (h : t.nano < nanosPerSecond ∨ n ≤ -nanosPerSecond) :
    t.shift? n = ofSeconds? ((t.nanos + n) / nanosPerSecond)
      ((t.nanos + n) % nanosPerSecond).toNat := by
  obtain ⟨whole, part, hw, hp, hn, hlt, hlt', hneg⟩ := exists_parts n
  have hnano := t.nano_lt
  simp only [shift?, hw, hp, nanos]
  rw [nanosPerSecond] at *
  by_cases hleap : ((1000000000 : ℕ) : ℤ) ≤ t.nano
  · -- going back a second or more ends before the leap second, which counts as the one after it
    rw [if_pos hleap, if_neg (by omega), if_pos (by omega)]
    split_ifs <;> congr 1 <;> omega
  · rw [if_neg hleap]
    split_ifs <;> congr 1 <;> omega

theorem shift?_leap (hl : nanosPerSecond ≤ t.nano) (hn : -nanosPerSecond < n) (hn' : n ≤ 0) :
    t.shift? n = mk? t.date t.second (t.nano + n).toNat := by
  obtain ⟨whole, part, hw, hp, hsum, hlt, hlt', hneg⟩ := exists_parts n
  have hwhole : whole = 0 := by
    rw [nanosPerSecond] at *
    omega
  subst hwhole
  obtain rfl : part = n := by omega
  simp only [shift?, hw, hp]
  rw [if_pos (Int.ofNat_le.2 hl), if_neg (by omega), if_neg (by omega)]

theorem nanos_of_shift? (h : t.nano < nanosPerSecond ∨ n ≤ 0) (hs : t.shift? n = some u) :
    u.nanos = t.nanos + n := by
  by_cases hn : t.nano < nanosPerSecond ∨ n ≤ -nanosPerSecond
  · rw [shift?_eq hn] at hs
    rw [(nanos_of_ofSeconds? hs).1, nanosPerSecond]
    omega
  · rw [not_or, not_lt, not_le] at hn
    rw [shift?_leap hn.1 hn.2 (h.resolve_left (not_lt.2 hn.1))] at hs
    obtain ⟨_, hu⟩ := Option.dite_none_right_eq_some.1 hs
    cases hu
    rw [nanosPerSecond] at hn
    simp only [nanos]
    omega

theorem nano_of_shift? (h : t.nano < nanosPerSecond ∨ n ≤ -nanosPerSecond)
    (hs : t.shift? n = some u) : u.nano < nanosPerSecond := by
  rw [shift?_eq h] at hs
  rw [(nanos_of_ofSeconds? hs).2, nanosPerSecond]
  omega

/-- Some time before an instant there is one exactly if the calendar reaches back that far. -/
theorem isSome_shift?_back (hn : n ≤ 0) :
    (t.shift? n).isSome = true ↔ first.nanos ≤ t.nanos + n := by
  have hdate := t.date.number_bounds
  have hs := t.second_lt
  have hnano := t.nano_lt
  by_cases h : t.nano < nanosPerSecond ∨ n ≤ -nanosPerSecond
  · rw [shift?_eq h, isSome_ofSeconds? (by rw [nanosPerSecond]; omega), nanos_first, nanos]
    rw [nanosPerSecond] at *
    omega
  · rw [not_or, not_lt, not_le] at h
    rw [shift?_leap h.1 h.2 hn, mk?, Option.isSome_dite, nanos_first, nanos]
    have hleap := t.leap h.1
    rw [nanosPerSecond] at *
    omega

end Instant

end JobEngine
