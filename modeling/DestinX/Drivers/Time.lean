import Mathlib.Tactic.IntervalCases
import DestinX.Fs.Dfs

/-!
# Time

`init_time` turns the date of the real-time clock into seconds since 1970, and `time` adds what
the time-stamp counter has advanced since boot. `rdtsc` shifts the upper half of the counter to
the right instead of the left, which leaves the lower half alone. The clock has two digits for the
year, so 4800 can be added to the year in 32 bits.
-/

namespace DestinX.Time

open Fs Nat

/-! ## The time-stamp counter -/

/-- `rdtsc`, from the two halves of the counter. -/
def rdtsc (tsc : Nat) : Nat := (tsc / 2 ^ 32) >>> 32 ||| tsc % 2 ^ 32

/-- `init_tsc`, which reads the counter before and after it waits for 10 ms. -/
def initTsc (t₀ t₁ : Nat) : Nat × Nat := (rdtsc t₀, sub64 (rdtsc t₁) (rdtsc t₀) / 10)

/-- `time`. There is no result when it divides by zero. -/
def time (boot : Nat × Nat) (unixBootTimestamp tsc : Nat) : Option Nat :=
  if boot.2 = 0 then none
  else some (add64 (sub64 (rdtsc tsc) boot.1 / boot.2 / 1000) unixBootTimestamp)

/-- The seconds that have passed when the counter is at `t`. -/
def secondsAt (t₀ t₁ unix t : Nat) : Nat := unix + (t - t₀) / ((t₁ - t₀) / 10) / 1000

/-- Every call until the counter is at `last` returns the seconds that have passed, and a
later one does not return less. -/
structure TimeSound (t₀ t₁ unix last : Nat) : Prop where
  exact : ∀ t, t₁ ≤ t → t ≤ last →
    time (initTsc t₀ t₁) unix t = some (secondsAt t₀ t₁ unix t % 2 ^ 64)
  monotone : ∀ t t' a b, t₁ ≤ t → t ≤ t' → t' ≤ last → secondsAt t₀ t₁ unix t' < 2 ^ 64 →
    time (initTsc t₀ t₁) unix t = some a → time (initTsc t₀ t₁) unix t' = some b → a ≤ b

variable {t₀ t₁ t t' last unix : Nat}

lemma rdtsc_eq (h : t < 2 ^ 64) : rdtsc t = t % 2 ^ 32 := by
  have hhigh : (t / 2 ^ 32) >>> 32 = 0 := by
    rw [shiftRight_eq_div_pow]
    omega
  rw [rdtsc, hhigh, zero_or]

lemma secondsAt_mono (t₀ t₁ unix : Nat) (h : t ≤ t') :
    secondsAt t₀ t₁ unix t ≤ secondsAt t₀ t₁ unix t' := by
  apply Nat.add_le_add_left
  apply Nat.div_le_div_right
  apply Nat.div_le_div_right
  omega

/-- As long as the upper half stays the same, the lower half is as good as the counter. -/
lemma time_eq (hcal : t₀ + 10 ≤ t₁) (ht : t < 2 ^ 64) (hle : t₁ ≤ t)
    (hsame : t₁ / 2 ^ 32 = t₀ / 2 ^ 32) : time (initTsc t₀ t₁) unix t =
      some (add64 (sub64 (t % 2 ^ 32) (t₀ % 2 ^ 32) / ((t₁ - t₀) / 10) / 1000) unix) := by
  have hticks : sub64 (t₁ % 2 ^ 32) (t₀ % 2 ^ 32) = t₁ - t₀ := by
    rw [sub64]
    omega
  rw [time, initTsc, rdtsc_eq ht, rdtsc_eq (by omega : t₁ < 2 ^ 64),
    rdtsc_eq (by omega : t₀ < 2 ^ 64), hticks, if_neg]
  dsimp only
  omega

lemma timeSound_of_same (hcal : t₀ + 10 ≤ t₁) (hend : t₁ ≤ last) (hlast : last < 2 ^ 64)
    (hsame : last / 2 ^ 32 = t₀ / 2 ^ 32) : TimeSound t₀ t₁ unix last := by
  have hexact : ∀ t, t₁ ≤ t → t ≤ last →
      time (initTsc t₀ t₁) unix t = some (secondsAt t₀ t₁ unix t % 2 ^ 64) := by
    intro t hle hle'
    have hticks : sub64 (t % 2 ^ 32) (t₀ % 2 ^ 32) = t - t₀ := by
      rw [sub64]
      omega
    rw [time_eq hcal (by omega) hle (by omega), hticks, add64, secondsAt, add_comm]
  refine ⟨hexact, fun t t' a b hle hle' hend' hfit ha hb => ?_⟩
  have hmono := secondsAt_mono t₀ t₁ unix hle'
  rw [hexact t hle (by omega), mod_eq_of_lt (by omega)] at ha
  rw [hexact t' (by omega) hend', mod_eq_of_lt hfit] at hb
  cases ha
  cases hb
  exact hmono

/-- The first tick with another upper half is taken for a time before boot. -/
lemma not_timeSound (hcal : t₀ + 10 ≤ t₁) (hlast : last < 2 ^ 64)
    (hsame : t₁ / 2 ^ 32 = t₀ / 2 ^ 32) (hlow : t₀ % 2 ^ 32 ≠ 0)
    (hother : last / 2 ^ 32 ≠ t₀ / 2 ^ 32) (hend : t₁ ≤ last) : ¬ TimeSound t₀ t₁ unix last := by
  intro hsound
  obtain ⟨t, ht⟩ : ∃ t, t = (t₀ / 2 ^ 32 + 1) * 2 ^ 32 := ⟨_, rfl⟩
  have hexact := hsound.exact t (by omega) (by omega)
  have hticks : sub64 (t % 2 ^ 32) (t₀ % 2 ^ 32) = 2 ^ 64 - 2 ^ 32 + (t - t₀) := by
    rw [sub64]
    omega
  rw [time_eq hcal (by omega) (by omega) hsame, hticks, add64, secondsAt, Nat.div_div_eq_div_mul,
    Nat.div_div_eq_div_mul, Option.some_inj] at hexact
  generalize hk : (t₁ - t₀) / 10 * 1000 = k at hexact
  have hmore : (t - t₀) / k + 1 ≤ (2 ^ 64 - 2 ^ 32 + (t - t₀)) / k := by
    rw [← add_div_right _ (by omega)]
    apply Nat.div_le_div_right
    omega
  have hfit : (2 ^ 64 - 2 ^ 32 + (t - t₀)) / k < 2 ^ 64 := by
    apply (div_le_self _ _).trans_lt
    omega
  generalize (2 ^ 64 - 2 ^ 32 + (t - t₀)) / k = far at hexact hmore hfit
  generalize (t - t₀) / k = near at hexact hmore
  omega

/-- `time` follows the counter until its upper half changes, and not beyond. -/
theorem time_follows_counter_when (hcal : t₀ + 10 ≤ t₁) (hend : t₁ ≤ last)
    (hlast : last < 2 ^ 64) :
    (last / 2 ^ 32 = t₀ / 2 ^ 32 → TimeSound t₀ t₁ unix last) ∧
      (t₁ / 2 ^ 32 = t₀ / 2 ^ 32 → t₀ % 2 ^ 32 ≠ 0 → last / 2 ^ 32 ≠ t₀ / 2 ^ 32 →
        ¬ TimeSound t₀ t₁ unix last) :=
  ⟨timeSound_of_same hcal hend hlast, fun hsame hlow hother =>
    not_timeSound hcal hlast hsame hlow hother hend⟩

theorem time_follows_counter_early : TimeSound 5 105 0 3000000 :=
  (time_follows_counter_when (by decide) (by decide) (by decide)).1 (by decide)

/-- Six ticks after it has counted 1431 seconds, `time` is back at boot. -/
theorem time_goes_back : time (initTsc 5 30005) 0 (2 ^ 32 - 1) = some 1431 ∧
    time (initTsc 5 30005) 0 (2 ^ 32 + 5) = some 0 := by decide

/-! ## The calendar -/

/-- `rtc_time_t` -/
structure RtcTime where
  (second minute hour day month year : Nat)

/-- `read_rtc`, from the registers of the clock once it is not being updated. -/
def readRtc (reg : Nat → UInt8) : RtcTime :=
  let flags := (reg 0x0B).toNat
  let decoded (b : Nat) : Nat := if flags &&& 0x04 = 0 then (b &&& 0x0F) + b / 16 * 10 else b
  let raw := (reg 0x04).toNat
  let hour := if flags &&& 0x04 = 0 then
      ((raw &&& 0x0F) + (raw &&& 0x70) / 16 * 10) ||| (raw &&& 0x80)
    else raw
  { second := decoded (reg 0x00).toNat
    minute := decoded (reg 0x02).toNat
    hour := if flags &&& 0x02 = 0 ∧ hour &&& 0x80 ≠ 0 then ((hour &&& 0x7F) + 12) % 24 else hour
    day := decoded (reg 0x07).toNat
    month := decoded (reg 0x08).toNat
    year := decoded (reg 0x09).toNat + 2000 }

/-- The value of an expression in 64 bits. -/
def u64 (x : Int) : Int := x % 2 ^ 64

/-- `init_time`, for the date in `boot_rtc` -/
def initTime (rtc : RtcTime) : Int :=
  let a := u64 ((14 - (rtc.month : Int)).tdiv 12)
  let y := u64 ((rtc.year + 4800 : Int) % 2 ^ 32 - a)
  let m := u64 (rtc.month + 12 * a - 3)
  let days := u64 (rtc.day + u64 (153 * m + 2) / 5 + 365 * y + y / 4 - y / 100 + y / 400 - 32045)
  let daysSinceUnix := u64 (days - 2440588)
  u64 (daysSinceUnix * 86400 + rtc.hour * 3600 + rtc.minute * 60 + rtc.second)

def IsLeap (year : Nat) : Prop := 4 ∣ year ∧ (¬ 100 ∣ year ∨ 400 ∣ year)

instance (year : Nat) : Decidable (IsLeap year) := inferInstanceAs (Decidable (_ ∧ _))

def monthLength (year : Nat) : Nat → Nat
  | 2 => if IsLeap year then 29 else 28
  | 4 | 6 | 9 | 11 => 30
  | _ => 31

structure Date where
  (year month day : Nat)
  deriving DecidableEq

structure Date.Valid (d : Date) : Prop where
  month : 1 ≤ d.month ∧ d.month ≤ 12
  day : 1 ≤ d.day ∧ d.day ≤ monthLength d.year d.month

/-- The next day. -/
def Date.next (d : Date) : Date :=
  if d.day < monthLength d.year d.month then ⟨d.year, d.month, d.day + 1⟩
  else if d.month < 12 then ⟨d.year, d.month + 1, 1⟩
  else ⟨d.year + 1, 1, 1⟩

def epoch : Date := ⟨1970, 1, 1⟩

def RtcTime.date (rtc : RtcTime) : Date := ⟨rtc.year, rtc.month, rtc.day⟩

structure RtcTime.Valid (rtc : RtcTime) : Prop where
  date : rtc.date.Valid
  time : rtc.hour < 24 ∧ rtc.minute < 60 ∧ rtc.second < 60

def yearDays (y : Nat) : Nat := 365 * y + y / 4 - y / 100 + y / 400

/-- The formula of `init_time` without overflow. -/
def Date.count (d : Date) : Nat :=
  let a := (14 - d.month) / 12
  d.day + (153 * (d.month + 12 * a - 3) + 2) / 5 + yearDays (d.year + 4800 - a)

variable {d d' : Date} {rtc : RtcTime} {year month day : Nat}

lemma monthLength_bounds (year month : Nat) :
    28 ≤ monthLength year month ∧ monthLength year month ≤ 31 := by
  unfold monthLength
  split <;> (try split) <;> omega

lemma yearDays_leap (year : Nat) :
    yearDays (year + 4800) = yearDays (year + 4799) + if IsLeap year then 366 else 365 := by
  have hdiv : ∀ k, k ∣ 4800 →
      (year + 4800) / k = (year + 4799) / k + if k ∣ year then 1 else 0 := by
    intro k hk
    have hdvd : k ∣ year + 4799 + 1 ↔ k ∣ year := Nat.dvd_add_left hk
    rw [Nat.succ_div]
    simp only [hdvd]
  have hle : (year + 4799) / 100 ≤ (year + 4799) / 4 := by omega
  rw [yearDays, yearDays, hdiv 4 (by decide), hdiv 100 (by decide), hdiv 400 (by decide)]
  generalize (year + 4799) / 100 = c at *
  by_cases hleap : IsLeap year
  · rw [if_pos hleap, if_pos hleap.1]
    have hcentury := hleap.2
    split_ifs <;> omega
  · rw [if_neg hleap]
    rw [IsLeap] at hleap
    split_ifs <;> omega

/-- The year of `init_time` in the integers. -/
lemma yearDays_cast (x : Int) (y : Nat) :
    x + 365 * (y : Int) + (y : Int) / 4 - (y : Int) / 100 + (y : Int) / 400 = x + yearDays y ∧
      yearDays y ≤ 366 * y := by
  simp only [yearDays]
  omega

lemma count_day (year month day : Nat) :
    Date.count ⟨year, month, day + 1⟩ = Date.count ⟨year, month, 1⟩ + day := by
  simp only [Date.count]
  omega

/-- The formula skips as many days as a month has. -/
lemma count_month (hlo : 1 ≤ month) (hhi : month < 12) :
    Date.count ⟨year, month + 1, 1⟩ = Date.count ⟨year, month, 1⟩ + monthLength year month := by
  have hleap := yearDays_leap year
  by_cases hfeb : month = 2
  · subst hfeb
    simp only [Date.count, monthLength]
    split_ifs at hleap ⊢ <;> norm_num at hleap ⊢ <;> omega
  · interval_cases month <;> simp_all [Date.count, monthLength] <;> omega

lemma count_year (year : Nat) :
    Date.count ⟨year + 1, 1, 1⟩ = Date.count ⟨year, 12, 1⟩ + 31 := by
  have hsame : year + 1 + 4800 - (14 - 1) / 12 = year + 4800 - (14 - 12) / 12 := by omega
  simp only [Date.count, hsame]
  omega

/-- The date is reached from the epoch day by day, and the formula counts the days. -/
def Counted (d : Date) : Prop := ∃ n : Nat, Date.next^[n] epoch = d ∧ d.count = n + 2472633

lemma Counted.step (h : Counted d) (hnext : d.next = d') (hcount : d'.count = d.count + 1) :
    Counted d' := by
  obtain ⟨n, rfl, hn⟩ := h
  refine ⟨n + 1, (Function.iterate_succ_apply' _ _ _).trans hnext, ?_⟩
  omega

lemma counted_day (h : Counted ⟨year, month, 1⟩) (hday : day < monthLength year month) :
    Counted ⟨year, month, day + 1⟩ := by
  induction day with
  | zero => exact h
  | succ day ih =>
    have hnext : Date.next ⟨year, month, day + 1⟩ = ⟨year, month, day + 1 + 1⟩ := if_pos hday
    apply (ih (by omega)).step hnext
    rw [count_day year month (day + 1), count_day year month day, add_assoc]

/-- The last day of the month. -/
lemma counted_last (h : Counted ⟨year, month, 1⟩) :
    Counted ⟨year, month, monthLength year month⟩ ∧
      Date.count ⟨year, month, 1⟩ + monthLength year month =
        Date.count ⟨year, month, monthLength year month⟩ + 1 := by
  obtain ⟨k, hk⟩ : ∃ k, monthLength year month = k + 1 :=
    exists_eq_add_one.mpr (by have := monthLength_bounds year month; omega)
  rw [hk, count_day year month k]
  exact ⟨counted_day h (by omega), rfl⟩

lemma counted_month (h : Counted ⟨year, 1, 1⟩) (hmonth : month < 12) :
    Counted ⟨year, month + 1, 1⟩ := by
  induction month with
  | zero => exact h
  | succ month ih =>
    obtain ⟨hlast, hcount⟩ := counted_last (ih (by omega))
    apply hlast.step
    · rw [Date.next, if_neg (lt_irrefl _), if_pos hmonth]
    · rw [count_month (by omega) hmonth, hcount]

lemma counted_year (h : 1970 ≤ year) : Counted ⟨year, 1, 1⟩ := by
  induction year, h using le_induction with
  | base => exact ⟨0, rfl, rfl⟩
  | succ year _ ih =>
    have hdec : Counted ⟨year, 12, 1⟩ := counted_month ih (by norm_num)
    obtain ⟨hlast, hcount⟩ := counted_last hdec
    apply hlast.step
    · rw [Date.next, if_neg (lt_irrefl _)]
      rfl
    · exact (count_year year).trans hcount

lemma Date.Valid.counted (h : d.Valid) (hyear : 1970 ≤ d.year) : Counted d := by
  obtain ⟨year, month, day⟩ := d
  obtain ⟨⟨hlo, hhi⟩, hone, hday⟩ := h
  obtain ⟨month, rfl⟩ := exists_eq_add_one.mpr hlo
  obtain ⟨day, rfl⟩ := exists_eq_add_one.mpr hone
  exact counted_day (counted_month (counted_year hyear) hhi) hday

lemma u64_eq {x : Int} (h : 0 ≤ x) (h' : x < 2 ^ 64) : u64 x = x := Int.emod_eq_of_lt h h'

lemma u64_days (x h m s : Int) :
    u64 (u64 (u64 (x - 32045) - 2440588) * 86400 + h + m + s) =
      u64 ((x - 2472633) * 86400 + h + m + s) := by
  simp only [u64]
  omega

/-- Nothing overflows as long as the year does not. -/
lemma initTime_eq (h : rtc.Valid) (hpos : 2472633 ≤ rtc.date.count)
    (hfit : rtc.year + 4800 < 2 ^ 32) :
    initTime rtc = 86400 * (rtc.date.count - 2472633 : Nat) + 3600 * rtc.hour + 60 * rtc.minute +
      rtc.second := by
  obtain ⟨⟨⟨hlo, hhi⟩, -, hday⟩, hhour, hminute, hsecond⟩ := h
  have hlength := (monthLength_bounds rtc.year rtc.month).2
  obtain ⟨second, minute, hour, day, month, year⟩ := rtc
  simp only [RtcTime.date, Date.count] at *
  obtain ⟨a, ha⟩ : ∃ a, (14 - month) / 12 = a := ⟨_, rfl⟩
  obtain ⟨m, hm⟩ : ∃ m, (153 * (month + 12 * a - 3) + 2) / 5 = m := ⟨_, rfl⟩
  have ha' : u64 ((14 - (month : Int)).tdiv 12) = a := by
    rw [Int.tdiv_eq_ediv_of_nonneg (by omega), u64]
    omega
  have hshift : u64 (month + 12 * a - 3) = (month + 12 * a - 3 : Nat) := by rw [u64_eq] <;> omega
  have hm' : u64 (153 * (month + 12 * a - 3 : Nat) + 2) / 5 = m := by rw [u64_eq] <;> omega
  have hy : u64 ((year + 4800 : Int) % 2 ^ 32 - a) = (year + 4800 - a : Nat) := by
    rw [u64_eq] <;> omega
  have hdays := (yearDays_cast 0 (year + 4800 - a)).2
  simp only [initTime]
  rw [ha', hshift, hm', u64_days, hy, (yearDays_cast _ _).1]
  rw [ha, hm] at hpos ⊢
  rw [u64_eq] <;> omega

/-- The clock has eight bits for the year. -/
lemma readRtc_year (reg : Nat → UInt8) :
    2000 ≤ (readRtc reg).year ∧ (readRtc reg).year ≤ 2255 := by
  have hbyte := (reg 0x09).toNat_lt
  have hdigit : (reg 0x09).toNat &&& 0x0F ≤ 0x0F := and_le_right
  simp only [readRtc]
  split_ifs <;> omega

/-- The time at boot is the number of days since 1970, counted one by one, and the time of the
day. -/
def RtcTime.Exact (rtc : RtcTime) : Prop := ∃ n : Nat, Date.next^[n] epoch = rtc.date ∧
  initTime rtc = 86400 * n + 3600 * rtc.hour + 60 * rtc.minute + rtc.second

/-- The conversion is exact for every date that the clock can give, and beyond these until the year
overflows. -/
theorem calendar_exact :
    (∀ reg, (readRtc reg).Valid → (readRtc reg).Exact) ∧
      ∀ rtc : RtcTime, rtc.Valid → 1970 ≤ rtc.year → rtc.year + 4800 < 2 ^ 32 → rtc.Exact := by
  have hexact : ∀ rtc : RtcTime, rtc.Valid → 1970 ≤ rtc.year → rtc.year + 4800 < 2 ^ 32 →
      rtc.Exact := by
    intro rtc h hyear hfit
    obtain ⟨n, hn, hcount⟩ := h.date.counted hyear
    refine ⟨n, hn, ?_⟩
    rw [initTime_eq h (by omega) hfit, hcount, Nat.add_sub_cancel]
  refine ⟨fun reg h => ?_, hexact⟩
  obtain ⟨hlo, hhi⟩ := readRtc_year reg
  exact hexact _ h (by omega) (by omega)

/-- 29 February 2024, 12:30:15, in the decimal format of the clock. -/
def leapDay : Nat → UInt8
  | 0x00 => 0x15
  | 0x02 => 0x30
  | 0x04 => 0x12
  | 0x07 => 0x29
  | 0x08 => 0x02
  | 0x09 => 0x24
  | 0x0B => 0x02
  | _ => 0

theorem calendar_exact_leap_day : (readRtc leapDay).Exact ∧
    (readRtc leapDay).date = ⟨2024, 2, 29⟩ ∧ initTime (readRtc leapDay) = 1709209815 := by
  have h : (readRtc leapDay).Valid := ⟨⟨by decide, by decide⟩, by decide⟩
  exact ⟨calendar_exact.1 leapDay h, by decide, by decide⟩

end DestinX.Time
