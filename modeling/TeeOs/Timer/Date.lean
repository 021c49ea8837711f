import Mathlib

/-!
# Seconds since 1970 as a date

The year loop advances by as many years as fit at 366 days each. `none` stands for a
subtraction below zero, for a year that overflows, and for a loop that has not ended.
-/

namespace TeeOs.Timer

open List

variable (year : Nat)

def isLeapYear : Bool := year % 4 = 0 && year % 100 ≠ 0 || year % 400 = 0

def leapDaysGet : Nat := year / 4 - year / 100 + year / 400

def yearLength : Nat := if isLeapYear year then 366 else 365

def monLengths (leap : Bool) : List Nat :=
  [31, if leap then 29 else 28, 31, 30, 31, 30, 31, 31, 30, 31, 30, 31]

def getDaysAndYear : Nat → Nat → Nat → Option (Nat × Nat)
  | 0, _, _ => none
  | fuel+1, days, year =>
    if days < yearLength year then some (days, year)
    else
      let carryOver := if days / 366 = 0 then 1 else days / 366
      let newYear := year + carryOver
      let leapDays := leapDaysGet (newYear-1) - leapDaysGet (year-1)
      if carryOver > 2^32-1-year ∨ leapDaysGet (newYear-1) < leapDaysGet (year-1) ∨
          days < (newYear-year)*365 ∨ days - (newYear-year)*365 < leapDays then none
      else getDaysAndYear fuel (days - (newYear-year)*365 - leapDays) newYear

structure TeeDate where
  (year month day hour min seconds : Nat)

/-- The month the day falls in, and the days before it there. -/
def monthLoop : List Nat → Nat → Nat → Nat × Nat
  | [], month, idays => (month, idays)
  | l :: ip, month, idays =>
    if idays < l then (month+1, idays) else monthLoop ip (month+1) (idays-l)

def genSysDateTime (rtcTime : UInt32) : Option TeeDate := do
  let tdays := rtcTime.toNat / 86400
  let remSecs := rtcTime.toNat - tdays*86400
  let (idays, year) ← getDaysAndYear (tdays+1) tdays 1970
  let (month, idays) := monthLoop (monLengths (isLeapYear year)) 0 idays
  some ⟨year, month, idays+1, remSecs / 3600, remSecs % 3600 / 60, remSecs % 3600 % 60⟩

/-! ## The calendar -/

/-- The days before a year, from year 0 on. -/
def yearStart : Nat → Nat
  | 0 => 0
  | year+1 => yearStart year + yearLength year

def monthStart (leap : Bool) (month : Nat) : Nat := ((monLengths leap).take month).sum

structure TeeDate.Valid (d : TeeDate) : Prop where
  month : 1 ≤ d.month ∧ d.month ≤ 12
  day : 1 ≤ d.day ∧ d.day ≤ (monLengths (isLeapYear d.year)).getD (d.month-1) 0
  time : d.hour < 24 ∧ d.min < 60 ∧ d.seconds < 60

def TeeDate.dayOfYear (d : TeeDate) : Nat := monthStart (isLeapYear d.year) (d.month-1) + (d.day-1)

/-- The seconds before a date, from year 0 on. -/
def TeeDate.stamp (d : TeeDate) : Nat :=
  (((yearStart d.year + d.dayOfYear)*24 + d.hour)*60 + d.min)*60 + d.seconds

def epoch : TeeDate := ⟨1970, 1, 1, 0, 0, 0⟩

/-- Slots one behind the other: a place is in one slot only. -/
theorem slot_unique {S L : Nat → Nat} (hS : ∀ n, S (n+1) = S n + L n) {m n a b : Nat} (ha : a < L m)
    (hb : b < L n) (h : S m + a = S n + b) : m = n ∧ a = b := by
  have hmono : Monotone S := monotone_nat_of_le_succ fun k => by rw [hS]; omega
  have hm : ¬ m < n := by
    intro hlt
    have hle : S (m+1) ≤ S n := hmono hlt
    rw [hS] at hle
    omega
  have hn : ¬ n < m := by
    intro hlt
    have hle : S (n+1) ≤ S m := hmono hlt
    rw [hS] at hle
    omega
  obtain rfl : m = n := by omega
  exact ⟨rfl, by omega⟩

theorem yearStart_succ : yearStart (year+1) = 365*(year+1) + leapDaysGet year + 1 := by
  induction year with
  | zero => rfl
  | succ year ih =>
    rw [yearStart, ih]
    simp only [yearLength, isLeapYear, leapDaysGet, Bool.or_eq_true, Bool.and_eq_true, decide_eq_true_eq]
    split <;> omega

theorem getDaysAndYear_eq {fuel days year : Nat} (hfuel : days < fuel) (hyear : 1 ≤ year)
    (hfit : year + days < 2^32) : ∃ d y, getDaysAndYear fuel days year = some (d, y) ∧
      d < yearLength y ∧ yearStart y + d = yearStart year + days := by
  induction fuel generalizing days year with
  | zero => omega
  | succ fuel ih =>
    unfold getDaysAndYear
    split
    · next hlt => exact ⟨days, year, rfl, hlt, rfl⟩
    next hge =>
    generalize hc : (if days / 366 = 0 then 1 else days / 366) = c
    obtain ⟨y, rfl⟩ := Nat.exists_eq_add_of_le' hyear
    have hlen : 365 ≤ yearLength (y+1) := by unfold yearLength; split <;> omega
    have hpos : 1 ≤ c ∧ 365*c ≤ days := by split at hc <;> omega
    have hnew := yearStart_succ (y+c)
    have hold := yearStart_succ y
    have hleap : leapDaysGet y ≤ leapDaysGet (y+c) ∧ leapDaysGet (y+c) ≤ leapDaysGet y + c := by
      unfold leapDaysGet
      omega
    have hfits : yearStart (y+c+1) ≤ yearStart (y+1) + days := by
      split at hc
      · rw [← hc, yearStart]
        omega
      · omega
    dsimp only
    rw [show y+1+c-1 = y+c by omega, show y+1+c-(y+1) = c by omega, Nat.add_sub_cancel,
      if_neg (by omega), show y+1+c = y+c+1 by omega]
    obtain ⟨d, y', heq, hd, hstart⟩ :=
      @ih (days - c*365 - (leapDaysGet (y+c) - leapDaysGet y)) (y+c+1) (by omega) (by omega) (by omega)
    exact ⟨d, y', heq, hd, by omega⟩

theorem monthLoop_eq {ip : List Nat} {month idays : Nat} (h : idays < ip.sum) :
    ∃ k r, monthLoop ip month idays = (month+k+1, r) ∧ k < ip.length ∧ r < ip.getD k 0 ∧
      (ip.take k).sum + r = idays := by
  induction ip generalizing month idays with
  | nil => cases h
  | cons l ip ih =>
    unfold monthLoop
    split
    · next hlt => exact ⟨0, idays, rfl, by simp, hlt, by simp⟩
    next hge =>
    rw [sum_cons] at h
    obtain ⟨k, r, heq, hk, hr, hsum⟩ := @ih (month+1) (idays-l) (by omega)
    refine ⟨k+1, r, heq.trans (by congr 1; omega), by simpa using hk, hr, ?_⟩
    rw [take_succ_cons, sum_cons]
    omega

theorem sum_monLengths : (monLengths (isLeapYear year)).sum = yearLength year := by
  unfold yearLength
  cases isLeapYear year <;> rfl

theorem monthStart_succ (leap : Bool) (month : Nat) :
    monthStart leap (month+1) = monthStart leap month + (monLengths leap).getD month 0 := by
  rw [monthStart, take_add_one, List.sum_append_nat, getD_eq_getElem?_getD]
  cases (monLengths leap)[month]? <;> rfl

theorem monthStart_le : ∀ leap, ∀ month < 13, monthStart leap month ≤ (monLengths leap).sum := by
  decide

theorem TeeDate.Valid.dayOfYear_lt {d : TeeDate} (h : d.Valid) : d.dayOfYear < yearLength d.year := by
  obtain ⟨⟨hm, hm'⟩, ⟨hd, hd'⟩, -⟩ := h
  have hle := monthStart_le (isLeapYear d.year) (d.month-1+1) (by omega)
  rw [sum_monLengths, monthStart_succ] at hle
  unfold dayOfYear
  omega

theorem TeeDate.Valid.unique {d d' : TeeDate} (h : d.Valid) (h' : d'.Valid)
    (heq : d'.stamp = d.stamp) : d' = d := by
  have hlt := h.dayOfYear_lt
  have hlt' := h'.dayOfYear_lt
  obtain ⟨hmonth, hday, htime⟩ := h
  obtain ⟨hmonth', hday', htime'⟩ := h'
  unfold stamp at heq
  obtain ⟨hyear, hdoy⟩ := slot_unique (S := yearStart) (fun _ => rfl) hlt' hlt (by omega)
  unfold dayOfYear at hdoy
  rw [hyear] at hdoy hday'
  obtain ⟨hm, hd⟩ := slot_unique (monthStart_succ _) (by omega) (by omega) hdoy
  cases d
  cases d'
  simp only [mk.injEq] at *
  omega

/-- The date of a second count is the only one at that distance from 1970. -/
theorem genSysDateTime_unique (rtcTime : UInt32) : ∃ d, genSysDateTime rtcTime = some d ∧
    ∀ d' : TeeDate, d'.Valid ∧ d'.stamp = epoch.stamp + rtcTime.toNat ↔ d' = d := by
  have ht := rtcTime.toNat_lt
  obtain ⟨days, year, hyear, hdays, hstart⟩ := @getDaysAndYear_eq (rtcTime.toNat / 86400 + 1)
    (rtcTime.toNat / 86400) 1970 (by omega) (by omega) (by omega)
  rw [← sum_monLengths] at hdays
  obtain ⟨k, r, hloop, hk, hr, hsum⟩ := @monthLoop_eq _ 0 _ hdays
  rw [Nat.zero_add] at hloop
  have hk' : k < 12 := hk
  unfold genSysDateTime
  simp only [hyear, hloop, Option.bind_eq_bind, Option.bind_some]
  refine ⟨_, rfl, fun d' => ?_⟩
  generalize hd : TeeDate.mk .. = d
  have hvalid : d.Valid := by
    rw [← hd]
    exact ⟨⟨Nat.le_add_left .., hk'⟩, ⟨Nat.le_add_left .., hr⟩, by dsimp only; omega⟩
  have hstamp : d.stamp = epoch.stamp + rtcTime.toNat := by
    have h1970 : epoch.stamp = yearStart 1970 * 86400 := by
      simp [epoch, TeeDate.stamp, TeeDate.dayOfYear, monthStart, Nat.mul_assoc]
    have hdoy : monthStart (isLeapYear year) k + r = days := hsum
    rw [h1970, ← hd]
    unfold TeeDate.stamp TeeDate.dayOfYear
    simp only [Nat.add_sub_cancel, hdoy]
    omega
  constructor
  · exact fun h => hvalid.unique h.1 (h.2.trans hstamp.symm)
  · rintro rfl
    exact ⟨hvalid, hstamp⟩

end TeeOs.Timer
