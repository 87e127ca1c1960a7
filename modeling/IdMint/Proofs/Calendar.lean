import IdMint.Calendar
import IdMint.Proofs.Decimal

/-! Civil time tells the instant, and its parts tell the civil time. Spending days year by year and
then month by month loses none of them: the days before the year, those before the month and those
within it add up to the days that were to be spent. -/
namespace IdMint.Calendar

variable {year first ms : Nat} {lengths : List Nat} {t : DateTime} {rest : List String}

theorem total_append (ms ns : List Nat) : total (ms ++ ns) = total ms + total ns := by
  induction ms with
  | nil => rw [List.nil_append, total, Nat.zero_add]
  | cons m ms ih => rw [List.cons_append, total, total, ih, Nat.add_assoc]

theorem total_monthLengths (year : Nat) : total (monthLengths year) = daysInYear year := by
  rw [monthLengths, daysInYear]
  cases isLeap year <;> rfl

theorem isLeap_iff : isLeap year = true ↔ year % 4 = 0 ∧ (year % 100 ≠ 0 ∨ year % 400 = 0) := by
  simp [isLeap]

/-- A year has 365 days, and one more if it is a fourth one, but not if it ends a century that is
not a fourth one. -/
theorem daysInYear_add (h : 0 < year) :
    daysInYear year + (year - 1) / 4 + (year - 1) / 400 + year / 100 =
      365 + year / 4 + year / 400 + (year - 1) / 100 := by
  rw [daysInYear]
  by_cases hleap : isLeap year = true
  · rw [if_pos hleap]
    rw [isLeap_iff] at hleap
    omega
  · rw [if_neg hleap]
    rw [isLeap_iff] at hleap
    omega

/-- A day falls into one of the months, after all the days of the months before it. -/
theorem monthOfDay_spec (month : Nat) {day : Nat} (h : day < total lengths) :
    ∃ k n rest, lengths[k]? = some n ∧ rest < n ∧
      monthOfDay month day lengths = (month + k, rest) ∧
      total (lengths.take k) + rest = day := by
  induction lengths generalizing month day with
  | nil => cases h
  | cons length lengths ih =>
    rw [total] at h
    rw [monthOfDay]
    by_cases hfirst : day < length
    · exact ⟨0, length, day, rfl, hfirst, if_pos hfirst, Nat.zero_add day⟩
    · have hlater : day - length < total lengths := by omega
      obtain ⟨k, n, rest, hn, hrest, hmonth, htotal⟩ := ih (month + 1) hlater
      refine ⟨k + 1, n, rest, hn, hrest, ?_, ?_⟩
      · rw [if_neg hfirst, hmonth, Nat.add_assoc, Nat.add_comm 1]
      · rw [List.take_succ_cons, total]
        omega

namespace DateTime

theorem daysBeforeYear_succ (h : 1970 ≤ year) :
    daysBeforeYear (year + 1) = daysBeforeYear year + daysInYear year := by
  have hcount : year + 1 - 1970 = year - 1970 + 1 := by omega
  have hyear : 1970 + (year - 1970) = year := by omega
  rw [daysBeforeYear, hcount, List.range_succ, List.map_append, total_append, List.map_singleton,
    hyear]
  rfl

/-- Of the years before, each has 365 days and each fourth one a day more, but of those that end a
century only each fourth has it. -/
theorem daysBeforeYear_eq (h : 1970 ≤ year) : daysBeforeYear year + 719527 + (year - 1) / 100 =
    365 * year + (year - 1) / 4 + (year - 1) / 400 := by
  induction h with
  | refl => decide
  | @step year h ih =>
    have hdays := daysInYear_add (by omega : 0 < year)
    rw [Nat.succ_eq_add_one, daysBeforeYear_succ h, Nat.add_sub_cancel]
    omega

theorem daysBeforeYear_mono (h : 1970 ≤ first) (hle : first ≤ year) :
    daysBeforeYear first ≤ daysBeforeYear year := by
  induction hle with
  | refl => exact Nat.le_refl _
  | step hle ih =>
    rw [daysBeforeYear_succ (Nat.le_trans h hle)]
    omega

/-- A day falls into one of the years, after all the days of the years before it. -/
theorem yearOfDay_spec (day : Nat) (h : 1970 ≤ first) :
    ∃ year rest, yearOfDay first day = (year, rest) ∧ first ≤ year ∧ rest < daysInYear year ∧
      daysBeforeYear year + rest = daysBeforeYear first + day := by
  induction day using Nat.strongRecOn generalizing first with
  | _ day ih =>
    rw [yearOfDay]
    by_cases hfirst : day < daysInYear first
    · exact ⟨first, day, if_pos hfirst, Nat.le_refl _, hfirst, rfl⟩
    · have hpos := daysInYear_pos first
      obtain ⟨year, rest, hyear, hle, hrest, hdays⟩ :=
        ih (day - daysInYear first) (by omega) (by omega : 1970 ≤ first + 1)
      refine ⟨year, rest, ?_, by omega, hrest, ?_⟩
      · rw [if_neg hfirst, hyear]
      · rw [hdays, daysBeforeYear_succ h]
        omega

/-- A date that there is, with a time of day. -/
structure Valid (t : DateTime) : Prop where
  month : 1 ≤ t.month ∧ t.month ≤ 12
  day : 1 ≤ t.day ∧ t.day ≤ (monthLengths t.year).getD (t.month - 1) 0
  hour : t.hour < 24
  minute : t.minute < 60
  second : t.second < 60
  milli : t.milli < 1000

/-- The date of an instant accounts for its days. -/
theorem ofUnixMillis_spec (ms : Nat) :
    ∃ year k n rest, daysBeforeYear year ≤ ms / 86400000 ∧
      ms / 86400000 < daysBeforeYear (year + 1) ∧ 1970 ≤ year ∧
      (monthLengths year)[k]? = some n ∧ rest < n ∧
      daysBeforeYear year + total ((monthLengths year).take k) + rest = ms / 86400000 ∧
      ofUnixMillis ms =
        ⟨year, 1 + k, rest + 1, ms / 3600000 % 24, ms / 60000 % 60, ms / 1000 % 60, ms % 1000⟩ := by
  obtain ⟨year, inYear, hyear, hle, hlt, hdays⟩ :=
    yearOfDay_spec (ms / 86400000) (Nat.le_refl 1970)
  have hsucc := daysBeforeYear_succ hle
  rw [← total_monthLengths] at hlt hsucc
  obtain ⟨k, n, rest, hn, hrest, hmonth, htotal⟩ := monthOfDay_spec 1 hlt
  have hzero : daysBeforeYear 1970 = 0 := rfl
  refine ⟨year, k, n, rest, by omega, by omega, hle, hn, hrest, by omega, ?_⟩
  simp only [ofUnixMillis, hyear, hmonth]

/-- An instant has a civil time. -/
theorem valid_ofUnixMillis (ms : Nat) : (ofUnixMillis ms).Valid := by
  obtain ⟨year, k, n, rest, _, _, _, hn, hrest, _, heq⟩ := ofUnixMillis_spec ms
  have hk : k < 12 := by
    obtain ⟨hk, _⟩ := List.getElem?_eq_some_iff.mp hn
    exact hk
  rw [heq]
  constructor
  · exact ⟨Nat.le_add_right 1 k, Nat.add_comm 1 k ▸ hk⟩
  · rw [Nat.add_sub_cancel_left, List.getD_eq_getElem?_getD, hn]
    exact ⟨Nat.le_add_left 1 rest, hrest⟩
  all_goals exact Nat.mod_lt _ (by decide)

/-- The civil time of an instant tells the instant. -/
theorem toUnixMillis_ofUnixMillis (ms : Nat) : (ofUnixMillis ms).toUnixMillis = ms := by
  obtain ⟨year, k, n, rest, _, _, _, _, _, hdays, heq⟩ := ofUnixMillis_spec ms
  rw [heq]
  simp only [toUnixMillis, Nat.add_sub_cancel_left, Nat.add_sub_cancel, hdays]
  omega

example : toUnixMillis ⟨2100, 3, 1, 0, 0, 0, 0⟩ =
    toUnixMillis ⟨2100, 2, 28, 0, 0, 0, 0⟩ + 86400000 := by
  decide +kernel

/-- A year has begun when all the days before it have passed. -/
theorem le_year_iff (h : 1970 ≤ first) :
    first ≤ (ofUnixMillis ms).year ↔ daysBeforeYear first ≤ ms / 86400000 := by
  obtain ⟨year, k, n, rest, hreached, hpast, hfrom, _, _, _, heq⟩ := ofUnixMillis_spec ms
  rw [heq]
  constructor
  · intro hle
    exact Nat.le_trans (daysBeforeYear_mono h hle) hreached
  · intro hdays
    by_contra hlate
    have hlater : year + 1 ≤ first := Nat.not_le.mp hlate
    have hmono := daysBeforeYear_mono (by omega : 1970 ≤ year + 1) hlater
    omega

def milliOf? : List String → Option Nat
  | [] => some 0
  | [milli] => Decimal.ofWidth? 3 milli
  | _ => none

/-- Reads a date and a time of day from numbers of fixed width. -/
def ofParts? : List String → Option DateTime
  | year :: month :: day :: hour :: minute :: second :: rest => do
    let year ← Decimal.ofWidth? 4 year
    let month ← Decimal.ofWidth? 2 month
    let day ← Decimal.ofWidth? 2 day
    let hour ← Decimal.ofWidth? 2 hour
    let minute ← Decimal.ofWidth? 2 minute
    let second ← Decimal.ofWidth? 2 second
    let milli ← milliOf? rest
    return { year, month, day, hour, minute, second, milli }
  | _ => none

theorem hyphen_not_mem_parts : ∀ s ∈ t.parts, '-' ∉ s.toList := by
  simp [parts, Decimal.hyphen_not_mem_padded]

/-- A month has at most 31 days. -/
theorem getD_monthLengths_le (year k : Nat) : (monthLengths year).getD k 0 ≤ 31 := by
  have hall : ∀ n ∈ monthLengths year, n ≤ 31 := by
    rw [monthLengths]
    cases isLeap year <;> decide
  rw [List.getD_eq_getElem?_getD]
  cases hn : (monthLengths year)[k]? with
  | none => exact Nat.zero_le 31
  | some n => exact hall n (List.mem_of_getElem? hn)

/-- A date that there is takes up the widths of its numbers. -/
theorem ofParts?_append (hv : t.Valid) (hyear : t.year < 10000)
    (hmilli : milliOf? rest = some t.milli) : ofParts? (t.parts ++ rest) = some t := by
  have hday := Nat.le_trans hv.day.2 (getD_monthLengths_le t.year (t.month - 1))
  have hmonth := hv.month.2
  have hhour := hv.hour
  have hminute := hv.minute
  have hsecond := hv.second
  have htwo {n : Nat} (h : n < 100) : Decimal.ofWidth? 2 (Decimal.padded 2 n) = some n :=
    Decimal.ofWidth?_padded (by decide) h
  simp only [parts, List.cons_append, List.nil_append, ofParts?, hmilli,
    Decimal.ofWidth?_padded (by decide : 0 < 4) hyear, htwo (by omega : t.month < 100),
    htwo (by omega : t.day < 100), htwo (by omega : t.hour < 100),
    htwo (by omega : t.minute < 100), htwo (by omega : t.second < 100)]
  rfl

end DateTime

end IdMint.Calendar
