import Criteria.Value
import Mathlib.Data.Rat.Floor
import Mathlib.Tactic.Linarith

namespace Criteria

@[simp] theorem daysBeforeMonth_one (year : ℕ) : daysBeforeMonth year 1 = 0 := rfl

theorem daysBeforeMonth_succ (year : ℕ) {month : ℕ} (h : 1 ≤ month) :
    daysBeforeMonth year (month + 1) = daysBeforeMonth year month + daysInMonth year month := by
  obtain ⟨i, rfl⟩ : ∃ i, month = i + 1 := ⟨month - 1, by omega⟩
  simp only [daysBeforeMonth, Nat.add_sub_cancel, List.range_succ, List.foldl_append, List.foldl_cons,
    List.foldl_nil]

theorem daysInMonth_pos (year month : ℕ) : 1 ≤ daysInMonth year month := by
  unfold daysInMonth
  split_ifs <;> omega

@[simp] theorem daysInMonth_december (year : ℕ) : daysInMonth year 12 = 31 := rfl

def daysInYear (year : ℕ) : ℕ := if isLeap year then 366 else 365

@[simp] theorem daysBeforeMonth_thirteen (year : ℕ) : daysBeforeMonth year 13 = daysInYear year := by
  cases h : isLeap year <;> simp [daysBeforeMonth, daysInMonth, daysInYear, h, List.range_succ]

theorem daysBeforeYear_succ (year : ℕ) :
    daysBeforeYear ((year + 1 : ℕ) : ℤ) = daysBeforeYear year + daysInYear year := by
  have hleap : isLeap year = true ↔ year % 4 = 0 ∧ (year % 100 ≠ 0 ∨ year % 400 = 0) := by simp [isLeap]
  simp only [daysBeforeYear, daysInYear]
  by_cases h : isLeap year = true
  · rw [if_pos h]
    have := hleap.1 h
    omega
  · rw [if_neg h]
    have := mt hleap.2 h
    omega

namespace Date
variable {d e : Date} {n : ℕ}

/-- The next day of the month, else the first of the next month, else the first of the next year. The last day of the
year 9999 has none. -/
def next? (d : Date) : Option Date :=
  if h : ValidDate d.year d.month (d.day + 1) then some ⟨d.year, d.month, d.day + 1, h⟩
  else if h : ValidDate d.year (d.month + 1) 1 then some ⟨d.year, d.month + 1, 1, h⟩
  else if h : ValidDate (d.year + 1) 1 1 then some ⟨d.year + 1, 1, 1, h⟩
  else none

theorem day_eq_daysInMonth (h : ¬ValidDate d.year d.month (d.day + 1)) : d.day = daysInMonth d.year d.month := by
  obtain ⟨hyear, hmonth, hday⟩ := d.valid
  by_contra hne
  exact h ⟨hyear, hmonth, by omega⟩

theorem month_eq_twelve (h : ¬ValidDate d.year (d.month + 1) 1) : d.month = 12 := by
  obtain ⟨hyear, hmonth, -⟩ := d.valid
  by_contra hne
  exact h ⟨hyear, by omega, le_rfl, daysInMonth_pos _ _⟩

theorem next?_cases (h : d.next? = some e) :
    (e.year = d.year ∧ e.month = d.month ∧ e.day = d.day + 1) ∨
    (d.day = daysInMonth d.year d.month ∧ e.year = d.year ∧ e.month = d.month + 1 ∧ e.day = 1) ∨
    (d.month = 12 ∧ d.day = 31 ∧ e.year = d.year + 1 ∧ e.month = 1 ∧ e.day = 1) := by
  unfold next? at h
  split_ifs at h with hday hmonth hyear <;> cases h
  · exact .inl ⟨rfl, rfl, rfl⟩
  · exact .inr (.inl ⟨day_eq_daysInMonth hday, rfl, rfl, rfl⟩)
  · have hlast := day_eq_daysInMonth hday
    rw [month_eq_twelve hmonth, daysInMonth_december] at hlast
    exact .inr (.inr ⟨month_eq_twelve hmonth, hlast, rfl, rfl, rfl⟩)

theorem ordinal_of_next? (h : d.next? = some e) : e.ordinal = d.ordinal + 1 := by
  unfold ordinal
  rcases next?_cases h with ⟨hy, hm, hd⟩ | ⟨hlast, hy, hm, hd⟩ | ⟨hdecember, hlast, hy, hm, hd⟩
  · rw [hy, hm, hd]
    push_cast
    ring
  · rw [hy, hm, hd, hlast, daysBeforeMonth_succ _ d.valid.2.1.1]
    push_cast
    ring
  · have hyear : daysInYear d.year = daysBeforeMonth d.year 12 + 31 :=
      (daysBeforeMonth_thirteen d.year).symm.trans (daysBeforeMonth_succ d.year (by decide))
    rw [hy, hm, hd, hdecember, hlast, daysBeforeYear_succ, daysBeforeMonth_one, hyear]
    push_cast
    ring

def first : Date := ⟨1, 1, 1, by decide⟩

def last : Date := ⟨9999, 12, 31, by decide⟩

theorem exists_next? (h : d ≠ last) : ∃ e, d.next? = some e := by
  unfold next?
  split_ifs with hday hmonth hyear
  · exact ⟨_, rfl⟩
  · exact ⟨_, rfl⟩
  · exact ⟨_, rfl⟩
  · have hend : d.year = 9999 := by
      obtain ⟨hrange, -⟩ := d.valid
      by_contra hne
      exact hyear ⟨by omega, by decide, le_rfl, daysInMonth_pos _ _⟩
    have hdecember := month_eq_twelve hmonth
    have hlast := day_eq_daysInMonth hday
    rw [hdecember, daysInMonth_december] at hlast
    obtain ⟨year, month, day, hd⟩ := d
    subst hend hdecember hlast
    exact absurd rfl h

theorem exists_previous (h : e ≠ first) : ∃ d : Date, d.next? = some e := by
  obtain ⟨year, month, day, he⟩ := e
  obtain ⟨hy, hm, hday⟩ := id he
  by_cases hone : day = 1
  · subst hone
    by_cases hjanuary : month = 1
    · -- the first of a year comes after a last of December
      subst hjanuary
      have hyear : year ≠ 1 := by
        rintro rfl
        exact h rfl
      obtain ⟨y, rfl⟩ : ∃ y, year = y + 1 := ⟨year - 1, by omega⟩
      have hd : ValidDate y 12 31 := ⟨by omega, by decide, by decide, le_rfl⟩
      have hday : ¬ValidDate y 12 (31 + 1) := fun ⟨_, _, _, hle⟩ => absurd hle (Nat.not_succ_le_self 31)
      have hmonth : ¬ValidDate y (12 + 1) 1 := fun ⟨_, hle, _⟩ => absurd hle (by decide)
      exact ⟨⟨y, 12, 31, hd⟩, by rw [next?, dif_neg hday, dif_neg hmonth, dif_pos he]⟩
    · obtain ⟨m, rfl⟩ : ∃ m, month = m + 1 := ⟨month - 1, by omega⟩
      have hd : ValidDate year m (daysInMonth year m) := ⟨hy, by omega, daysInMonth_pos _ _, le_rfl⟩
      have hday : ¬ValidDate year m (daysInMonth year m + 1) := fun ⟨_, _, _, hle⟩ => by omega
      exact ⟨⟨year, m, daysInMonth year m, hd⟩, by rw [next?, dif_neg hday, dif_pos he]⟩
  · obtain ⟨k, rfl⟩ : ∃ k, day = k + 1 := ⟨day - 1, by omega⟩
    have hd : ValidDate year month k := ⟨hy, hm, by omega⟩
    exact ⟨⟨year, month, k, hd⟩, by rw [next?, dif_pos he]⟩

theorem ordinal_pos (d : Date) : 1 ≤ d.ordinal := by
  obtain ⟨hyear, -, hday⟩ := d.valid
  simp only [ordinal, daysBeforeYear]
  omega

/-- Induction from each day to the next. -/
@[elab_as_elim]
theorem next_induction {P : Date → Prop} (start : P first) (next : ∀ d e, d.next? = some e → P d → P e) (d : Date) :
    P d := by
  induction hn : d.ordinal.toNat using Nat.strongRecOn generalizing d with
  | ind n ih =>
    by_cases h : d = first
    · exact h ▸ start
    · obtain ⟨p, hp⟩ := exists_previous h
      have hordinal := ordinal_of_next? hp
      have hpos := p.ordinal_pos
      exact next p d hp (ih p.ordinal.toNat (by omega) p rfl)

/-- The day that comes after `n` steps from a day to the next. -/
def after? (d : Date) : ℕ → Option Date
  | 0 => some d
  | n + 1 => (d.after? n).bind next?

theorem after?_add (d : Date) (m n : ℕ) : d.after? (m + n) = (d.after? m).bind fun x => x.after? n := by
  induction n with
  | zero => exact (Option.bind_fun_some _).symm
  | succ n ih =>
    rw [← Nat.add_assoc, after?, ih, Option.bind_assoc]
    rfl

theorem ordinal_of_after? (h : d.after? n = some e) : e.ordinal = d.ordinal + n := by
  induction n generalizing e with
  | zero =>
    cases h
    exact (add_zero _).symm
  | succ n ih =>
    obtain ⟨x, hx, he⟩ := Option.bind_eq_some_iff.1 h
    rw [ordinal_of_next? he, ih hx]
    push_cast
    ring

theorem first_after? (d : Date) : first.after? (d.ordinal - 1).toNat = some d := by
  induction d using next_induction with
  | start => rfl
  | next d e he ih =>
    have hpos := d.ordinal_pos
    have hn : (e.ordinal - 1).toNat = (d.ordinal - 1).toNat + 1 := by
      rw [ordinal_of_next? he]
      omega
    rw [hn, after?, ih]
    exact he

/-- The number of a day tells how many steps it is away. -/
theorem after?_eq_some_iff : d.after? n = some e ↔ e.ordinal = d.ordinal + n := by
  refine ⟨ordinal_of_after?, fun h => ?_⟩
  have hpos := d.ordinal_pos
  have hn : (e.ordinal - 1).toNat = (d.ordinal - 1).toNat + n := by omega
  have he := first_after? e
  rw [hn, after?_add, first_after? d] at he
  exact he

end Date

def epochDay : Date := ⟨1970, 1, 1, by decide⟩

@[simp] theorem ordinal_epochDay : epochDay.ordinal = Date.epochOrdinal := by decide

/-- How many days a day is behind the first of January 1970, counted one by one; a negative number for the days in
front of it. -/
inductive DaysFromEpoch : Date → ℤ → Prop
  | later {d : Date} {n : ℕ} : epochDay.after? n = some d → DaysFromEpoch d n
  | earlier {d : Date} {n : ℕ} : d.after? n = some epochDay → DaysFromEpoch d (-n)

theorem daysFromEpoch_iff {d : Date} {days : ℤ} :
    DaysFromEpoch d days ↔ days = d.ordinal - Date.epochOrdinal := by
  constructor
  · rintro (⟨h⟩ | ⟨h⟩)
    · rw [Date.ordinal_of_after? h, ordinal_epochDay]
      ring
    · rw [← ordinal_epochDay, Date.ordinal_of_after? h]
      ring
  · rintro rfl
    rw [← ordinal_epochDay]
    rcases le_total epochDay.ordinal d.ordinal with h | h
    · obtain ⟨n, hn⟩ := Int.le.dest h
      have hlater : DaysFromEpoch d n := .later (Date.after?_eq_some_iff.2 hn.symm)
      rwa [← hn, add_sub_cancel_left]
    · obtain ⟨n, hn⟩ := Int.le.dest h
      have hearlier : DaysFromEpoch d (-n) := .earlier (Date.after?_eq_some_iff.2 hn.symm)
      rwa [← hn, sub_add_cancel_left]

/-- The instant that a date or a moment stands for, in microseconds from the start of 1970, universal time: the days
that are counted, the time of day, and what local time is ahead taken off. -/
inductive StandsAt : Value → ℤ → Prop
  | date {d : Date} {days : ℤ} : DaysFromEpoch d days → StandsAt (.date d) (days * microsPerDay)
  | universal {d : Date} {days : ℤ} {c : Clock} : DaysFromEpoch d days →
    StandsAt (.moment ⟨d, c, none⟩) (days * microsPerDay + c.micros)
  | ahead {d : Date} {days : ℤ} {c : Clock} {o : Offset} : DaysFromEpoch d days →
    StandsAt (.moment ⟨d, c, some o⟩) (days * microsPerDay + c.micros - o.micros)

theorem exists_standsAt {v : Value} (h : v.kind = .date) : ∃ t, StandsAt v t := by
  cases v with
  | date d => exact ⟨_, .date (daysFromEpoch_iff.2 rfl)⟩
  | moment m =>
    obtain ⟨d, c, offset⟩ := m
    cases offset with
    | none => exact ⟨_, .universal (daysFromEpoch_iff.2 rfl)⟩
    | some o => exact ⟨_, .ahead (daysFromEpoch_iff.2 rfl)⟩
  | _ => exact nomatch h

theorem StandsAt.unique {v : Value} {s t : ℤ} (hs : StandsAt v s) (ht : StandsAt v t) : s = t := by
  cases hs with
  | date hd | universal hd | ahead hd =>
    cases ht with
    | _ hd' => rw [daysFromEpoch_iff.1 hd, daysFromEpoch_iff.1 hd']

theorem StandsAt.epochMillis? {v : Value} {t : ℤ} (h : StandsAt v t) : v.epochMillis? = some (t / 1000) := by
  cases h with
  | @date d days hd =>
    have hday : d.epochMillis = days * 86400000 := by rw [daysFromEpoch_iff.1 hd, Date.epochMillis]
    show some d.epochMillis = some (days * 86400000000 / 1000)
    rw [hday, show days * 86400000000 = days * 86400000 * 1000 by ring, Int.mul_ediv_cancel _ (by decide)]
  | @universal d days c hd =>
    have hinstant : (Moment.mk d c none).instant = days * microsPerDay + c.micros := by
      rw [daysFromEpoch_iff.1 hd]
      exact sub_zero _
    rw [← hinstant]
    rfl
  | @ahead d days c o hd =>
    rw [daysFromEpoch_iff.1 hd]
    rfl

/-- The millisecond of a date or a moment is the floor of its instant. The epoch is at zero, and each next day is
86400000 further. So a later instant has no lesser millisecond, one and the same instant has one millisecond however it
is described, and instants that lie a millisecond apart have different ones. -/
theorem epochMillis_eq_floor_instant :
    (Value.date epochDay).epochMillis? = some 0 ∧
    (∀ d ≠ Date.last, ∃ e, d.next? = some e ∧ e.epochMillis = d.epochMillis + 86400000) ∧
    (∀ v, v.kind = .date → ∃! t, StandsAt v t) ∧
    (∀ v t, StandsAt v t → v.epochMillis? = some ⌊(t : ℚ) / 1000⌋) ∧
    ∀ v w s t, StandsAt v s → StandsAt w t → ∃ m n, v.epochMillis? = some m ∧ w.epochMillis? = some n ∧
      (s ≤ t → m ≤ n) ∧ (s = t → m = n) ∧ (s + 1000 ≤ t → m < n) := by
  refine ⟨rfl, fun d hd => ?_, fun v hv => ?_, fun v t h => ?_, fun v w s t hs ht => ?_⟩
  · obtain ⟨e, he⟩ := Date.exists_next? hd
    refine ⟨e, he, ?_⟩
    rw [Date.epochMillis, Date.epochMillis, Date.ordinal_of_next? he]
    ring
  · obtain ⟨t, ht⟩ := exists_standsAt hv
    exact ⟨t, ht, fun s hs => hs.unique ht⟩
  · have hfloor : ⌊(t : ℚ) / ((1000 : ℕ) : ℚ)⌋ = t / (1000 : ℕ) := Rat.floor_intCast_div_natCast t 1000
    rw [h.epochMillis?]
    exact congrArg some hfloor.symm
  · exact ⟨s / 1000, t / 1000, hs.epochMillis?, ht.epochMillis?, by omega, by omega, by omega⟩

/-- February of 1900 ends on the 28th. A microsecond before the epoch is in the millisecond before it. Midnight an hour
ahead of universal time and ten in the evening an hour behind it are one instant. -/
theorem epochMillis_eq_floor_instant_around_epoch :
    let february : Date := ⟨1900, 2, 28, by decide⟩
    let march : Date := ⟨1900, 3, 1, by decide⟩
    let eve : Date := ⟨1969, 12, 31, by decide⟩
    let lastMicro : Clock := ⟨23, 59, 59, 999999⟩
    let hour : Offset := ⟨3600000000, by decide⟩
    let behind : Offset := ⟨-3600000000, by decide⟩
    (february.next? = some march ∧ march.epochMillis = february.epochMillis + 86400000) ∧
    (StandsAt (.moment ⟨eve, lastMicro, none⟩) (-1) ∧
      (Value.moment ⟨eve, lastMicro, none⟩).epochMillis? = some ⌊((-1 : ℤ) : ℚ) / 1000⌋) ∧
    ∃ m n, (Value.moment ⟨epochDay, .midnight, some hour⟩).epochMillis? = some m ∧
      (Value.moment ⟨eve, ⟨22, 0, 0, 0⟩, some behind⟩).epochMillis? = some n ∧ m = n := by
  intro february march eve lastMicro hour behind
  obtain ⟨-, hnext, -, hfloor, hpairs⟩ := epochMillis_eq_floor_instant
  have heve : DaysFromEpoch eve (-(1 : ℕ)) := .earlier (by decide)
  have hepoch : DaysFromEpoch epochDay (0 : ℕ) := .later rfl
  have hmicros : -((1 : ℕ) : ℤ) * microsPerDay + lastMicro.micros = -1 := by decide
  have hlast : StandsAt (.moment ⟨eve, lastMicro, none⟩) (-1) := by
    rw [← hmicros]
    exact .universal heve
  have hahead : StandsAt (.moment ⟨epochDay, .midnight, some hour⟩) _ := .ahead hepoch
  have hbehind : StandsAt (.moment ⟨eve, ⟨22, 0, 0, 0⟩, some behind⟩) _ := .ahead heve
  refine ⟨?_, ⟨hlast, hfloor _ _ hlast⟩, ?_⟩
  · obtain ⟨e, he, hmillis⟩ := hnext february (by decide)
    obtain rfl : march = e := Option.some.inj (Eq.trans (by decide) he)
    exact ⟨he, hmillis⟩
  · obtain ⟨m, n, hm, hn, -, hsame, -⟩ := hpairs _ _ _ _ hahead hbehind
    exact ⟨m, n, hm, hn, hsame (by decide)⟩

end Criteria
