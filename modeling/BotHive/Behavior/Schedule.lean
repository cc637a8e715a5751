import Mathlib.Data.Int.ConditionallyCompleteOrder
import Mathlib.Data.NNRat.Defs
import Mathlib.Order.Interval.Set.Defs
import BotHive.Library.Numeric

/-!
# Wake and sleep schedules

A schedule lists, for each day of the week, the windows of the local time in which a bot is
active, widened by a jitter. `shouldBeActive` looks at the windows of the weekday of an instant
only: a window that ends before it starts covers the end and the beginning of its own day, and
what the jitter adds stops at midnight.

## Main definitions

- `ActiveWindow`, `LifecycleSchedule`, `shouldBeActive`
- `ActiveWindow.pieces`: the stretches of its day that a window covers
- `LifecycleSchedule.InWidenedWeek`: the widened windows on the cycle of the week, where a
  window that ends before it starts runs into the next day

## Main results

- `windowActive_iff`: the code's test of one window
- `shouldBeActive_iff_pieces`: when a bot is active, and when that is the view of the week
-/

namespace BotHive.Behavior

/-- 0 is Sunday. -/
abbrev DayOfWeek := Fin 7

/-- A window between two times of the day; it may end at 24:00. -/
structure ActiveWindow where
  startHour : ℕ
  startMinute : ℕ
  endHour : ℕ
  endMinute : ℕ
  start_valid : startHour < 24 ∧ startMinute < 60 := by decide
  end_valid : endMinute < 60 ∧ endHour * 60 + endMinute ≤ 24 * 60 := by decide

namespace ActiveWindow

/-- The minute of the day at which the window opens. -/
def start (w : ActiveWindow) : ℤ :=
  w.startHour * 60 + w.startMinute

/-- The minute of the day at which the window closes. -/
def stop (w : ActiveWindow) : ℤ :=
  w.endHour * 60 + w.endMinute

theorem start_bounds (w : ActiveWindow) : 0 ≤ w.start ∧ w.start < 1440 := by
  obtain ⟨hhour, hminute⟩ := w.start_valid
  rw [start]
  omega

theorem stop_bounds (w : ActiveWindow) : 0 ≤ w.stop ∧ w.stop ≤ 1440 := by
  have hend := w.end_valid.2
  rw [stop]
  omega

end ActiveWindow

structure LifecycleSchedule where
  /-- Days without an entry have no windows. -/
  activeWindows : DayOfWeek → List ActiveWindow
  timezone : Option String
  jitterMs : Option ℚ≥0

/-- What `Intl` reports about an instant. -/
structure LocalTime where
  day : DayOfWeek
  hour : Fin 24
  minute : Fin 60
  deriving DecidableEq

/-- The minute of the day. -/
def LocalTime.currentMinutes (t : LocalTime) : ℤ :=
  t.hour.val * 60 + t.minute.val

/-- The local time of an instant, in milliseconds since the epoch, in a time zone. -/
abbrev LocalClock := (timeZone : String) → (now : ℤ) → LocalTime

namespace LifecycleSchedule

def localTime (s : LifecycleSchedule) (clock : LocalClock) (now : ℤ) : LocalTime :=
  clock (s.timezone.getD "UTC") now

/-- The jitter in milliseconds, a quarter of an hour by default. -/
def jitter (s : LifecycleSchedule) : ℚ :=
  s.jitterMs.getD (15 * 60 * 1000)

def jitterMinutes (s : LifecycleSchedule) : ℤ :=
  roundHalfUp (s.jitter / 60000)

end LifecycleSchedule

/-- Whether a minute of the day is in a window of the day. -/
def windowActive (jitterMinutes currentMinutes : ℤ) (w : ActiveWindow) : Bool :=
  let jitteredStart := max 0 (w.start - jitterMinutes)
  let jitteredEnd := min (24 * 60) (w.stop + jitterMinutes)
  if w.start ≤ w.stop then jitteredStart ≤ currentMinutes && currentMinutes ≤ jitteredEnd
  else jitteredStart ≤ currentMinutes || currentMinutes ≤ jitteredEnd

def shouldBeActive (clock : LocalClock) (now : ℤ) (s : LifecycleSchedule) : Bool :=
  let t := s.localTime clock now
  (s.activeWindows t.day).any (windowActive s.jitterMinutes t.currentMinutes)

section Meaning

/-- The stretches of its day that a window covers, from the first to the last minute. -/
def ActiveWindow.pieces (w : ActiveWindow) : List (ℤ × ℤ) :=
  if w.start ≤ w.stop then [(w.start, w.stop)] else [(w.start, 1440), (0, w.stop)]

/-- The last minute of a window, counted from the midnight before it: a window that ends before
    it starts runs into the next day. -/
def ActiveWindow.runsTo (w : ActiveWindow) : ℤ :=
  if w.start ≤ w.stop then w.stop else w.stop + 1440

namespace LifecycleSchedule

/-- A minute of the week lies in a widened window, on the cycle of the week. -/
def InWidenedWeek (s : LifecycleSchedule) (t : LocalTime) : Prop :=
  ∃ d : DayOfWeek, ∃ w ∈ s.activeWindows d, ∃ k : ℤ,
    t.day.val * 1440 + t.currentMinutes + 10080 * k ∈
      Set.Icc (d.val * 1440 + w.start - s.jitterMinutes)
        (d.val * 1440 + w.runsTo + s.jitterMinutes)

/-- No widened window reaches midnight. -/
def WithinDays (s : LifecycleSchedule) : Prop :=
  ∀ d, ∀ w ∈ s.activeWindows d,
    w.start ≤ w.stop ∧ s.jitterMinutes ≤ w.start ∧ w.stop + s.jitterMinutes < 1440

end LifecycleSchedule

variable {clock : LocalClock} {now : ℤ} {s : LifecycleSchedule} {w : ActiveWindow} {t : LocalTime}

theorem LocalTime.currentMinutes_bounds (t : LocalTime) :
    0 ≤ t.currentMinutes ∧ t.currentMinutes < 1440 := by
  have hhour := t.hour.isLt
  have hminute := t.minute.isLt
  rw [currentMinutes]
  omega

theorem LifecycleSchedule.jitterMinutes_nonneg (s : LifecycleSchedule) : 0 ≤ s.jitterMinutes := by
  have hjitter : 0 ≤ s.jitter / 60000 := div_nonneg (s.jitterMs.getD _).coe_nonneg (by norm_num)
  rw [jitterMinutes, roundHalfUp, Int.floor_nonneg]
  linarith

theorem LifecycleSchedule.jitterMinutes_default (h : s.jitterMs = none) : s.jitterMinutes = 15 := by
  have hjitter : s.jitter / 60000 = (15 : ℤ) := by
    rw [LifecycleSchedule.jitter, h]
    norm_num
  rw [jitterMinutes, hjitter, roundHalfUp_intCast]

theorem LifecycleSchedule.jitterMinutes_zero (h : s.jitterMs = some 0) : s.jitterMinutes = 0 := by
  have hjitter : s.jitter / 60000 = (0 : ℤ) := by
    rw [LifecycleSchedule.jitter, h]
    norm_num
  rw [jitterMinutes, hjitter, roundHalfUp_intCast]

/-- **Window**: the test of one window is that of its widened pieces. -/
theorem windowActive_iff {j m : ℤ} (hj : 0 ≤ j) (hm : 0 ≤ m ∧ m < 1440) (w : ActiveWindow) :
    windowActive j m w = true ↔ ∃ p ∈ w.pieces, m ∈ Set.Icc (p.1 - j) (p.2 + j) := by
  have hstart := w.start_bounds
  have hstop := w.stop_bounds
  rw [windowActive, ActiveWindow.pieces]
  by_cases hday : w.start ≤ w.stop
  · simp only [if_pos hday, Bool.and_eq_true, decide_eq_true_eq, List.mem_singleton, exists_eq_left,
      Set.mem_Icc]
    omega
  · simp only [if_neg hday, Bool.or_eq_true, decide_eq_true_eq, List.mem_cons, List.not_mem_nil,
      or_false, exists_eq_or_imp, exists_eq_left, Set.mem_Icc]
    omega

instance (s : LifecycleSchedule) : Decidable s.WithinDays :=
  inferInstanceAs (Decidable (∀ _, ∀ _ ∈ _, _ ∧ _ ∧ _))

/-- Within days, a minute of the week lies in the widened windows exactly if it lies in a widened
    window of its own day. -/
theorem LifecycleSchedule.WithinDays.inWidenedWeek_iff (hwithin : s.WithinDays) (t : LocalTime) :
    s.InWidenedWeek t ↔ ∃ w ∈ s.activeWindows t.day,
      t.currentMinutes ∈ Set.Icc (w.start - s.jitterMinutes) (w.stop + s.jitterMinutes) := by
  have hminute := t.currentMinutes_bounds
  have hday := t.day.isLt
  constructor
  · rintro ⟨d, w, hw, k, hmem⟩
    obtain ⟨hforward, hstart, hstop⟩ := hwithin d w hw
    rw [ActiveWindow.runsTo, if_pos hforward, Set.mem_Icc] at hmem
    have hd := d.isLt
    have hsame : t.day = d := Fin.ext (by omega)
    refine ⟨w, hsame ▸ hw, ?_⟩
    rw [Set.mem_Icc]
    rw [hsame] at hmem
    omega
  · rintro ⟨w, hw, hmem⟩
    have hforward := (hwithin t.day w hw).1
    refine ⟨t.day, w, hw, 0, ?_⟩
    rw [ActiveWindow.runsTo, if_pos hforward]
    rw [Set.mem_Icc] at hmem ⊢
    omega

/-- **Schedule**: a bot is active exactly in the widened pieces of the windows of its local
    weekday; where no widened window reaches midnight, these are the widened windows of the
    week. -/
theorem shouldBeActive_iff_pieces (clock : LocalClock) (now : ℤ) (s : LifecycleSchedule) :
    (shouldBeActive clock now s = true ↔
      ∃ w ∈ s.activeWindows (s.localTime clock now).day, ∃ p ∈ w.pieces,
        (s.localTime clock now).currentMinutes ∈
          Set.Icc (p.1 - s.jitterMinutes) (p.2 + s.jitterMinutes)) ∧
      (s.WithinDays →
        (shouldBeActive clock now s = true ↔ s.InWidenedWeek (s.localTime clock now))) := by
  have hpieces : shouldBeActive clock now s = true ↔
      ∃ w ∈ s.activeWindows (s.localTime clock now).day, ∃ p ∈ w.pieces,
        (s.localTime clock now).currentMinutes ∈
          Set.Icc (p.1 - s.jitterMinutes) (p.2 + s.jitterMinutes) := by
    simp only [shouldBeActive, List.any_eq_true,
      windowActive_iff s.jitterMinutes_nonneg (LocalTime.currentMinutes_bounds _)]
  refine ⟨hpieces, fun hwithin => ?_⟩
  rw [hpieces, hwithin.inWidenedWeek_iff]
  refine exists_congr fun w => and_congr_right fun hw => ?_
  rw [ActiveWindow.pieces, if_pos (hwithin _ w hw).1]
  simp only [List.mem_singleton, exists_eq_left]

/-- Mornings on Mondays, with the jitter of a quarter of an hour. -/
example : LifecycleSchedule.WithinDays
    ⟨fun d => if d = 1 then [⟨8, 0, 12, 0, by decide, by decide⟩] else [], none, none⟩ := by
  rw [LifecycleSchedule.WithinDays, LifecycleSchedule.jitterMinutes_default rfl]
  decide

end Meaning

section Overnight

/-- The local time of UTC, whatever the name of the zone; the epoch was a Thursday. -/
def utcClock : LocalClock := fun _ now =>
  ⟨Fin.ofNat 7 (now / 86400000 + 4).toNat, Fin.ofNat 24 (now / 3600000).toNat,
    Fin.ofNat 60 (now / 60000).toNat⟩

/-- Sundays from 22:00 to 02:00, without jitter. -/
def sundayNight : LifecycleSchedule where
  activeWindows d := if d = 0 then [⟨22, 0, 2, 0, by decide, by decide⟩] else []
  timezone := some "UTC"
  jitterMs := some 0

/-- The window of Sunday night is over on Monday, 8 January 2024, at 01:00. -/
theorem shouldBeActive_sundayNight :
    ¬(shouldBeActive utcClock 1704675600000 sundayNight = true ↔
      sundayNight.InWidenedWeek (sundayNight.localTime utcClock 1704675600000)) := by
  have hasleep : shouldBeActive utcClock 1704675600000 sundayNight = false := rfl
  have hweek : sundayNight.InWidenedWeek (sundayNight.localTime utcClock 1704675600000) := by
    refine ⟨0, ⟨22, 0, 2, 0, by decide, by decide⟩, List.mem_singleton.mpr rfl, 0, ?_⟩
    rw [LifecycleSchedule.jitterMinutes_zero rfl]
    decide
  rw [hasleep]
  exact fun h => absurd (h.mpr hweek) Bool.false_ne_true

end Overnight

end BotHive.Behavior
