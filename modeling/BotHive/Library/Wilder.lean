import Mathlib.Algebra.Order.Field.Basic
import Mathlib.Tactic.FieldSimp
import Mathlib.Tactic.Linarith
import Mathlib.Tactic.Positivity
import Mathlib.Tactic.Ring

/-!
# Wilder's smoothing of gains and losses

The steps of a series are split into gains and losses, which are averaged over a first stretch
and then smoothed one step at a time. The relative strength of the two averages is a number of
percent. Scaling the steps does not change it, and negating them takes it to its complement.

## Main definitions

- `steps`: the differences of a series
- `Moves`: an average gain and an average loss
- `Moves.average`: plain averages of the first `n` steps, smoothed over the others
- `Moves.strength`: the gain as a part of both, in percent

## Main results

- `Moves.average_map_mul`, `average_map_neg`: scaled and negated steps
- `Moves.strength_scale`, `strength_mirror`, `strength_nonneg`, `strength_le`
-/

section Steps

variable {K : Type*} [Field K]

/-- The differences between the elements of a series and the ones before them. -/
def steps (xs : List K) : List K :=
  List.zipWith (fun next prev => next - prev) xs.tail xs

@[simp] theorem length_steps (xs : List K) : (steps xs).length = xs.length - 1 := by
  rw [steps, List.length_zipWith, List.length_tail]
  exact min_eq_left (Nat.sub_le _ _)

theorem steps_map_affine (a b : K) (xs : List K) :
    steps (xs.map fun x => a * x + b) = (steps xs).map (a * ·) := by
  rw [steps, steps, ← List.map_tail, List.zipWith_map, List.map_zipWith]
  congr 1
  funext next prev
  ring

theorem steps_cons_cons (x y : K) (xs : List K) :
    steps (x :: y :: xs) = (y - x) :: steps (y :: xs) :=
  rfl

theorem steps_map_neg (xs : List K) : steps (xs.map (- ·)) = (steps xs).map (- ·) := by
  rw [steps, steps, ← List.map_tail, List.zipWith_map, List.map_zipWith]
  congr 1
  funext next prev
  ring

end Steps

section Parts

variable {K : Type*} [Field K] [LinearOrder K]

/-- What a step gains. -/
def gainOf (d : K) : K := if 0 ≤ d then d else 0

/-- What a step loses. -/
def lossOf (d : K) : K := if d < 0 then -d else 0

theorem gainOf_nonneg (d : K) : 0 ≤ gainOf d := by
  rw [gainOf]
  split_ifs with h
  · exact h
  · exact le_rfl

theorem gainOf_of_neg {d : K} (h : d < 0) : gainOf d = 0 :=
  if_neg h.not_ge

theorem lossOf_of_neg {d : K} (h : d < 0) : lossOf d = -d :=
  if_pos h

variable [IsStrictOrderedRing K]

/-- The steps of a series that falls are negative. -/
theorem steps_neg_of_pairwise {xs : List K} (hfalls : xs.Pairwise (· > ·)) :
    ∀ d ∈ steps xs, d < 0 := by
  induction xs with
  | nil => exact fun d hd => absurd hd List.not_mem_nil
  | cons x xs ih =>
    cases xs with
    | nil => exact fun d hd => absurd hd List.not_mem_nil
    | cons y ys =>
      intro d hd
      rw [steps_cons_cons] at hd
      obtain ⟨hhead, htail⟩ := List.pairwise_cons.mp hfalls
      rcases List.mem_cons.mp hd with rfl | hd
      · exact sub_neg_of_lt (hhead y List.mem_cons_self)
      · exact ih htail d hd

theorem lossOf_nonneg (d : K) : 0 ≤ lossOf d := by
  rw [lossOf]
  split_ifs with h
  · exact neg_nonneg.mpr h.le
  · exact le_rfl

theorem gainOf_mul {a : K} (ha : 0 < a) (d : K) : gainOf (a * d) = a * gainOf d := by
  by_cases h : 0 ≤ d
  · rw [gainOf, gainOf, if_pos (mul_nonneg ha.le h), if_pos h]
  · rw [gainOf, gainOf, if_neg (mul_neg_of_pos_of_neg ha (not_le.mp h)).not_ge, if_neg h, mul_zero]

theorem gainOf_neg (d : K) : gainOf (-d) = lossOf d := by
  rcases lt_trichotomy d 0 with h | rfl | h
  · rw [gainOf, lossOf, if_pos (neg_nonneg.mpr h.le), if_pos h]
  · rw [gainOf, lossOf, neg_zero, if_pos le_rfl, if_neg (lt_irrefl 0)]
  · rw [gainOf, lossOf, if_neg (neg_neg_of_pos h).not_ge, if_neg h.not_gt]

theorem lossOf_neg (d : K) : lossOf (-d) = gainOf d := by
  rw [← gainOf_neg, neg_neg]

theorem lossOf_mul {a : K} (ha : 0 < a) (d : K) : lossOf (a * d) = a * lossOf d := by
  rw [← gainOf_neg, ← gainOf_neg, ← mul_neg, gainOf_mul ha]

end Parts

/-- Two averages that are never negative. -/
@[ext]
structure Moves (K : Type*) [Field K] [LinearOrder K] [IsStrictOrderedRing K] where
  gain : K
  loss : K
  gain_nonneg : 0 ≤ gain
  loss_nonneg : 0 ≤ loss

namespace Moves

variable {K : Type*} [Field K] [LinearOrder K] [IsStrictOrderedRing K]

def zero : Moves K := ⟨0, 0, le_rfl, le_rfl⟩

/-- Count a step in. -/
def add (m : Moves K) (d : K) : Moves K where
  gain := m.gain + gainOf d
  loss := m.loss + lossOf d
  gain_nonneg := add_nonneg m.gain_nonneg (gainOf_nonneg d)
  loss_nonneg := add_nonneg m.loss_nonneg (lossOf_nonneg d)

def div (m : Moves K) (n : ℕ) : Moves K where
  gain := m.gain / n
  loss := m.loss / n
  gain_nonneg := div_nonneg m.gain_nonneg (Nat.cast_nonneg n)
  loss_nonneg := div_nonneg m.loss_nonneg (Nat.cast_nonneg n)

/-- A step enters the averages with the weight of one in `n`. -/
def smooth (n : ℕ) (m : Moves K) (d : K) : Moves K where
  gain := (m.gain * (n - 1 : ℕ) + gainOf d) / n
  loss := (m.loss * (n - 1 : ℕ) + lossOf d) / n
  gain_nonneg := div_nonneg
    (add_nonneg (mul_nonneg m.gain_nonneg (Nat.cast_nonneg _)) (gainOf_nonneg d))
    (Nat.cast_nonneg n)
  loss_nonneg := div_nonneg
    (add_nonneg (mul_nonneg m.loss_nonneg (Nat.cast_nonneg _)) (lossOf_nonneg d))
    (Nat.cast_nonneg n)

/-- Plain averages of the first `n` steps, smoothed over the others. -/
def average (n : ℕ) (ds : List K) : Moves K :=
  (ds.drop n).foldl (smooth n) (((ds.take n).foldl add zero).div n)

/-- The gain as a part of gain and loss, in percent; fifty when nothing moves. -/
def strength (m : Moves K) : K :=
  if m.loss = 0 then if m.gain = 0 then 50 else 100 else 100 - 100 / (1 + m.gain / m.loss)

/-- Both averages multiplied by a number. -/
def scale (a : {a : K // 0 < a}) (m : Moves K) : Moves K where
  gain := a.1 * m.gain
  loss := a.1 * m.loss
  gain_nonneg := mul_nonneg a.2.le m.gain_nonneg
  loss_nonneg := mul_nonneg a.2.le m.loss_nonneg

/-- Gains taken for losses. -/
def mirror (m : Moves K) : Moves K where
  gain := m.loss
  loss := m.gain
  gain_nonneg := m.loss_nonneg
  loss_nonneg := m.gain_nonneg

section Scale

variable (a : {a : K // 0 < a}) (m : Moves K) (n : ℕ) (d : K)

theorem add_scale : (m.scale a).add (a.1 * d) = (m.add d).scale a := by
  ext
  · simp only [add, scale, gainOf_mul a.2, mul_add]
  · simp only [add, scale, lossOf_mul a.2, mul_add]

theorem div_scale : (m.scale a).div n = (m.div n).scale a := by
  ext <;> exact mul_div_assoc ..

theorem smooth_scale : (m.scale a).smooth n (a.1 * d) = (m.smooth n d).scale a := by
  ext
  · simp only [smooth, scale, gainOf_mul a.2]
    ring
  · simp only [smooth, scale, lossOf_mul a.2]
    ring

theorem scale_zero : zero.scale a = (zero : Moves K) := by
  ext <;> exact mul_zero _

/-- Scaled steps lead to scaled averages, as each step of both loops does. -/
theorem average_map_mul (ds : List K) :
    average n (ds.map (a.1 * ·)) = (average n ds).scale a := by
  have hseed : ((ds.take n).map (a.1 * ·)).foldl add zero =
      ((ds.take n).foldl add zero).scale a := by
    rw [List.foldl_map]
    nth_rewrite 1 [← scale_zero a]
    exact List.foldl_hom (scale a) fun m d => add_scale a m d
  rw [average, average, ← List.map_take, ← List.map_drop, hseed, div_scale, List.foldl_map]
  exact List.foldl_hom (scale a) fun m d => smooth_scale a m n d

theorem strength_scale : (m.scale a).strength = m.strength := by
  have ha : a.1 ≠ 0 := a.2.ne'
  have hloss : (m.scale a).loss = 0 ↔ m.loss = 0 := mul_eq_zero_iff_left ha
  have hgain : (m.scale a).gain = 0 ↔ m.gain = 0 := mul_eq_zero_iff_left ha
  have hratio : (m.scale a).gain / (m.scale a).loss = m.gain / m.loss :=
    mul_div_mul_left _ _ ha
  simp only [strength, hloss, hgain, hratio]

end Scale

section Mirror

variable (m : Moves K) (n : ℕ) (d : K)

theorem add_mirror : m.mirror.add (-d) = (m.add d).mirror := by
  ext
  · exact congrArg (m.loss + ·) (gainOf_neg d)
  · exact congrArg (m.gain + ·) (lossOf_neg d)

theorem smooth_mirror : m.mirror.smooth n (-d) = (m.smooth n d).mirror := by
  ext
  · simp only [smooth, mirror, gainOf_neg]
  · simp only [smooth, mirror, lossOf_neg]

/-- Negated steps lead to averages with gain and loss exchanged. -/
theorem average_map_neg (ds : List K) :
    average n (ds.map (- ·)) = (average n ds).mirror := by
  have hseed : ((ds.take n).map (- ·)).foldl add zero =
      ((ds.take n).foldl add zero).mirror := by
    rw [List.foldl_map]
    show List.foldl (fun (m : Moves K) d => m.add (-d)) zero.mirror (ds.take n) = _
    refine List.foldl_hom mirror ?_
    exact fun m d => add_mirror m d
  rw [average, average, ← List.map_take, ← List.map_drop, hseed, List.foldl_map]
  show List.foldl (fun (m : Moves K) d => m.smooth n (-d))
    (((ds.take n).foldl add zero).div n).mirror (ds.drop n) = _
  refine List.foldl_hom mirror ?_
  exact fun m d => smooth_mirror m n d

/-- The gain as a part of both. -/
theorem strength_eq (h : 0 < m.gain + m.loss) :
    m.strength = 100 * (m.gain / (m.gain + m.loss)) := by
  rw [strength]
  split_ifs with hloss hgain
  · rw [hloss, hgain, add_zero] at h
    exact absurd h (lt_irrefl 0)
  · rw [hloss, add_zero, div_self hgain, mul_one]
  · have hsum : m.loss + m.gain ≠ 0 := (add_comm m.gain m.loss ▸ h).ne'
    rw [one_add_div hloss, add_comm m.gain]
    field_simp
    ring

theorem strength_of_still (h : m.gain + m.loss = 0) : m.strength = 50 := by
  have hgain : m.gain = 0 := le_antisymm (by linarith [m.loss_nonneg]) m.gain_nonneg
  have hloss : m.loss = 0 := by rwa [hgain, zero_add] at h
  rw [strength, if_pos hloss, if_pos hgain]

/-- Either nothing moves or something does. -/
theorem still_or_moving : m.gain + m.loss = 0 ∨ 0 < m.gain + m.loss :=
  (add_nonneg m.gain_nonneg m.loss_nonneg).eq_or_lt'.symm.symm

theorem strength_mirror : m.mirror.strength = 100 - m.strength := by
  have hcomm : m.mirror.gain + m.mirror.loss = m.gain + m.loss := add_comm _ _
  rcases m.still_or_moving with h | h
  · rw [strength_of_still _ (hcomm.trans h), strength_of_still _ h]
    norm_num
  · rw [strength_eq _ (hcomm ▸ h), strength_eq _ h, hcomm]
    show 100 * (m.loss / (m.gain + m.loss)) = 100 - 100 * (m.gain / (m.gain + m.loss))
    field_simp
    ring

theorem strength_nonneg : 0 ≤ m.strength := by
  rcases m.still_or_moving with h | h
  · rw [strength_of_still _ h]
    norm_num
  · rw [strength_eq _ h]
    exact mul_nonneg (by norm_num) (div_nonneg m.gain_nonneg h.le)

theorem strength_le : m.strength ≤ 100 := by
  have hmirror := m.mirror.strength_nonneg
  rw [strength_mirror] at hmirror
  exact sub_nonneg.mp hmirror

end Mirror

section Falling

variable {m : Moves K} {n : ℕ} {ds : List K}

/-- There is loss and no gain. -/
def OnlyLoss (m : Moves K) : Prop :=
  m.gain = 0 ∧ 0 < m.loss

theorem onlyLoss_add {d : K} (hd : d < 0) (hm : m.gain = 0) : (m.add d).OnlyLoss := by
  constructor
  · show m.gain + gainOf d = 0
    rw [hm, gainOf_of_neg hd, add_zero]
  · show 0 < m.loss + lossOf d
    rw [lossOf_of_neg hd]
    exact add_pos_of_nonneg_of_pos m.loss_nonneg (neg_pos.mpr hd)

theorem OnlyLoss.div (h : m.OnlyLoss) (hn : 0 < n) : (m.div n).OnlyLoss := by
  constructor
  · show m.gain / n = 0
    rw [h.1, zero_div]
  · exact div_pos h.2 (Nat.cast_pos.mpr hn)

theorem OnlyLoss.smooth (h : m.OnlyLoss) (hn : 0 < n) {d : K} (hd : d < 0) :
    (m.smooth n d).OnlyLoss := by
  have hpos : (0 : K) < n := Nat.cast_pos.mpr hn
  constructor
  · show (m.gain * (n - 1 : ℕ) + gainOf d) / n = 0
    rw [h.1, gainOf_of_neg hd, zero_mul, add_zero, zero_div]
  · show 0 < (m.loss * (n - 1 : ℕ) + lossOf d) / n
    rw [lossOf_of_neg hd]
    exact div_pos (add_pos_of_nonneg_of_pos
      (mul_nonneg h.2.le (Nat.cast_nonneg _)) (neg_pos.mpr hd)) hpos

/-- What each falling step keeps, a loop over falling steps keeps. -/
theorem OnlyLoss.foldl {f : Moves K → K → Moves K}
    (hf : ∀ m d, OnlyLoss m → d < 0 → (f m d).OnlyLoss) (h : m.OnlyLoss)
    (hfalling : ∀ d ∈ ds, d < 0) : (ds.foldl f m).OnlyLoss := by
  induction ds generalizing m with
  | nil => exact h
  | cons d ds ih =>
    exact ih (hf m d h (hfalling d List.mem_cons_self))
      fun e he => hfalling e (List.mem_cons_of_mem d he)

/-- Steps that all fall leave loss and no gain. -/
theorem onlyLoss_average (hn : 0 < n) (hlength : n ≤ ds.length) (hfalling : ∀ d ∈ ds, d < 0) :
    (average n ds).OnlyLoss := by
  have hseed : ((ds.take n).foldl add zero).OnlyLoss := by
    have htaken : ∀ d ∈ ds.take n, d < 0 := fun d hd => hfalling d (List.mem_of_mem_take hd)
    cases htake : ds.take n with
    | nil =>
      rcases List.take_eq_nil_iff.mp htake with hzero | rfl
      · exact absurd hzero hn.ne'
      · exact absurd hlength hn.not_ge
    | cons d rest =>
      rw [htake] at htaken
      rw [List.foldl_cons]
      exact (onlyLoss_add (htaken d List.mem_cons_self) rfl).foldl
        (fun m d hm hd => onlyLoss_add hd hm.1) fun e he => htaken e (List.mem_cons_of_mem d he)
  exact (hseed.div hn).foldl (fun m d hm hd => hm.smooth hn hd)
    fun d hd => hfalling d (List.mem_of_mem_drop hd)

theorem OnlyLoss.strength (h : m.OnlyLoss) : m.strength = 0 := by
  rw [strength_eq m (by rw [h.1, zero_add]; exact h.2), h.1, zero_div, mul_zero]

end Falling

end Moves
