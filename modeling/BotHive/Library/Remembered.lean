import Mathlib.Data.List.Basic
import Mathlib.Tactic.Common

/-!
# Remembering at most so many items

A set in the order of insertion that drops its oldest member when it grows beyond a bound. It
is used to go through a listing and to pick out the items that it does not remember.

## Main definitions

- `remember`: one more item
- `pickNew`: a whole listing
- `Keeps`: nothing is dropped that is listed

## Main results

- `pickNew_eq`: the items that were not remembered are picked once each, if nothing is dropped
  that is listed
- `mem_pickNew_iff`: what is remembered after it
-/

variable {α : Type*} [DecidableEq α]

/-- The members, the oldest first, with a new one. -/
def remember (bound : ℕ) (seen : List α) (u : α) : List α :=
  if bound < seen.length + 1 then (seen ++ [u]).tail else seen ++ [u]

/-- What is remembered after a listing, and the items that were new when they were met. -/
def pickNew (bound : ℕ) : List α → List α → List α × List α
  | seen, [] => (seen, [])
  | seen, u :: rest =>
    if u ∈ seen then pickNew bound seen rest
    else
      let (seen', new) := pickNew bound (remember bound seen u) rest
      (seen', u :: new)

def unseen (seen listed : List α) : List α :=
  listed.filter fun u => u ∉ seen

/-- How many members a listing drops, if it drops none that it lists. -/
def overflow (bound : ℕ) (seen listed : List α) : ℕ :=
  seen.length + (unseen seen listed).length - bound

/-- The members that are dropped for a listing are none of the given items. -/
structure Keeps (bound : ℕ) (seen listed items : List α) : Prop where
  fits : (unseen seen listed).length ≤ bound
  dropped : ∀ v ∈ seen.take (overflow bound seen listed), v ∉ items

instance decidableKeeps (bound : ℕ) (seen listed items : List α) :
    Decidable (Keeps bound seen listed items) :=
  decidable_of_iff ((unseen seen listed).length ≤ bound ∧
      ∀ v ∈ seen.take (overflow bound seen listed), v ∉ items)
    ⟨fun h => ⟨h.1, h.2⟩, fun h => ⟨h.fits, h.dropped⟩⟩

variable {bound : ℕ} {seen listed items : List α} {u : α}

theorem mem_unseen : u ∈ unseen seen listed ↔ u ∈ listed ∧ u ∉ seen := by
  rw [unseen, List.mem_filter, decide_eq_true_eq]

theorem nodup_unseen (hnodup : listed.Nodup) (seen : List α) : (unseen seen listed).Nodup :=
  hnodup.filter _

theorem unseen_cons_of_mem (hu : u ∈ seen) (rest : List α) :
    unseen seen (u :: rest) = unseen seen rest :=
  List.filter_cons_of_neg (by simpa using hu)

theorem unseen_cons_of_notMem (hu : u ∉ seen) (rest : List α) :
    unseen seen (u :: rest) = u :: unseen seen rest :=
  List.filter_cons_of_pos (by simpa using hu)

/-- Members that differ in items that are not listed leave the same ones new. -/
theorem unseen_congr {seen' : List α} (h : ∀ v ∈ listed, v ∈ seen' ↔ v ∈ seen) :
    unseen seen' listed = unseen seen listed := by
  apply List.filter_congr
  intro v hv
  rw [decide_eq_decide, not_iff_not]
  exact h v hv

theorem Keeps.mono {items' : List α} (h : Keeps bound seen listed items)
    (hsub : ∀ v ∈ items', v ∈ items) : Keeps bound seen listed items' :=
  ⟨h.fits, fun v hv hmem => h.dropped v hv (hsub v hmem)⟩

omit [DecidableEq α] in
/-- A full set drops its first member. -/
theorem remember_cons (hfull : bound < seen.length + 2) (v : α) :
    remember bound (v :: seen) u = seen ++ [u] := by
  rw [remember, List.length_cons, if_pos hfull]
  rfl

omit [DecidableEq α] in
theorem remember_of_le (hroom : seen.length + 1 ≤ bound) : remember bound seen u = seen ++ [u] :=
  if_neg (by omega)

/-- The first new item of a listing with enough room for it. -/
theorem Keeps.remember_of_room {rest : List α} (h : Keeps bound seen (u :: rest) (u :: rest))
    (hmem : u ∉ seen) (hu : u ∉ rest) (hroom : seen.length + 1 ≤ bound) :
    unseen (remember bound seen u) rest = unseen seen rest ∧
      Keeps bound (remember bound seen u) rest rest ∧
      (remember bound seen u ++ unseen seen rest).drop
          (overflow bound (remember bound seen u) rest) =
        (seen ++ u :: unseen seen rest).drop (overflow bound seen (u :: rest)) := by
  have hcons := unseen_cons_of_notMem hmem rest
  have hfits := h.fits
  rw [hcons, List.length_cons] at hfits
  rw [remember_of_le hroom]
  have hsame : unseen (seen ++ [u]) rest = unseen seen rest :=
    unseen_congr fun v hv => by
      have hne : v ≠ u := fun heq => hu (heq ▸ hv)
      simp [hne]
  have hk : overflow bound (seen ++ [u]) rest = overflow bound seen (u :: rest) := by
    rw [overflow, hsame, overflow, hcons, List.length_append, List.length_singleton,
      List.length_cons, Nat.add_assoc, Nat.add_comm 1]
  have hle : overflow bound seen (u :: rest) ≤ seen.length := by
    rw [overflow, hcons, List.length_cons]
    omega
  refine ⟨hsame, ⟨by rw [hsame]; omega, ?_⟩, ?_⟩
  · rw [hk, List.take_append_of_le_length hle]
    intro v hv hlisted
    exact h.dropped v hv (List.mem_cons_of_mem u hlisted)
  · rw [hk, List.append_assoc, List.singleton_append]

/-- The first new item of a listing drops the first member of a full set. -/
theorem Keeps.remember_of_full {rest : List α} {v : α}
    (h : Keeps bound (v :: seen) (u :: rest) (u :: rest)) (hmem : u ∉ v :: seen) (hu : u ∉ rest)
    (hfull : seen.length + 1 = bound) :
    unseen (seen ++ [u]) rest = unseen (v :: seen) rest ∧
      Keeps bound (seen ++ [u]) rest rest ∧
      (seen ++ [u] ++ unseen (v :: seen) rest).drop (overflow bound (seen ++ [u]) rest) =
        (v :: seen ++ u :: unseen (v :: seen) rest).drop
          (overflow bound (v :: seen) (u :: rest)) := by
  have hcons := unseen_cons_of_notMem hmem rest
  have hfits := h.fits
  rw [hcons, List.length_cons] at hfits
  have hk : overflow bound (v :: seen) (u :: rest) = (unseen (v :: seen) rest).length + 1 := by
    rw [overflow, hcons, List.length_cons, List.length_cons]
    omega
  have hdropped := h.dropped
  rw [hk] at hdropped
  have hv : v ∉ u :: rest := hdropped v List.mem_cons_self
  have hsame : unseen (seen ++ [u]) rest = unseen (v :: seen) rest :=
    unseen_congr fun x hx => by
      have hne : x ≠ u := fun heq => hu (heq ▸ hx)
      have hne' : x ≠ v := fun heq => hv (heq ▸ List.mem_cons_of_mem u hx)
      simp [hne, hne']
  have hk' : overflow bound (seen ++ [u]) rest = (unseen (v :: seen) rest).length := by
    rw [overflow, hsame, List.length_append, List.length_singleton]
    omega
  refine ⟨hsame, ⟨by rw [hsame]; omega, ?_⟩, ?_⟩
  · rw [hk', List.take_append_of_le_length (by omega)]
    intro x hx hlisted
    exact hdropped x (List.mem_cons_of_mem v hx) (List.mem_cons_of_mem u hlisted)
  · rw [hk, hk', List.append_assoc, List.singleton_append, List.cons_append, List.drop_succ_cons]

omit [DecidableEq α] in
theorem length_remember (hlen : seen.length ≤ bound) : (remember bound seen u).length ≤ bound := by
  rw [remember]
  split_ifs with hfull
  · simpa using hlen
  · simpa using hfull

/-- The items that were not remembered are picked in the order of the listing. -/
theorem pickNew_eq (hnodup : listed.Nodup) (hlen : seen.length ≤ bound)
    (h : Keeps bound seen listed listed) : pickNew bound seen listed =
      ((seen ++ unseen seen listed).drop (overflow bound seen listed), unseen seen listed) := by
  induction listed generalizing seen with
  | nil =>
    have hzero : overflow bound seen ([] : List α) = 0 := Nat.sub_eq_zero_of_le hlen
    rw [hzero, pickNew, unseen, List.filter_nil, List.append_nil, List.drop_zero]
  | cons u rest ih =>
    obtain ⟨hu, hrest⟩ := List.nodup_cons.mp hnodup
    by_cases hmem : u ∈ seen
    · have hsame := unseen_cons_of_mem hmem rest
      have hover : overflow bound seen (u :: rest) = overflow bound seen rest := by
        rw [overflow, hsame, overflow]
      rw [pickNew, if_pos hmem, hsame, hover]
      apply ih hrest hlen
      refine ⟨hsame ▸ h.fits, ?_⟩
      intro v hv hlisted
      exact h.dropped v (hover ▸ hv) (List.mem_cons_of_mem u hlisted)
    · have hcons := unseen_cons_of_notMem hmem rest
      have hbound : 0 < bound := by
        have hfits := h.fits
        rw [hcons, List.length_cons] at hfits
        omega
      have hstep : unseen (remember bound seen u) rest = unseen seen rest ∧
          Keeps bound (remember bound seen u) rest rest ∧
          (remember bound seen u ++ unseen seen rest).drop
              (overflow bound (remember bound seen u) rest) =
            (seen ++ u :: unseen seen rest).drop (overflow bound seen (u :: rest)) := by
        by_cases hroom : seen.length + 1 ≤ bound
        · exact h.remember_of_room hmem hu hroom
        · cases seen with
          | nil => exact absurd hbound (by simpa using hroom)
          | cons v seen =>
            rw [List.length_cons] at hlen hroom
            rw [remember_cons (by omega)]
            exact h.remember_of_full hmem hu (by omega)
      obtain ⟨hsame, hkeeps, hdrop⟩ := hstep
      rw [pickNew, if_neg hmem, ih hrest (length_remember hlen) hkeeps, hsame, hcons, hdrop]

section Listing

variable (hnodup : listed.Nodup) (hlen : seen.length ≤ bound)
  (hsub : ∀ v ∈ listed, v ∈ items) (h : Keeps bound seen listed items)

include hnodup hlen hsub h

theorem pickNew_snd : (pickNew bound seen listed).2 = unseen seen listed := by
  rw [pickNew_eq hnodup hlen (h.mono hsub)]

theorem pickNew_fst : (pickNew bound seen listed).1 =
    seen.drop (overflow bound seen listed) ++ unseen seen listed := by
  have hfits := h.fits
  rw [pickNew_eq hnodup hlen (h.mono hsub)]
  apply List.drop_append_of_le_length
  rw [overflow]
  omega

theorem length_pickNew : (pickNew bound seen listed).1.length ≤ bound := by
  have hfits := h.fits
  rw [pickNew_fst hnodup hlen hsub h, List.length_append, List.length_drop, overflow]
  omega

/-- Nothing is remembered that was not, unless it is listed. -/
theorem mem_or_mem_of_mem_pickNew (hu : u ∈ (pickNew bound seen listed).1) :
    u ∈ seen ∨ u ∈ listed := by
  rw [pickNew_fst hnodup hlen hsub h, List.mem_append] at hu
  apply hu.imp
  · exact fun hdrop => List.mem_of_mem_drop hdrop
  · exact fun hnew => (mem_unseen.mp hnew).1

/-- Of the items that are not dropped, those are remembered that were or that are listed. -/
theorem mem_pickNew_iff (hu : u ∈ items) :
    u ∈ (pickNew bound seen listed).1 ↔ u ∈ seen ∨ u ∈ listed := by
  constructor
  · exact mem_or_mem_of_mem_pickNew hnodup hlen hsub h
  · intro hor
    rw [pickNew_fst hnodup hlen hsub h, List.mem_append]
    by_cases hseen : u ∈ seen
    · rw [← List.take_append_drop (overflow bound seen listed) seen, List.mem_append] at hseen
      exact Or.inl (hseen.resolve_left fun htake => h.dropped u htake hu)
    · exact Or.inr (mem_unseen.mpr ⟨hor.resolve_left hseen, hseen⟩)

end Listing
