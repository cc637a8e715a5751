import BotHive.Library.Machine
import BotHive.Workers.Polling

/-!
# What polling emits

During one connection each item that comes after the first completed poll should be emitted
once, and no other. The sets of the follower polls forget the users that they remembered first,
which are the newest followers of the first listing, and take every user that they have
forgotten for a new one. The Twitter worker creates its set before the first listing is
complete, and the Twitch worker mistakes the first followers of a channel for the ones that
were there before. The Bluesky worker reports its first page, and then goes on towards older
notifications.

## Main definitions

- `TwitterFollowers.Remembers`, `TwitchFollowers.Remembers`, `Notifications.ListsNew`: the
  conditions on a step

## Main results

- `exactlyOnce_of_conditions`: every item is emitted exactly once in a run that meets the
  condition of its adapter; for notifications the condition is also necessary
- `not_exactlyOnce`: a short run of each adapter
-/

namespace BotHive.Workers

namespace Feed

variable {α : Type*} [DecidableEq α] {f : Feed α} {u : α} {us : List α}

theorem emit_of_mem (h : u ∈ f.due) :
    f.emit u = { f with due := f.due.filter fun v => v ≠ u } :=
  if_pos h

/-- Due items are emitted once each. -/
theorem emitAll_of_due (hnodup : us.Nodup) (hdue : ∀ u ∈ us, u ∈ f.due) :
    f.emitAll us = { f with due := f.due.filter fun v => v ∉ us } := by
  induction us generalizing f with
  | nil =>
    have hsame : f.due.filter (fun v => v ∉ ([] : List α)) = f.due :=
      List.filter_eq_self.mpr fun _ _ => decide_eq_true List.not_mem_nil
    rw [hsame]
    rfl
  | cons u us ih =>
    obtain ⟨hu, hus⟩ := List.nodup_cons.mp hnodup
    have hfirst : f.emitAll (u :: us) = (f.emit u).emitAll us := rfl
    rw [hfirst, emit_of_mem (hdue u List.mem_cons_self), ih hus]
    · rw [List.filter_filter]
      congr 1
      apply List.filter_congr
      intro v _
      simp [not_or, Bool.and_comm]
    · intro v hv
      rw [List.mem_filter, decide_eq_true_eq]
      exact ⟨hdue v (List.mem_cons_of_mem u hv), fun heq => hu (heq ▸ hv)⟩

/-- Emitting changes what is due, to less, and adds to what was not. -/
theorem emitAll_eq (us : List α) (f : Feed α) : ∃ due added,
    f.emitAll us = { f with due := due, unexpected := added ++ f.unexpected } ∧
      ∀ u ∈ due, u ∈ f.due := by
  induction us generalizing f with
  | nil => exact ⟨f.due, [], rfl, fun _ => id⟩
  | cons u us ih =>
    have hfirst : f.emitAll (u :: us) = (f.emit u).emitAll us := rfl
    obtain ⟨due, added, heq, hdue⟩ := ih (f.emit u)
    rw [hfirst, heq]
    by_cases hu : u ∈ f.due
    · rw [emit_of_mem hu] at hdue ⊢
      exact ⟨due, added, rfl, fun v hv => List.mem_of_mem_filter (hdue v hv)⟩
    · rw [emit, if_neg hu] at hdue ⊢
      exact ⟨due, added ++ [u], by rw [List.append_assoc, List.singleton_append], hdue⟩

/-- Emitting meets no surprise exactly when all is due. -/
theorem unexpected_emitAll_eq_nil_iff (hnodup : us.Nodup) (hnone : f.unexpected = []) :
    (f.emitAll us).unexpected = [] ↔ ∀ u ∈ us, u ∈ f.due := by
  constructor
  · intro h
    induction us generalizing f with
    | nil => exact fun _ hu => (List.not_mem_nil hu).elim
    | cons u us ih =>
      obtain ⟨hu, hus⟩ := List.nodup_cons.mp hnodup
      have hfirst : f.emitAll (u :: us) = (f.emit u).emitAll us := rfl
      rw [hfirst] at h
      have hdue : u ∈ f.due := by
        by_contra hdue
        obtain ⟨due, added, heq, -⟩ := emitAll_eq us (f.emit u)
        rw [heq, emit, if_neg hdue] at h
        exact List.append_ne_nil_of_right_ne_nil added (List.cons_ne_nil u _) h
      rw [emit_of_mem hdue] at h
      have hrest := ih (f := { f with due := f.due.filter fun v => v ≠ u }) hus hnone h
      rintro v (_ | ⟨_, hv⟩)
      · exact hdue
      · exact List.mem_of_mem_filter (hrest v hv)
  · intro hdue
    rw [emitAll_of_due hnodup hdue]
    exact hnone

omit [DecidableEq α] in
/-- What appears is due once a poll has completed. -/
theorem mem_due_appear {f : Feed α} {u v : α} :
    v ∈ (f.appear u).due ↔ f.polled = true ∧ v = u ∨ v ∈ f.due := by
  rw [appear]
  dsimp only
  split_ifs with hpolled
  · simp [hpolled]
  · simp [hpolled]

omit [DecidableEq α] in
theorem due_appear_of_not_polled {f : Feed α} (hpolled : f.polled = false) (u : α) :
    (f.appear u).due = f.due := by
  rw [appear, hpolled]
  rfl

theorem mem_items_vanish {f : Feed α} {u v : α} :
    v ∈ (f.vanish u).items ↔ v ∈ f.items ∧ v ≠ u := by
  simp [vanish]

theorem mem_due_vanish {f : Feed α} {u v : α} :
    v ∈ (f.vanish u).due ↔ v ∈ f.due ∧ v ≠ u := by
  simp [vanish]

theorem due_vanish_of_nil {f : Feed α} (hnone : f.due = []) (u : α) : (f.vanish u).due = [] := by
  rw [vanish, hnone]
  rfl

end Feed

section Followers

variable {α : Type*} [DecidableEq α]

omit [DecidableEq α] in
theorem reached_sublist (listing : List α) (broken : Option ℕ) :
    (reached listing broken).Sublist listing :=
  match broken with
  | none => List.Sublist.refl _
  | some n => List.take_sublist n _

/-- A listing of remembered and due users emits the due ones. -/
theorem emitAll_pickNew {f : Feed α} {bound : ℕ} {seen listed items : List α}
    (hnodup : listed.Nodup) (hlen : seen.length ≤ bound) (hsub : ∀ v ∈ listed, v ∈ items)
    (hkeeps : Keeps bound seen listed items)
    (hknown : ∀ u ∈ listed, u ∈ seen ∨ u ∈ f.due) :
    f.emitAll (pickNew bound seen listed).2 =
      { f with due := f.due.filter fun u => u ∉ unseen seen listed } := by
  rw [pickNew_snd hnodup hlen hsub hkeeps]
  apply Feed.emitAll_of_due (nodup_unseen hnodup seen)
  intro u hu
  obtain ⟨hlisted, hunseen⟩ := mem_unseen.mp hu
  exact (hknown u hlisted).resolve_left hunseen

/-- A complete listing leaves nothing due. -/
theorem due_filter_eq_nil {due seen listed : List α} (hlisted : ∀ u ∈ due, u ∈ listed)
    (hnew : ∀ u ∈ due, u ∉ seen) : due.filter (fun u => u ∉ unseen seen listed) = [] := by
  apply List.filter_eq_nil_iff.mpr
  intro u hu
  simpa using mem_unseen.mpr ⟨hlisted u hu, hnew u hu⟩

theorem mem_filter_unseen {due seen listed : List α} {v : α} :
    v ∈ due.filter (fun u => u ∉ unseen seen listed) ↔ v ∈ due ∧ v ∉ unseen seen listed := by
  rw [List.mem_filter, decide_eq_true_eq]

/-- What was new and has not been emitted is not remembered either. -/
theorem notMem_of_unsent {seen seen' listed : List α} {v : α}
    (hmem : v ∈ seen' → v ∈ seen ∨ v ∈ listed) (hnew : v ∉ seen)
    (hunsent : v ∉ unseen seen listed) : v ∉ seen' := by
  intro hv
  rcases hmem hv with hseen | hlisted
  · exact hnew hseen
  · exact hunsent (mem_unseen.mpr ⟨hlisted, hnew⟩)

omit [DecidableEq α] in
/-- A newest item stays one when others go. -/
theorem mem_take_filter {p : α → Bool} {l : List α} {n : ℕ} {u : α} (hu : u ∈ l.take n)
    (hp : p u = true) : u ∈ (l.filter p).take n := by
  induction l generalizing n with
  | nil => exact (List.not_mem_nil (List.take_nil ▸ hu)).elim
  | cons v l ih =>
    cases n with
    | zero => exact (List.not_mem_nil hu).elim
    | succ n =>
      rw [List.take_succ_cons] at hu
      by_cases hv : p v = true
      · rw [List.filter_cons_of_pos hv, List.take_succ_cons]
        exact (List.mem_cons.mp hu).elim (fun heq => heq ▸ List.mem_cons_self)
          fun hmem => List.mem_cons_of_mem v (ih hmem)
      · rw [List.filter_cons_of_neg hv]
        have hmem : u ∈ l.take n :=
          (List.mem_cons.mp hu).resolve_left fun heq => hv (heq ▸ hp)
        exact List.take_subset_take_left _ (Nat.le_succ n) (ih hmem)

namespace TwitterFollowers

/-- No remembered user follows again, the first listing is complete, and the users that the set
    drops no longer follow. -/
def Remembers (s : TwitterFollowers α) : FollowerAction α → Prop
  | .appear u => u ∉ s.seenFollowers.getD []
  | .vanish _ => True
  | .poll broken =>
    (s.seenFollowers = none → broken = none) ∧
      Keeps dedupBound (s.seenFollowers.getD []) (reached s.feed.items broken) s.feed.items

instance decidableRemembers (s : TwitterFollowers α) :
    (a : FollowerAction α) → Decidable (s.Remembers a)
  | .appear u => inferInstanceAs (Decidable (u ∉ s.seenFollowers.getD []))
  | .vanish _ => inferInstanceAs (Decidable True)
  | .poll broken => inferInstanceAs (Decidable ((s.seenFollowers = none → broken = none) ∧
      Keeps dedupBound (s.seenFollowers.getD []) (reached s.feed.items broken) s.feed.items))

/-- A follower is remembered or due, and not both. -/
structure Knows (s : TwitterFollowers α) : Prop where
  nodup : s.feed.items.Nodup
  bounded : (s.seenFollowers.getD []).length ≤ dedupBound
  polled : s.feed.polled = s.seenFollowers.isSome
  due_sub : ∀ u ∈ s.feed.due, u ∈ s.feed.items
  due_new : ∀ u ∈ s.feed.due, u ∉ s.seenFollowers.getD []
  covered : s.seenFollowers.isSome → ∀ u ∈ s.feed.items,
    u ∈ s.seenFollowers.getD [] ∨ u ∈ s.feed.due
  unpolled : s.seenFollowers = none → s.feed.due = []
  once : s.feed.ExactlyOnce

omit [DecidableEq α] in
theorem Knows.start : (start : TwitterFollowers α).Knows where
  nodup := List.nodup_nil
  bounded := Nat.zero_le _
  polled := rfl
  due_sub _ h := (List.not_mem_nil h).elim
  due_new _ h := (List.not_mem_nil h).elim
  covered h := (Bool.false_ne_true h).elim
  unpolled _ := rfl
  once := ⟨rfl, rfl⟩

variable {s : TwitterFollowers α}

omit [DecidableEq α] in
theorem Knows.appear (h : s.Knows) {u : α} (hitem : u ∉ s.feed.items)
    (hseen : u ∉ s.seenFollowers.getD []) :
    Knows { s with feed := s.feed.appear u } where
  nodup := List.nodup_cons.mpr ⟨hitem, h.nodup⟩
  bounded := h.bounded
  polled := h.polled
  due_sub v hv := by
    rcases Feed.mem_due_appear.mp hv with ⟨-, rfl⟩ | hdue
    · exact List.mem_cons_self
    · exact List.mem_cons_of_mem u (h.due_sub v hdue)
  due_new v hv := by
    rcases Feed.mem_due_appear.mp hv with ⟨-, rfl⟩ | hdue
    · exact hseen
    · exact h.due_new v hdue
  covered hsome v hv := by
    rcases List.mem_cons.mp hv with rfl | hv
    · exact .inr (Feed.mem_due_appear.mpr (.inl ⟨h.polled.trans hsome, rfl⟩))
    · exact (h.covered hsome v hv).imp_right fun hdue => Feed.mem_due_appear.mpr (.inr hdue)
  unpolled hnone := by
    have hpolled : s.feed.polled = false := by
      rw [h.polled, hnone]
      rfl
    exact (Feed.due_appear_of_not_polled hpolled u).trans (h.unpolled hnone)
  once := ⟨h.once.unexpected, h.once.missed⟩

theorem Knows.vanish (h : s.Knows) (u : α) : Knows { s with feed := s.feed.vanish u } where
  nodup := h.nodup.filter _
  bounded := h.bounded
  polled := h.polled
  due_sub v hv := by
    obtain ⟨hdue, hne⟩ := Feed.mem_due_vanish.mp hv
    exact Feed.mem_items_vanish.mpr ⟨h.due_sub v hdue, hne⟩
  due_new v hv := h.due_new v (Feed.mem_due_vanish.mp hv).1
  covered hsome v hv := by
    obtain ⟨hitem, hne⟩ := Feed.mem_items_vanish.mp hv
    exact (h.covered hsome v hitem).imp_right fun hdue => Feed.mem_due_vanish.mpr ⟨hdue, hne⟩
  unpolled hnone := Feed.due_vanish_of_nil (h.unpolled hnone) u
  once := ⟨h.once.unexpected, h.once.missed⟩

/-- The first poll remembers all followers. -/
theorem Knows.first (h : s.Knows) (hfirst : s.seenFollowers = none)
    (hkeeps : Keeps dedupBound [] s.feed.items s.feed.items) :
    (s.pollFollowers none).Knows := by
  have hlen : ([] : List α).length ≤ dedupBound := Nat.zero_le _
  have hbounded := length_pickNew h.nodup hlen (fun _ => id) hkeeps
  have hmem := fun u (hu : u ∈ s.feed.items) =>
    (mem_pickNew_iff h.nodup hlen (fun _ => id) hkeeps hu).mpr (Or.inr hu)
  have hpoll : s.pollFollowers none =
      { seenFollowers := some (pickNew dedupBound [] s.feed.items).1
        feed := s.feed.complete } := by
    rw [pollFollowers, hfirst]
    rfl
  have hmissed : s.feed.complete.missed = [] := by
    rw [Feed.complete, h.once.missed, h.unpolled hfirst, List.append_nil]
  rw [hpoll]
  exact ⟨h.nodup, hbounded, rfl, fun _ hu => (List.not_mem_nil hu).elim,
    fun _ hu => (List.not_mem_nil hu).elim, fun _ u hu => Or.inl (hmem u hu), fun _ => rfl,
    ⟨h.once.unexpected, hmissed⟩⟩

/-- A later poll emits what is due of the listing that it gets. -/
theorem Knows.later (h : s.Knows) {seen : List α} (hseen : s.seenFollowers = some seen)
    (broken : Option ℕ)
    (hkeeps : Keeps dedupBound seen (reached s.feed.items broken) s.feed.items) :
    (s.pollFollowers broken).Knows := by
  obtain ⟨hnodup, hbounded, hpolled, hsub, hnew, hcovered, hunpolled, honce⟩ := h
  simp only [hseen, Option.getD_some, Option.isSome_some] at hbounded hpolled hnew hcovered
  have hlisted := reached_sublist s.feed.items broken
  have hlnodup := hnodup.sublist hlisted
  have hbounded' := length_pickNew hlnodup hbounded (fun _ => hlisted.mem) hkeeps
  have hmem := fun u => mem_pickNew_iff (u := u) hlnodup hbounded (fun _ => hlisted.mem) hkeeps
  have hemit := emitAll_pickNew hlnodup hbounded (fun _ => hlisted.mem) hkeeps
    fun u hu => hcovered trivial u (hlisted.mem hu)
  have hpoll : s.pollFollowers broken =
      { seenFollowers := some (pickNew dedupBound seen (reached s.feed.items broken)).1
        feed :=
          if broken.isNone then
            (s.feed.emitAll (pickNew dedupBound seen (reached s.feed.items broken)).2).complete
          else s.feed.emitAll (pickNew dedupBound seen (reached s.feed.items broken)).2 } := by
    rw [pollFollowers, hseen]
    rfl
  rw [hpoll, hemit]
  generalize (pickNew dedupBound seen (reached s.feed.items broken)).1 = seen' at hbounded' hmem
  cases broken with
  | none =>
    have hmissed : s.feed.missed ++ s.feed.due.filter (fun u => u ∉ unseen seen s.feed.items) =
        [] := by
      rw [due_filter_eq_nil hsub hnew, honce.missed, List.append_nil]
    exact ⟨hnodup, hbounded', rfl, fun _ hu => (List.not_mem_nil hu).elim,
      fun _ hu => (List.not_mem_nil hu).elim,
      fun _ u hu => Or.inl ((hmem u hu).mpr (Or.inr hu)), fun _ => rfl,
      ⟨honce.unexpected, hmissed⟩⟩
  | some n =>
    refine ⟨hnodup, hbounded', hpolled, ?_, ?_, ?_, ?_, ⟨honce.unexpected, honce.missed⟩⟩ <;>
      simp only [Option.isNone_some, Bool.false_eq_true, if_false, Option.getD_some]
    · intro v hv
      exact hsub v (List.mem_of_mem_filter hv)
    · intro v hv
      obtain ⟨hdue, hunsent⟩ := mem_filter_unseen.mp hv
      exact notMem_of_unsent (hmem v (hsub v hdue)).mp (hnew v hdue) hunsent
    · intro _ v hv
      rcases hcovered trivial v hv with hseen | hdue
      · exact .inl ((hmem v hv).mpr (.inl hseen))
      · by_cases hsent : v ∈ unseen seen (reached s.feed.items (some n))
        · exact .inl ((hmem v hv).mpr (.inr (mem_unseen.mp hsent).1))
        · exact .inr (mem_filter_unseen.mpr ⟨hdue, hsent⟩)
    · rintro ⟨⟩

theorem Knows.step (s : TwitterFollowers α) (a : FollowerAction α) (s' : TwitterFollowers α)
    (h : s.Knows) (hok : s.Remembers a) (hstep : s.step a = some s') : s'.Knows := by
  cases a with
  | appear u =>
    obtain ⟨hitem, ⟨⟩⟩ := Option.ite_none_left_eq_some.mp hstep
    exact h.appear hitem hok
  | vanish u =>
    obtain rfl := Option.some.inj hstep
    exact h.vanish u
  | poll broken =>
    obtain rfl := Option.some.inj hstep
    obtain ⟨hcomplete, hkeeps⟩ := hok
    cases hseen : s.seenFollowers with
    | none =>
      obtain rfl := hcomplete hseen
      rw [hseen] at hkeeps
      exact h.first hseen hkeeps
    | some seen =>
      rw [hseen] at hkeeps
      exact h.later hseen broken hkeeps

end TwitterFollowers

namespace TwitchFollowers

/-- No remembered user follows again, the channel had a follower at the first poll, whoever is on
    the page is remembered or has come since the last completed poll, and the users that the set
    drops are not on the page. -/
def Remembers (s : TwitchFollowers α) : FollowerAction α → Prop
  | .appear u => u ∉ s.seenFollowers.getD []
  | .vanish _ => True
  | .poll broken =>
    (s.seenFollowers = some [] → s.page = []) ∧
      (s.seenFollowers.isSome → ∀ u ∈ s.page, u ∈ s.seenFollowers.getD [] ∨ u ∈ s.feed.due) ∧
      Keeps seenBound (s.seenFollowers.getD []) (reached s.page broken) s.page

instance decidableRemembers (s : TwitchFollowers α) :
    (a : FollowerAction α) → Decidable (s.Remembers a)
  | .appear u => inferInstanceAs (Decidable (u ∉ s.seenFollowers.getD []))
  | .vanish _ => inferInstanceAs (Decidable True)
  | .poll broken => inferInstanceAs (Decidable ((s.seenFollowers = some [] → s.page = []) ∧
      (s.seenFollowers.isSome → ∀ u ∈ s.page, u ∈ s.seenFollowers.getD [] ∨ u ∈ s.feed.due) ∧
      Keeps seenBound (s.seenFollowers.getD []) (reached s.page broken) s.page))

/-- The due followers are among the newest ones, and not remembered. -/
structure Knows (s : TwitchFollowers α) : Prop where
  nodup : s.feed.items.Nodup
  bounded : (s.seenFollowers.getD []).length ≤ seenBound
  polled : s.feed.polled = s.seenFollowers.isSome
  news : s.feed.news ≤ followerPage
  due_newest : ∀ u ∈ s.feed.due, u ∈ s.feed.items.take s.feed.news
  due_new : ∀ u ∈ s.feed.due, u ∉ s.seenFollowers.getD []
  unpolled : s.seenFollowers = none → s.feed.due = []
  once : s.feed.ExactlyOnce

omit [DecidableEq α] in
theorem Knows.start : (start : TwitchFollowers α).Knows where
  nodup := List.nodup_nil
  bounded := Nat.zero_le _
  polled := rfl
  news := Nat.zero_le _
  due_newest _ h := (List.not_mem_nil h).elim
  due_new _ h := (List.not_mem_nil h).elim
  unpolled _ := rfl
  once := ⟨rfl, rfl⟩

variable {s : TwitchFollowers α}

omit [DecidableEq α] in
theorem Knows.due_page (h : s.Knows) {u : α} (hu : u ∈ s.feed.due) : u ∈ s.page :=
  (List.take_subset_take_left s.feed.items h.news) (h.due_newest u hu)

omit [DecidableEq α] in
theorem Knows.appear (h : s.Knows) {u : α} (hitem : u ∉ s.feed.items)
    (hnews : s.feed.news < followerPage) (hseen : u ∉ s.seenFollowers.getD []) :
    Knows { s with feed := s.feed.appear u } := by
  refine ⟨List.nodup_cons.mpr ⟨hitem, h.nodup⟩, h.bounded, h.polled, hnews, ?_, ?_, ?_,
    ⟨h.once.unexpected, h.once.missed⟩⟩
  · intro v hv
    show v ∈ (u :: s.feed.items).take (s.feed.news + 1)
    rw [List.take_succ_cons]
    rcases Feed.mem_due_appear.mp hv with ⟨-, rfl⟩ | hdue
    · exact List.mem_cons_self
    · exact List.mem_cons_of_mem u (h.due_newest v hdue)
  · intro v hv
    rcases Feed.mem_due_appear.mp hv with ⟨-, rfl⟩ | hdue
    · exact hseen
    · exact h.due_new v hdue
  · intro hnone
    have hpolled : s.feed.polled = false := by
      rw [h.polled, hnone]
      rfl
    exact (Feed.due_appear_of_not_polled hpolled u).trans (h.unpolled hnone)

theorem Knows.vanish (h : s.Knows) (u : α) : Knows { s with feed := s.feed.vanish u } := by
  refine ⟨h.nodup.filter _, h.bounded, h.polled, h.news, ?_, ?_, ?_,
    ⟨h.once.unexpected, h.once.missed⟩⟩
  · intro v hv
    obtain ⟨hdue, hne⟩ := Feed.mem_due_vanish.mp hv
    exact mem_take_filter (h.due_newest v hdue) (decide_eq_true hne)
  · intro v hv
    exact h.due_new v (Feed.mem_due_vanish.mp hv).1
  · intro hnone
    exact Feed.due_vanish_of_nil (h.unpolled hnone) u

/-- The first poll remembers the page, if a later one does not find it empty. -/
theorem Knows.first (h : s.Knows) (hfirst : s.seenFollowers = none)
    (hkeeps : Keeps seenBound [] s.page s.page) :
    Knows { seenFollowers := some (pickNew seenBound [] s.page).1, feed := s.feed.complete } := by
  have hlen : ([] : List α).length ≤ seenBound := Nat.zero_le _
  have hpage : s.page.Nodup := h.nodup.sublist (List.take_sublist _ _)
  have hmissed : s.feed.complete.missed = [] := by
    rw [Feed.complete, h.once.missed, h.unpolled hfirst, List.append_nil]
  exact ⟨h.nodup, length_pickNew hpage hlen (fun _ => id) hkeeps, rfl, Nat.zero_le _,
    fun _ hu => (List.not_mem_nil hu).elim, fun _ hu => (List.not_mem_nil hu).elim, fun _ => rfl,
    ⟨h.once.unexpected, hmissed⟩⟩

omit [DecidableEq α] in
/-- A poll that finds neither remembered users nor followers. -/
theorem Knows.idle (h : s.Knows) (hpage : s.page = []) :
    Knows { seenFollowers := some [], feed := s.feed.complete } := by
  have hdue : s.feed.due = [] :=
    List.eq_nil_iff_forall_not_mem.mpr fun u hu =>
      List.not_mem_nil (hpage ▸ h.due_page hu : u ∈ ([] : List α))
  have hmissed : s.feed.complete.missed = [] := by
    rw [Feed.complete, h.once.missed, hdue, List.append_nil]
  exact ⟨h.nodup, Nat.zero_le _, rfl, Nat.zero_le _,
    fun _ hu => (List.not_mem_nil hu).elim, fun _ hu => (List.not_mem_nil hu).elim, fun _ => rfl,
    ⟨h.once.unexpected, hmissed⟩⟩

/-- A later poll emits what is due of the part of the page that it gets through. -/
theorem Knows.later (h : s.Knows) {seen : List α} (hseen : s.seenFollowers = some seen)
    (broken : Option ℕ) (hknown : ∀ u ∈ s.page, u ∈ seen ∨ u ∈ s.feed.due)
    (hkeeps : Keeps seenBound seen (reached s.page broken) s.page) :
    Knows {
      seenFollowers := some (pickNew seenBound seen (reached s.page broken)).1
      feed :=
        if broken.isNone then
          (s.feed.emitAll (pickNew seenBound seen (reached s.page broken)).2).complete
        else s.feed.emitAll (pickNew seenBound seen (reached s.page broken)).2 } := by
  have hpage := fun u => h.due_page (u := u)
  obtain ⟨hnodup, hbounded, hpolled, hle, hnewest, hnew, hunpolled, honce⟩ := h
  simp only [hseen, Option.getD_some, Option.isSome_some] at hbounded hpolled hnew
  have hlisted := reached_sublist s.page broken
  have hlnodup := (hnodup.sublist (List.take_sublist _ _)).sublist hlisted
  have hbounded' := length_pickNew hlnodup hbounded (fun _ => hlisted.mem) hkeeps
  have hmem := fun u (hu : u ∈ s.page) =>
    (mem_pickNew_iff hlnodup hbounded (fun _ => hlisted.mem) hkeeps hu).mp
  rw [emitAll_pickNew hlnodup hbounded (fun _ => hlisted.mem) hkeeps
    fun u hu => hknown u (hlisted.mem hu)]
  generalize (pickNew seenBound seen (reached s.page broken)).1 = seen' at hbounded' hmem
  cases broken with
  | none =>
    have hmissed : s.feed.missed ++ s.feed.due.filter (fun u => u ∉ unseen seen s.page) = [] := by
      rw [due_filter_eq_nil hpage hnew, honce.missed, List.append_nil]
    exact ⟨hnodup, hbounded', rfl, Nat.zero_le _, fun _ hu => (List.not_mem_nil hu).elim,
      fun _ hu => (List.not_mem_nil hu).elim, fun _ => rfl, ⟨honce.unexpected, hmissed⟩⟩
  | some n =>
    refine ⟨hnodup, hbounded', hpolled, hle, ?_, ?_, ?_, ⟨honce.unexpected, honce.missed⟩⟩ <;>
      simp only [Option.isNone_some, Bool.false_eq_true, if_false, Option.getD_some]
    · intro v hv
      exact hnewest v (List.mem_of_mem_filter hv)
    · intro v hv
      obtain ⟨hdue, hunsent⟩ := mem_filter_unseen.mp hv
      exact notMem_of_unsent (hmem v (hpage v hdue)) (hnew v hdue) hunsent
    · rintro ⟨⟩

theorem Knows.step (s : TwitchFollowers α) (a : FollowerAction α) (s' : TwitchFollowers α)
    (h : s.Knows) (hok : s.Remembers a) (hstep : s.step a = some s') : s'.Knows := by
  cases a with
  | appear u =>
    obtain ⟨hitem, ⟨⟩⟩ := Option.ite_none_left_eq_some.mp hstep
    obtain ⟨hitem, hnews⟩ := not_or.mp hitem
    exact h.appear hitem (Nat.not_le.mp hnews) hok
  | vanish u =>
    obtain rfl := Option.some.inj hstep
    exact h.vanish u
  | poll broken =>
    obtain ⟨hempty, hknown, hkeeps⟩ := hok
    have hpoll : s.poll broken = some s' := hstep
    rw [poll] at hpoll
    cases hseen : s.seenFollowers with
    | none =>
      rw [hseen] at hpoll hkeeps
      cases broken with
      | none =>
        obtain rfl := Option.some.inj hpoll
        exact h.first hseen hkeeps
      | some n => cases hpoll
    | some seen =>
      rw [hseen] at hpoll hkeeps hknown
      cases seen with
      | nil =>
        have hpage := hempty hseen
        rw [hpage] at hpoll
        cases broken with
        | none =>
          obtain rfl := Option.some.inj hpoll
          exact h.idle hpage
        | some n => cases hpoll
      | cons v seen =>
        have hlater := h.later hseen broken (hknown rfl) hkeeps
        cases broken with
        | none =>
          obtain rfl := Option.some.inj hpoll
          exact hlater
        | some n =>
          obtain rfl := Option.some.inj hpoll
          exact hlater

end TwitchFollowers

end Followers

namespace Notifications

/-- A page without a cursor lists what has come since the last completed poll, and a page with a
    cursor is empty, as is what has come. -/
def ListsNew (s : Notifications) : NotificationAction → Prop
  | .poll _ => (∀ n ∈ s.page, n ∈ s.feed.due) ∧ (s.lastSeenCursor.isSome → s.feed.due = [])
  | .breakOff m => ∀ n ∈ s.page.take m, n ∈ s.feed.due
  | _ => True

/-- The due notifications are among the newest ones, and before no cursor. -/
structure Numbered (s : Notifications) : Prop where
  nodup : s.feed.items.Nodup
  lt_next : ∀ n ∈ s.feed.items, n < s.next
  news : s.feed.news ≤ notificationLimit
  due_newest : ∀ n ∈ s.feed.due, n ∈ s.feed.items.take s.feed.news
  cursor_le : ∀ c, s.lastSeenCursor = some c → c ≤ s.next ∧ ∀ n ∈ s.feed.due, c ≤ n

theorem Numbered.start : start.Numbered where
  nodup := List.nodup_nil
  lt_next _ h := (List.not_mem_nil h).elim
  news := Nat.zero_le _
  due_newest _ h := (List.not_mem_nil h).elim
  cursor_le _ h := (Option.some_ne_none _ h.symm).elim

variable {s : Notifications}

theorem page_sublist (s : Notifications) : s.page.Sublist s.feed.items := by
  rw [page]
  cases s.lastSeenCursor with
  | none => exact List.take_sublist _ _
  | some c => exact (List.take_sublist _ _).trans List.filter_sublist

theorem Numbered.due_page (h : s.Numbered) (hcursor : s.lastSeenCursor = none) {n : ℕ}
    (hn : n ∈ s.feed.due) : n ∈ s.page := by
  rw [page, hcursor]
  exact List.take_subset_take_left s.feed.items h.news (h.due_newest n hn)

theorem Numbered.emitAll (h : s.Numbered) (us : List ℕ) :
    Numbered { s with feed := s.feed.emitAll us } := by
  obtain ⟨due, added, heq, hdue⟩ := Feed.emitAll_eq us s.feed
  rw [heq]
  refine ⟨h.nodup, h.lt_next, h.news, fun n hn => h.due_newest n (hdue n hn), ?_⟩
  intro c hc
  exact (h.cursor_le c hc).imp_right fun hle n hn => hle n (hdue n hn)

theorem Numbered.appear (h : s.Numbered) (hnews : s.feed.news < notificationLimit) :
    Numbered { s with feed := s.feed.appear s.next, next := s.next + 1 } := by
  refine ⟨List.nodup_cons.mpr ⟨fun hmem => Nat.lt_irrefl _ (h.lt_next _ hmem), h.nodup⟩, ?_, hnews,
    ?_, ?_⟩
  · intro n hn
    rcases List.mem_cons.mp hn with rfl | hn
    · exact Nat.lt_succ_self _
    · exact Nat.lt_succ_of_lt (h.lt_next n hn)
  · intro n hn
    show n ∈ (s.next :: s.feed.items).take (s.feed.news + 1)
    rw [List.take_succ_cons]
    rcases Feed.mem_due_appear.mp hn with ⟨-, rfl⟩ | hdue
    · exact List.mem_cons_self
    · exact List.mem_cons_of_mem _ (h.due_newest n hdue)
  · intro c hc
    obtain ⟨hle, hdue⟩ := h.cursor_le c hc
    refine ⟨Nat.le_succ_of_le hle, fun n hn => ?_⟩
    rcases Feed.mem_due_appear.mp hn with ⟨-, rfl⟩ | hn
    · exact hle
    · exact hdue n hn

theorem Numbered.vanish (h : s.Numbered) (n : ℕ) : Numbered { s with feed := s.feed.vanish n } := by
  refine ⟨h.nodup.filter _, ?_, h.news, ?_, ?_⟩
  · intro m hm
    exact h.lt_next m (Feed.mem_items_vanish.mp hm).1
  · intro m hm
    obtain ⟨hdue, hne⟩ := Feed.mem_due_vanish.mp hm
    exact mem_take_filter (h.due_newest m hdue) (decide_eq_true hne)
  · intro c hc
    obtain ⟨hle, hdue⟩ := h.cursor_le c hc
    exact ⟨hle, fun m hm => hdue m (Feed.mem_due_vanish.mp hm).1⟩

theorem Numbered.poll (h : s.Numbered) {cursor : Option ℕ} (hcontinues : s.Continues cursor) :
    (s.poll cursor).Numbered := by
  obtain ⟨due, added, heq, -⟩ := Feed.emitAll_eq s.page s.feed
  rw [Notifications.poll, heq]
  refine ⟨h.nodup, h.lt_next, Nat.zero_le _, fun _ hn => (List.not_mem_nil hn).elim, ?_⟩
  intro c hc
  refine ⟨?_, fun _ hn => (List.not_mem_nil hn).elim⟩
  cases cursor with
  | none => exact (h.cursor_le c hc).1
  | some c' =>
    obtain rfl := Option.some.inj hc
    exact hcontinues.1

theorem Numbered.step (s : Notifications) (a : NotificationAction) (s' : Notifications)
    (h : s.Numbered) (hstep : s.step a = some s') : s'.Numbered := by
  cases a with
  | appear =>
    obtain ⟨hnews, ⟨⟩⟩ := Option.ite_none_left_eq_some.mp hstep
    exact h.appear (Nat.not_le.mp hnews)
  | vanish n =>
    obtain rfl := Option.some.inj hstep
    exact h.vanish n
  | poll cursor =>
    obtain ⟨hcontinues, ⟨⟩⟩ := Option.ite_none_right_eq_some.mp hstep
    exact h.poll hcontinues
  | breakOff n =>
    obtain rfl := Option.some.inj hstep
    exact h.emitAll _

/-- A poll empties what is due when it lists it, and a cursor lists none of it. -/
theorem Numbered.due_sub_page_iff (h : s.Numbered) :
    (∀ n ∈ s.feed.due, n ∈ s.page) ↔ (s.lastSeenCursor.isSome → s.feed.due = []) := by
  cases hcursor : s.lastSeenCursor with
  | none => exact iff_of_true (fun n hn => h.due_page hcursor hn) fun hsome => by cases hsome
  | some c =>
    constructor
    · intro hsub _
      apply List.eq_nil_iff_forall_not_mem.mpr
      intro n hn
      have hpage := hsub n hn
      rw [page, hcursor] at hpage
      have hlt : n < c := by simpa using (List.mem_filter.mp (List.mem_of_mem_take hpage)).2
      exact absurd ((h.cursor_le c hcursor).2 n hn) (Nat.not_le.mpr hlt)
    · intro hnone n hn
      rw [hnone rfl] at hn
      exact (List.not_mem_nil hn).elim

/-- A poll emits exactly what is due if its page is new, and nothing else is. -/
theorem Numbered.poll_iff (h : s.Numbered) (honce : s.feed.ExactlyOnce) (cursor : Option ℕ) :
    (s.poll cursor).feed.ExactlyOnce ↔ s.ListsNew (.poll cursor) := by
  have hnodup := h.nodup.sublist s.page_sublist
  have hunexpected := Feed.unexpected_emitAll_eq_nil_iff hnodup honce.unexpected
  have hmissed : (s.poll cursor).feed.missed = (s.feed.emitAll s.page).due := by
    obtain ⟨due, added, heq, -⟩ := Feed.emitAll_eq s.page s.feed
    rw [Notifications.poll, Feed.complete, heq]
    exact congrArg (fun l => l ++ due) honce.missed
  have hiff : (∀ n ∈ s.page, n ∈ s.feed.due) →
      ((s.feed.emitAll s.page).due = [] ↔ ∀ n ∈ s.feed.due, n ∈ s.page) := by
    intro hdue
    rw [Feed.emitAll_of_due hnodup hdue, List.filter_eq_nil_iff]
    simp
  rw [ListsNew, ← h.due_sub_page_iff]
  constructor
  · intro ⟨hnone, hnil⟩
    have hdue := hunexpected.mp hnone
    exact ⟨hdue, (hiff hdue).mp (hmissed.symm.trans hnil)⟩
  · intro ⟨hdue, hsub⟩
    exact ⟨hunexpected.mpr hdue, hmissed.trans ((hiff hdue).mpr hsub)⟩

theorem Numbered.step_iff (s : Notifications) (a : NotificationAction) (s' : Notifications)
    (h : s.Numbered) (honce : s.feed.ExactlyOnce) (hstep : s.step a = some s') :
    s'.feed.ExactlyOnce ↔ s.ListsNew a := by
  cases a with
  | appear =>
    obtain ⟨-, ⟨⟩⟩ := Option.ite_none_left_eq_some.mp hstep
    exact iff_of_true ⟨honce.unexpected, honce.missed⟩ trivial
  | vanish n =>
    obtain rfl := Option.some.inj hstep
    exact iff_of_true ⟨honce.unexpected, honce.missed⟩ trivial
  | poll cursor =>
    obtain ⟨-, ⟨⟩⟩ := Option.ite_none_right_eq_some.mp hstep
    exact h.poll_iff honce cursor
  | breakOff m =>
    obtain rfl := Option.some.inj hstep
    have hnodup := h.nodup.sublist ((List.take_sublist m _).trans s.page_sublist)
    rw [ListsNew, ← Feed.unexpected_emitAll_eq_nil_iff hnodup honce.unexpected]
    obtain ⟨due, added, heq, -⟩ := Feed.emitAll_eq (s.page.take m) s.feed
    rw [heq]
    exact ⟨fun h => h.unexpected, fun h => ⟨h, honce.missed⟩⟩

end Notifications

/-- Whatever the providers list, every item that comes after the first completed poll is emitted
    exactly once and no other, if each step meets the condition of its adapter; for notifications,
    only if it does. -/
theorem exactlyOnce_of_conditions {α : Type*} [DecidableEq α] :
    (∀ as : List (FollowerAction α),
      Machine.Along TwitterFollowers.step TwitterFollowers.Remembers .start as →
        Machine.Everywhere TwitterFollowers.step (fun s => s.feed.ExactlyOnce) .start as) ∧
    (∀ as : List (FollowerAction α),
      Machine.Along TwitchFollowers.step TwitchFollowers.Remembers .start as →
        Machine.Everywhere TwitchFollowers.step (fun s => s.feed.ExactlyOnce) .start as) ∧
    ∀ as : List NotificationAction,
      Machine.Everywhere Notifications.step (fun s => s.feed.ExactlyOnce) .start as ↔
        Machine.Along Notifications.step Notifications.ListsNew .start as := by
  refine ⟨?_, ?_, ?_⟩
  · intro as hok
    exact Machine.everywhere_of_invariant TwitterFollowers.Knows _ TwitterFollowers.Knows.step
      (fun _ h => h.once) TwitterFollowers.Knows.start hok
  · intro as hok
    exact Machine.everywhere_of_invariant TwitchFollowers.Knows _ TwitchFollowers.Knows.step
      (fun _ h => h.once) TwitchFollowers.Knows.start hok
  · intro as
    exact Machine.everywhere_iff_along_of_invariant Notifications.Numbered
      Notifications.Numbered.step Notifications.Numbered.step_iff Notifications.Numbered.start
      ⟨rfl, rfl⟩

/-- A follower that comes after the first poll is emitted by the second one. -/
theorem exactlyOnce_secondPoll :
    Machine.Everywhere TwitterFollowers.step (fun s => s.feed.ExactlyOnce) .start
      [.appear 1, .poll none, .appear 2, .poll none] ∧
    Machine.Everywhere TwitchFollowers.step (fun s => s.feed.ExactlyOnce) .start
      [.appear 1, .poll none, .appear 2, .poll none] :=
  ⟨exactlyOnce_of_conditions.1 _ (by decide), exactlyOnce_of_conditions.2.1 _ (by decide)⟩

/-- A follower is emitted as new after a first listing that broke off, the first follower of a
    channel is not emitted, and a notification from before the first poll is. -/
theorem not_exactlyOnce :
    ¬ Machine.Everywhere TwitterFollowers.step (fun s => s.feed.ExactlyOnce) .start
      [.appear 1, .poll (some 0), .poll none] ∧
    ¬ Machine.Everywhere TwitchFollowers.step (fun s => s.feed.ExactlyOnce) .start
      [.poll none, .appear 1, .poll none] ∧
    ¬ Machine.Everywhere Notifications.step (fun s => s.feed.ExactlyOnce) .start
      [.appear, .poll none] := by
  refine ⟨?_, ?_, ?_⟩
  · intro h
    have hend := (h.2 _ rfl).2 _ rfl
    exact List.cons_ne_nil _ _ (hend.2 _ rfl).unexpected
  · intro h
    have hend := (h.2 _ rfl).2 _ rfl
    exact List.cons_ne_nil _ _ (hend.2 _ rfl).missed
  · intro h
    exact List.cons_ne_nil _ _ ((h.2 _ rfl).2 _ rfl).unexpected

end BotHive.Workers
