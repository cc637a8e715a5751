import BotHive.Auth.Users
import BotHive.Library.Machine

/-!
# Whether an admin remains

The conditional statements of the role route and of the delete route keep an admin,
whatever ran between the statements of their requests. The delete of a user whose role was
read before does not: the user may have been promoted since.

## Main results

- `AdminApi.countAdmins_pos_iff`: what one step does to the last admin
- `AdminApi.hasAdmin_everywhere_iff`: an admin remains in a run exactly when none of its
  unconditional deletes hits the only admin
- `AdminApi.not_hasAdmin_everywhere`: a promotion between the two statements of a delete
  leaves the table without an admin
-/

namespace BotHive.Auth

section Counts

variable {users : Users} {id : String} {user : User}

/-- Who counts as another admin is who remains an admin without the row. -/
theorem countOtherAdmins_eq (users : Users) (id : String) :
    countOtherAdmins users id = countAdmins (users.delete id) := by
  rw [countAdmins, InsertionMap.count, InsertionMap.entries_delete, List.countP_filter]
  rfl

theorem countAdmins_delete_add (h : users.get id = some user) :
    countAdmins (users.delete id) + (if user.role = .admin then 1 else 0) = countAdmins users := by
  have hcount := users.count_delete_add (fun _ (user : User) => user.role = .admin) h
  simpa only [countAdmins, decide_eq_true_eq] using hcount

theorem countAdmins_set (users : Users) (id : String) (user : User) :
    countAdmins (users.set id user) =
      countAdmins (users.delete id) + (if user.role = .admin then 1 else 0) := by
  rw [← countAdmins_delete_add (users.get_set_self id user), InsertionMap.delete_set]

/-- The update finds no row that it would demote as the last admin. -/
theorem countAdmins_updateRole_pos (id : String) (role : Role) (h : 0 < countAdmins users) :
    0 < countAdmins (updateRole users id role).1 := by
  rw [updateRole]
  split
  · exact h
  case h_2 user hget =>
    have hbefore := countAdmins_delete_add hget
    split_ifs with hlast
    · exact h
    · show 0 < countAdmins (users.set id { user with role })
      rw [countAdmins_set]
      cases role with
      | admin => exact Nat.succ_pos _
      | viewer =>
        by_cases hadmin : user.role = .admin
        · have hmany : ¬ countAdmins users ≤ 1 := fun hle => hlast ⟨hadmin, rfl, hle⟩
          rw [if_pos hadmin] at hbefore
          omega
        · rw [if_neg hadmin] at hbefore
          omega

/-- The conditional delete leaves another admin behind. -/
theorem countAdmins_deleteAdmin_pos (id : String) (h : 0 < countAdmins users) :
    0 < countAdmins (deleteAdmin users id).1 := by
  rw [deleteAdmin]
  split_ifs with hother
  · rw [countOtherAdmins_eq] at hother
    exact hother.2
  · exact h

/-- A delete without a condition leaves an admin exactly when it does not hit the only one. -/
theorem countAdmins_delete_pos_iff (h : 0 < countAdmins users) :
    0 < countAdmins (users.delete id) ↔ ∀ user, users.get id = some user →
      user.role = .admin → 0 < countOtherAdmins users id := by
  rw [countOtherAdmins_eq]
  constructor
  · intro hpos _ _ _
    exact hpos
  · intro hsafe
    cases hget : users.get id with
    | none =>
      rw [users.delete_of_get_none hget]
      exact h
    | some user =>
      have hbefore := countAdmins_delete_add hget
      by_cases hadmin : user.role = .admin
      · exact hsafe user hget hadmin
      · rw [if_neg hadmin] at hbefore
        omega

end Counts

/-- What the statements of a request do to the table. -/
theorem Request.execute_users {request : Request} {users users' : Users} {stage stage' : Stage}
    (h : request.execute users stage = some (users', stage')) :
    users' = users ∧ stage ≠ .deleteUser ∨
    (∃ role, users' = (updateRole users request.target role).1) ∧ stage ≠ .deleteUser ∨
    users' = (deleteAdmin users request.target).1 ∧ stage ≠ .deleteUser ∨
    users' = users.delete request.target ∧ stage = .deleteUser := by
  cases stage with
  | requireAdmin =>
    refine .inl ⟨?_, by rintro ⟨⟩⟩
    simp only [execute] at h
    split at h
    · cases h; rfl
    · split at h
      · cases h; rfl
      · split_ifs at h <;> cases h <;> rfl
  | findForRole role =>
    refine .inl ⟨?_, by rintro ⟨⟩⟩
    simp only [execute] at h
    split_ifs at h <;> cases h <;> rfl
  | updateRole role =>
    simp only [execute] at h
    split at h
    · cases h; exact .inl ⟨rfl, by rintro ⟨⟩⟩
    case h_2 hupdate =>
      cases h
      exact .inr (.inl ⟨⟨role, by rw [hupdate]⟩, by rintro ⟨⟩⟩)
  | readUpdated =>
    refine .inl ⟨?_, by rintro ⟨⟩⟩
    simp only [execute] at h
    split at h <;> cases h <;> rfl
  | findForDelete me =>
    refine .inl ⟨?_, by rintro ⟨⟩⟩
    simp only [execute] at h
    split at h
    · cases h; rfl
    · split_ifs at h <;> cases h <;> rfl
  | deleteUser =>
    refine .inr (.inr (.inr ⟨?_, rfl⟩))
    simp only [execute] at h
    split_ifs at h with hhas
    · cases h; rfl
    · cases h
      rw [users.delete_of_get_none]
      simpa [InsertionMap.has] using hhas
  | deleteAdmin =>
    simp only [execute] at h
    split at h
    · cases h; exact .inl ⟨rfl, by rintro ⟨⟩⟩
    case h_2 hdelete =>
      cases h
      exact .inr (.inr (.inl ⟨by rw [hdelete], by rintro ⟨⟩⟩))
  | answered reply => cases h

namespace AdminApi

/-- **One step**: while there is an admin, a step leaves one exactly when it does not delete
    the only one for what it had been before. -/
theorem countAdmins_pos_iff {s s' : AdminApi} {a : AdminAction} (hs : s.HasAdmin)
    (h : s.step a = some s') : s'.HasAdmin ↔ s.DeletesSafely a := by
  cases a with
  | arrive request =>
    cases h
    exact iff_of_true hs trivial
  | advance i =>
    obtain ⟨⟨request, stage⟩, hi, h⟩ := Option.bind_eq_some_iff.mp h
    obtain ⟨⟨users', stage'⟩, hexecute, rfl⟩ := Option.map_eq_some_iff.mp h
    have hvacuous : stage ≠ .deleteUser → s.DeletesSafely (.advance i) := by
      intro hne request' hi'
      rw [hi, Option.some.injEq, Prod.mk.injEq] at hi'
      exact absurd hi'.2 hne
    rcases Request.execute_users hexecute with
      ⟨rfl, hne⟩ | ⟨⟨role, rfl⟩, hne⟩ | ⟨rfl, hne⟩ | ⟨rfl, rfl⟩
    · exact iff_of_true hs (hvacuous hne)
    · exact iff_of_true (countAdmins_updateRole_pos request.target role hs) (hvacuous hne)
    · exact iff_of_true (countAdmins_deleteAdmin_pos request.target hs) (hvacuous hne)
    · refine (countAdmins_delete_pos_iff hs).trans ?_
      constructor
      · intro hsafe request' hi'
        rw [hi, Option.some.injEq, Prod.mk.injEq] at hi'
        rw [← hi'.1]
        exact hsafe
      · intro hsafe
        exact hsafe request hi

/-- **An admin remains** in every state of a run exactly when no user who was read as a
    viewer is deleted as the only admin. -/
theorem hasAdmin_everywhere_iff (users : Users) (hadmin : 0 < countAdmins users)
    (as : List AdminAction) :
    Machine.Everywhere step HasAdmin (start users) as ↔
      Machine.Along step DeletesSafely (start users) as :=
  Machine.everywhere_iff_along (fun _ _ _ => countAdmins_pos_iff) hadmin

section Promoted

/-- An admin and a viewer. -/
def adminAndViewer : Users :=
  .ofList [("a", ⟨"a@hive.io", "", some "a", .admin, 1⟩), ("v", ⟨"v@hive.io", "", some "v", .viewer, 2⟩)]

/-- The admin deletes the viewer and promotes them before the row goes; the new admin has
    demoted the old one by then. -/
def promotedWhileDeleted : List AdminAction :=
  [.arrive ⟨some "a", "v", .delete⟩, .advance 0, .advance 0,
    .arrive ⟨some "a", "v", .setRole (some "admin")⟩, .advance 1, .advance 1, .advance 1,
    .arrive ⟨some "v", "a", .setRole (some "viewer")⟩, .advance 2, .advance 2, .advance 2,
    .advance 0]

theorem not_hasAdmin_everywhere :
    0 < countAdmins adminAndViewer ∧
      ¬ Machine.Everywhere step HasAdmin (start adminAndViewer) promotedWhileDeleted := by
  refine ⟨by decide, fun h => ?_⟩
  have hend : ∃ s, Machine.exec step (start adminAndViewer) promotedWhileDeleted = some s ∧
      ¬ 0 < countAdmins s.users := by
    refine ⟨_, rfl, ?_⟩
    decide
  obtain ⟨s, hexec, hnone⟩ := hend
  exact hnone (h.at_end hexec)

/-- The equivalence at this run. -/
theorem hasAdmin_everywhere_iff_at :
    0 < countAdmins adminAndViewer ∧
      (Machine.Everywhere step HasAdmin (start adminAndViewer) promotedWhileDeleted ↔
        Machine.Along step DeletesSafely (start adminAndViewer) promotedWhileDeleted) :=
  ⟨by decide, hasAdmin_everywhere_iff adminAndViewer (by decide) promotedWhileDeleted⟩

end Promoted

end AdminApi

end BotHive.Auth
